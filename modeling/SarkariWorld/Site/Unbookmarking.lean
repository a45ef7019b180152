import SarkariWorld.Content.Identity
import SarkariWorld.Content.StorageSafe
import SarkariWorld.Site.BookmarkLists

/-!
# Taking a bookmark back

A reader sees every bookmark of theirs, but the toggle goes by the article's slug: "Only
published articles can be bookmarked." `removable_iff` says what follows for a bookmark
that is there already, in whatever state the service has come to: its owner can take it
back as long as its article is published.

A stored slug is valid, so the toggle's body accepts it and the route's pattern has
nothing to say. What is left is the lookup, which returns published articles only. Nothing
here depends on how the bookmark came about, and the theorem holds in every state a run of
the service reaches.
-/

namespace SarkariWorld.Site

open SarkariWorld.Lib SarkariWorld.Auth SarkariWorld.Content Program

variable (auth : Auth.Env) (content : Content.Env)

/-- A page of the caller's list shows this bookmark of theirs. -/
def Listed (s : Service) (b : Bookmark) : Prop :=
  ∃ (c : Call) (actor : User) (page perPage : Option Int),
    authorize (s.context auth content c) .auth s.db = .ok actor ∧ actor.id = b.userId ∧
      b ∈ (listByUser s.db.bookmarks s.db.articles actor.id
        (publicPageParams page perPage)).1.map Prod.fst

/-- The call is `toggle_bookmark`, by this reader, with a slug that
`BookmarkToggleRequest` accepts. -/
def TogglesAs (s : Service) (userId : Int) (c : Call) : Prop :=
  (∃ slug : Text, c.request = .toggleBookmark slug ∧ 1 ≤ slug.length ∧ slug.length ≤ 200) ∧
    ∃ actor : User, authorize (s.context auth content c) .auth s.db = .ok actor ∧ actor.id = userId

/-- There is a call of the owner after which the bookmark is gone. -/
def Removable (s : Service) (b : Bookmark) : Prop :=
  ∃ c, TogglesAs auth content s b.userId c ∧
    ∃ s', serve auth content s (.call c) = some s' ∧ b ∉ s'.db.bookmarks.rows

variable {auth content} {s s' s₀ : Service} {e : Event} {b : Bookmark}

/-! ## Slugs stay valid -/

theorem slugsValid_step (hslugs : LowersSlugs content) (h : Step auth content s s' e)
    (hvalid : SlugsValid s.db.articles) : SlugsValid s'.db.articles := by
  cases h with
  | quiet e hdb hsequence hingested =>
    rw [hdb]
    exact hvalid
  | carried c hsequence change hplan hflush hafter =>
    have hplanned := plan_planned hplan
    generalize c.request = request at hplanned
    cases hplanned with
    | user request write =>
      obtain ⟨-, -, hrest⟩ := flush_user hflush
      rw [hrest]
      exact hvalid
    | bookmark slug actor write hactor htoggle =>
      rw [(flush_bookmark hflush).2]
      exact hvalid
    | webUrl request write =>
      rw [(flush_webUrl hflush).2]
      exact hvalid
    | article post actor write hactor hprepare =>
      obtain ⟨heffect, -⟩ := flush_article hflush
      -- a slug that is stored went through the check of the payload
      obtain ⟨hload, hnames, -⟩ := prepare_identified hslugs hvalid hprepare
      exact effect_slugsValid hvalid hload hnames heffect

/-! ## One toggle -/

/-- A toggle that takes a bookmark away was asked with the slug of its article, which is
published. -/
theorem isPublic_of_removed {c : Call} {slug : Text} (hrequest : c.request = .toggleBookmark slug)
    (hserve : serve auth content s (.call c) = some s') (hb : b ∈ s.db.bookmarks.rows)
    (hgone : b ∉ s'.db.bookmarks.rows) : isPublic s.db b.articleId := by
  cases serve_step hserve with
  | quiet e hdb hsequence hingested =>
    rw [hdb] at hgone
    exact absurd hb hgone
  | carried c hsequence change hplan hflush hafter =>
    have hplanned := plan_planned hplan
    rw [hrequest] at hplanned
    cases hplanned with
    | user request write =>
      obtain ⟨-, -, hrest⟩ := flush_user hflush
      rw [hrest] at hgone
      exact absurd hb hgone
    | webUrl request write =>
      rw [(flush_webUrl hflush).2] at hgone
      exact absurd hb hgone
    | bookmark slug actor write hactor htoggle =>
      obtain ⟨hcommit, -⟩ := flush_bookmark hflush
      obtain ⟨article, hmem, hpub, rfl⟩ := toggleBookmark_ok htoggle
      cases hwrite : toggle s.db.bookmarks actor.id article.id with
      | insert u i =>
        rw [hwrite] at hcommit
        rw [(commit_insert hcommit).1] at hgone
        exact absurd (List.mem_append_left _ hb) hgone
      | delete existing =>
        rw [hwrite] at hcommit
        obtain ⟨hexisting, -, harticle⟩ := toggle_delete hwrite
        -- The row that went is the one the toggle found, by user and article.
        have hid : b.id = existing.id := by
          by_contra hne
          rw [← Except.ok.inj hcommit] at hgone
          exact hgone (List.mem_filter.mpr ⟨hb, decide_eq_true hne⟩)
        obtain rfl := eq_of_uniqueCol s.db.bookmarks.uniqueId hb hexisting
          (Bookmark.idCol_eq_some.mpr hid) (Bookmark.idCol_eq_some.mpr rfl)
        exact ⟨article, hmem, harticle.symm, hpub⟩

/-- With no faults ahead, a toggle on a published article its caller has bookmarked
takes the bookmark away. -/
theorem toggleBookmark_removes {ctx : Context} {d : Database} {actor : User} {a : Article}
    (hactor : authorize ctx .auth d = .ok actor) (hb : b ∈ d.bookmarks.rows)
    (howner : actor.id = b.userId) (ha : a ∈ d.articles.rows) (hid : a.id = b.articleId)
    (hpub : a.articleStatus = .published) :
    (serveWrite ctx d [] (.toggleBookmark a.slug)).2.stored.bookmarks =
      d.bookmarks.delete b.id := by
  have hstorable : Storable a.slug :=
    (d.articles.fits a ha).2.2.2.2 a.slug (by simp [ArticleOf.texts])
  have hfound : (findPublishedBySlug d.articles a.slug).mapError Failure.raised =
      .ok (some a) := by
    rw [findPublishedBySlug_eq hstorable, lookup_of_mem (published_uniqueSlug d.articles)
      (mem_published.mpr ⟨ha, hpub⟩) rfl]
    rfl
  -- and the reader has it bookmarked, so the toggle is a deletion
  have htoggle : toggle d.bookmarks actor.id a.id = .delete b := by
    have hpair : Bookmark.pairCol b = some (actor.id, a.id) :=
      Bookmark.pairCol_eq_some.mpr ⟨howner.symm, hid.symm⟩
    rw [toggle, lookup_of_mem d.bookmarks.uniquePair hb hpair]
  have hrun : (serveWrite ctx d [] (.toggleBookmark a.slug)) =
      ((do stage (.bookmark (.delete b))
           commit (flush ctx.clock ctx.nextId)
           pure (.bookmark a.slug false)) : Handler Answer).run (.begin d []) := by
    show (Site.toggleBookmark ctx a.slug).run (.begin d []) = _
    unfold Site.toggleBookmark authed
    rw [run_read_free (s := .begin d []) rfl hactor, run_read_free (s := .begin d []) rfl hfound]
    dsimp only
    rw [run_read_free (s := .begin d []) (a := toggle d.bookmarks actor.id a.id) rfl rfl, htoggle]
    rfl
  rw [hrun]
  rfl

/-! ## Which bookmarks can be taken back -/

theorem mem_of_listed (h : Listed auth content s b) : b ∈ s.db.bookmarks.rows := by
  obtain ⟨c, actor, page, perPage, hactor, howner, hshown⟩ := h
  obtain ⟨row, hrow, rfl⟩ := List.mem_map.mp hshown
  obtain ⟨b, hb, rfl⟩ := List.mem_map.mp (List.mem_of_mem_drop (List.mem_of_mem_take hrow))
  exact (List.mem_filter.mp (mem_orderBy.mp hb)).1

/-- **A bookmark can be taken back as long as its article is published.** In every state
that a run leaves, a reader who sees a bookmark in their list can remove it by a toggle
exactly if its article is still there and published. -/
theorem removable_iff {events : List Event} (hslugs : LowersSlugs content)
    (hstart : SlugsValid s₀.db.articles)
    (hrun : exec (serve auth content) s₀ events = some s) (hlisted : Listed auth content s b) :
    Removable auth content s b ↔ isPublic s.db b.articleId := by
  have hb := mem_of_listed hlisted
  constructor
  · rintro ⟨c, ⟨⟨slug, hrequest, -⟩, -⟩, s', hserve, hgone⟩
    exact isPublic_of_removed hrequest hserve hb hgone
  · rintro ⟨a, ha, hid, hpub⟩
    have hvalid : SlugsValid s.db.articles :=
      exec_inv_of_step (fun _ _ _ hvalid hstep => slugsValid_step hslugs (serve_step hstep) hvalid)
        hstart hrun
    obtain ⟨hpositive, hbound, -⟩ := hvalid a ha
    obtain ⟨c, actor, page, perPage, hactor, howner, -⟩ := hlisted
    -- The call that showed the list, asking for the toggle instead.
    let call : Call := { c with request := .toggleBookmark a.slug, faults := [] }
    have hserve : serve auth content s (.call call) = some (s.after call
        (serveWrite (s.context auth content call) s.db [] call.request).2.stored) := by
      unfold serve
      exact if_neg fun h => Bool.noConfusion h.1
    refine ⟨call, ⟨⟨a.slug, rfl, hpositive, hbound⟩, actor, hactor, howner⟩, _, hserve,
      fun hkept => ?_⟩
    have hstored : b ∈ (serveWrite (s.context auth content c) s.db []
        (.toggleBookmark a.slug)).2.stored.bookmarks.rows := hkept
    rw [toggleBookmark_removes hactor hb howner ha hid hpub] at hstored
    exact of_decide_eq_true (List.mem_filter.mp hstored).2 rfl

/-- The reader who holds the key. -/
def keyReader : Call := ⟨⟨some drawA.token.secret, none, none⟩, .logout, drawA, 0, []⟩

/-- Their first page shows a bookmark, whose article is public or not. -/
def showsBookmark (s : Service) (wanted : Bool) : Bool :=
  okAnd (authorize (s.context Auth.sampleEnv Content.sampleEnv keyReader) .auth s.db) fun actor =>
    decide (∃ b ∈ (listByUser s.db.bookmarks s.db.articles actor.id
      (publicPageParams none none)).1.map Prod.fst,
      actor.id = b.userId ∧ decide (isPublic s.db b.articleId) = wanted)

/-- What the test of the example finds on the list is there. -/
theorem listed_of_shows {wanted : Bool} (h : showsBookmark s wanted = true) :
    ∃ b, Listed Auth.sampleEnv Content.sampleEnv s b ∧
      decide (isPublic s.db b.articleId) = wanted := by
  obtain ⟨actor, hactor, hshown⟩ := exists_of_okAnd h
  obtain ⟨b, hb, howner, hwanted⟩ := of_decide_eq_true hshown
  exact ⟨b, ⟨keyReader, actor, none, none, hactor, howner, hb⟩, hwanted⟩

/-- A bookmark of a published article. -/
theorem published_removable :
    ∃ s b, exec (serve Auth.sampleEnv Content.sampleEnv) adminInstallation publishAndBookmark =
        some s ∧
      Listed Auth.sampleEnv Content.sampleEnv s b ∧
      Removable Auth.sampleEnv Content.sampleEnv s b := by
  have hrun : (exec (serve Auth.sampleEnv Content.sampleEnv) adminInstallation
      publishAndBookmark).map (showsBookmark · true) = some true := by
    decide +kernel
  obtain ⟨s, hs, hshown⟩ := exec_of_test hrun
  obtain ⟨b, hlisted, hpub⟩ := listed_of_shows hshown
  have hslugs : LowersSlugs Content.sampleEnv := plainEnv_lowers
  have hstart : SlugsValid adminInstallation.db.articles := fun _ ha => absurd ha List.not_mem_nil
  exact ⟨s, b, hs, hlisted, (removable_iff hslugs hstart hs hlisted).mpr (of_decide_eq_true hpub)⟩

/-- Once its article is archived, the bookmark stays. -/
theorem archived_not_removable :
    ∃ s b, exec (serve Auth.sampleEnv Content.sampleEnv) adminInstallation
        (publishAndBookmark ++
          [keyCall (.post (.updatePostStatus "result".toList .archived)) 0]) = some s ∧
      Listed Auth.sampleEnv Content.sampleEnv s b ∧
      ¬ Removable Auth.sampleEnv Content.sampleEnv s b := by
  have hrun : (exec (serve Auth.sampleEnv Content.sampleEnv) adminInstallation
      (publishAndBookmark ++
        [keyCall (.post (.updatePostStatus "result".toList .archived)) 0])).map
      (showsBookmark · false) = some true := by
    decide +kernel
  obtain ⟨s, hs, hshown⟩ := exec_of_test hrun
  obtain ⟨b, hlisted, hpub⟩ := listed_of_shows hshown
  refine ⟨s, b, hs, hlisted, ?_⟩
  rintro ⟨c, ⟨⟨slug, hrequest, -⟩, -⟩, s', hserve, hgone⟩
  exact of_decide_eq_false hpub
    (isPublic_of_removed hrequest hserve (mem_of_listed hlisted) hgone)

end SarkariWorld.Site
