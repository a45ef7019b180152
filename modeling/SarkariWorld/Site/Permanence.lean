import SarkariWorld.Lib.Identity
import SarkariWorld.Site.Interleavings

/-!
# What never changes

However requests overlap, a row is known by its number for good. An account keeps its
address and is never removed; an article keeps the time of its creation; a bookmark
does not change at all; a web URL keeps everything but the times it was viewed and
updated. Numbers come from sequences that do not go back, so a row that is removed is
not replaced by another of its number.

What each table keeps for good is a function of its rows, the core: the address, the
creation time, the row itself, the URL and its parts. `Stems` says of one commit that
every row after it has its number and its core from a row before it, or has the number
that was just drawn. The four tables have one lemma each, and a run adds that later
numbers are larger (`Below`), so that no number is met twice.
-/

namespace SarkariWorld.Site.Threads

open SarkariWorld.Lib SarkariWorld.Auth SarkariWorld.Content

/-- The columns of a web URL that no request writes. -/
def urlCore (w : WebUrl) : Text × Text × Text × Int := (w.url, w.domain, w.title, w.createdAt)

/-- What has become of the rows of `d`: which they were is not in doubt. -/
structure Permanent (d d' : Database) : Prop where
  accounts : ∀ u ∈ d.users.rows, ∃ u' ∈ d'.users.rows, u'.id = u.id ∧ u'.email = u.email
  articles : ∀ a ∈ d.articles.rows, ∀ a' ∈ d'.articles.rows, a'.id = a.id →
    a'.createdAt = a.createdAt
  bookmarks : ∀ b ∈ d.bookmarks.rows, ∀ b' ∈ d'.bookmarks.rows, b'.id = b.id → b' = b
  webUrls : ∀ w ∈ d.webUrls.rows, ∀ w' ∈ d'.webUrls.rows, w'.id = w.id → urlCore w' = urlCore w

/-- The sequences are past every row. -/
structure Below (d : Database) (next : Sequence → Int) : Prop where
  users : ∀ u ∈ d.users.rows, u.id < next .user
  articles : ∀ a ∈ d.articles.rows, a.id < next .article
  bookmarks : ∀ b ∈ d.bookmarks.rows, b.id < next .bookmark
  webUrls : ∀ w ∈ d.webUrls.rows, w.id < next .webUrl

/-! ## One commit -/

/-- The assigned copy leaves alone what never changes. -/
def Faithful : Change → Prop
  | .user (.update loaded row) => row.email = loaded.email
  | .article (.update loaded assigned) => assigned.createdAt = loaded.createdAt
  | _ => True

/-- No licensed change touches the core of a row: the assigned copy agrees with the loaded one
there. -/
theorem Licence.faithful {o : Origin} {seen : Moments} {request : WriteRequest} {change : Change}
    (h : Licence o seen request change) : Faithful change := by
  cases h with
  | editArticle post actor a assigned hactor hedits ha hcreated => exact hcreated
  | issueApiKey userId name actor user row secret clock hactor huser hid hissue =>
    obtain ⟨-, -, rfl⟩ := issue_ok hissue
    rfl
  | updateRole userId role actor user hactor huser hid hother => rfl
  | revokeApiKey userId actor user clock hactor huser hid => rfl
  | knownAccount profile clock user huser hemail => rfl
  | logout actor clock hactor hstored => rfl
  | _ => trivial

/-- The number a commit may give to a row of one of the tables. -/
def drawn (change : Change) (number : Int) (k : Sequence) (i : Int) : Prop :=
  sequenceOf change = some k ∧ i = number

/-- What one commit does to the rows of all tables. -/
structure StemsFrom (change : Change) (number : Int) (d d' : Database) : Prop where
  users : Stems User.id User.email (drawn change number .user) d.users.rows d'.users.rows
  accounts : ∀ u ∈ d.users.rows, ∃ u' ∈ d'.users.rows, u'.id = u.id ∧ u'.email = u.email
  articles : Stems ArticleOf.id ArticleOf.createdAt (drawn change number .article)
    d.articles.rows d'.articles.rows
  bookmarks : Stems Bookmark.id id (drawn change number .bookmark) d.bookmarks.rows
    d'.bookmarks.rows
  webUrls : Stems WebUrl.id urlCore (drawn change number .webUrl) d.webUrls.rows d'.webUrls.rows

section Commit

variable {clock : Nat} {number : Int} {d d' : Database} {change : Change}

theorem accounts_refl (d : Database) :
    ∀ u ∈ d.users.rows, ∃ u' ∈ d.users.rows, u'.id = u.id ∧ u'.email = u.email :=
  fun u hu => ⟨u, hu, rfl, rfl⟩

/-- A commit to the accounts; and no account is lost in it. -/
theorem commitWrite_stems {write : Auth.Write} {t t' : UserTable} {written : Option Int}
    (hfaithful : Faithful (.user write)) (h : commitWrite t write number = .ok (t', written)) :
    Stems User.id User.email (drawn (.user write) number .user) t.rows t'.rows ∧
      ∀ u ∈ t.rows, ∃ u' ∈ t'.rows, u'.id = u.id ∧ u'.email = u.email := by
  cases write with
  | nothing =>
    obtain ⟨rfl, -⟩ := Prod.mk.inj (Except.ok.inj h)
    exact ⟨stems_refl _, fun u hu => ⟨u, hu, rfl, rfl⟩⟩
  | insert row =>
    obtain ⟨hrows, -⟩ := commitRow_insert (commitWrite_insert.mp h).1
    rw [hrows]
    exact ⟨stems_append ⟨rfl, rfl⟩, fun u hu => ⟨u, List.mem_append_left _ hu, rfl, rfl⟩⟩
  | update loaded row =>
    have hflushed : ∀ u : User, (User.flush loaded row u).email = u.email := by
      intro u
      show flushCol loaded.email row.email u.email = u.email
      rw [hfaithful, flushCol_clean]
    rw [commitRow_update (commitWrite_update.mp h).1]
    refine ⟨stems_updateWhere fun u _ => ⟨rfl, hflushed u⟩, fun u hu => ?_⟩
    by_cases hid : User.idCol u = some loaded.id
    · exact ⟨_, mem_updateWhere_of_eq hu hid, rfl, hflushed u⟩
    · exact ⟨u, mem_updateWhere_of_ne hu hid, rfl, rfl⟩

theorem effect_stems {write : ArticleWrite} {t t' : ArticleTable}
    (hfaithful : Faithful (.article write)) (h : Effect t t' clock number write) :
    Stems ArticleOf.id ArticleOf.createdAt (drawn (.article write) number .article) t.rows
      t'.rows := by
  cases h with
  | insert data row hrow hrows =>
    rw [hrows]
    exact stems_append ⟨rfl, newRow_id hrow⟩
  | same loaded hrows =>
    rw [hrows]
    exact stems_refl _
  | update loaded assigned encoded hencoded hrows =>
    rw [hrows]
    refine stems_updateWhere fun a _ => ⟨rfl, ?_⟩
    show flushColWith timestamp3 loaded.createdAt assigned.createdAt a.createdAt = a.createdAt
    rw [hfaithful, flushColWith_clean]
  | delete loaded hrows =>
    rw [hrows]
    exact stems_filter _

/-- A commit to the bookmarks, which are inserted and deleted but not changed. -/
theorem commitBookmark_stems {write : BookmarkWrite} {t t' : BookmarkTable}
    (h : commitBookmark t clock number write = .ok t') :
    Stems Bookmark.id id (drawn (.bookmark write) number .bookmark) t.rows t'.rows := by
  cases write with
  | delete existing =>
    rw [← Except.ok.inj h]
    exact stems_filter _
  | insert userId articleId =>
    rw [(commit_insert h).1]
    exact stems_append ⟨rfl, rfl⟩

/-- A commit to the web URLs. A view writes its time and nothing of the core. -/
theorem commitWebUrl_stems {write : WebUrlWrite} {t t' : WebUrlTable} {row : Option WebUrl}
    (h : commitWebUrl t clock number write = .ok (t', row)) :
    Stems WebUrl.id urlCore (drawn (.webUrl write) number .webUrl) t.rows t'.rows := by
  cases write with
  | insert url domain title =>
    obtain ⟨t₁, hwrite, hend⟩ := bind_eq_ok.mp h
    obtain ⟨rfl, -⟩ := Prod.mk.inj (Except.ok.inj hend)
    rw [WebUrlTable.write_ok hwrite]
    exact stems_append ⟨rfl, rfl⟩
  | view loaded stamped =>
    simp only [commitWebUrl] at h
    split at h
    next => cases h
    next =>
      split at h
      next =>
        obtain ⟨rfl, -⟩ := Prod.mk.inj (Except.ok.inj h)
        exact stems_refl _
      next =>
        obtain ⟨t₁, hwrite, hend⟩ := bind_eq_ok.mp h
        obtain ⟨rfl, -⟩ := Prod.mk.inj (Except.ok.inj hend)
        rw [WebUrlTable.write_ok hwrite]
        exact stems_updateWhere fun w _ => ⟨rfl, rfl⟩
  | viewAll stamped =>
    obtain ⟨t₁, hwrite, hend⟩ := bind_eq_ok.mp h
    obtain ⟨rfl, -⟩ := Prod.mk.inj (Except.ok.inj hend)
    rw [WebUrlTable.write_ok hwrite]
    exact stems_map fun w _ => ⟨rfl, rfl⟩
  | delete loaded =>
    obtain ⟨t₁, hwrite, hend⟩ := bind_eq_ok.mp h
    obtain ⟨rfl, -⟩ := Prod.mk.inj (Except.ok.inj hend)
    rw [WebUrlTable.write_ok hwrite]
    exact stems_filter _

/-- **What a commit does to the rows.** -/
theorem flush_stems (hfaithful : Faithful change) (h : flush clock number d change = .ok d') :
    StemsFrom change number d d' := by
  cases change with
  | user write =>
    obtain ⟨written, hcommit, hrest⟩ := flush_user h
    -- the committed table answers for itself, and the other three are the same lists
    obtain ⟨husers, haccounts⟩ := commitWrite_stems hfaithful hcommit
    refine ⟨husers, haccounts, ?_, ?_, ?_⟩
    all_goals
      rw [hrest]
      exact stems_refl _
  | article write =>
    obtain ⟨heffect, hrest⟩ := flush_article h
    refine ⟨?_, ?_, effect_stems hfaithful heffect, ?_, ?_⟩
    · rw [hrest]
      exact stems_refl _
    · rw [hrest]
      exact accounts_refl d
    · rw [hrest]
      exact stems_refl _
    · rw [hrest]
      exact stems_refl _
  | bookmark write =>
    obtain ⟨hcommit, hrest⟩ := flush_bookmark h
    refine ⟨?_, ?_, ?_, commitBookmark_stems hcommit, ?_⟩
    · rw [hrest]
      exact stems_refl _
    · rw [hrest]
      exact accounts_refl d
    · rw [hrest]
      exact stems_refl _
    · rw [hrest]
      exact stems_refl _
  | webUrl write =>
    obtain ⟨hcase, hrest⟩ := flush_webUrl h
    refine ⟨?_, ?_, ?_, ?_, ?_⟩
    · rw [hrest]
      exact stems_refl _
    · rw [hrest]
      exact accounts_refl d
    · rw [hrest]
      exact stems_refl _
    · rw [hrest]
      exact stems_refl _
    · rcases hcase with ⟨-, hsame⟩ | ⟨row, hcommit⟩
      · rw [hsame]
        exact stems_refl _
      · exact commitWebUrl_stems hcommit

end Commit

/-! ## Runs -/

/-- What a run has done to the rows there were when it was in the state `m`. -/
structure Follows (m s : Traffic) : Prop where
  next : ∀ k, m.next k ≤ s.next k
  users : Descends User.id User.email (m.next .user) m.stored.users.rows s.stored.users.rows
  accounts : ∀ u ∈ m.stored.users.rows, ∃ u' ∈ s.stored.users.rows,
    u'.id = u.id ∧ u'.email = u.email
  articles : Descends ArticleOf.id ArticleOf.createdAt (m.next .article) m.stored.articles.rows
    s.stored.articles.rows
  bookmarks : Descends Bookmark.id id (m.next .bookmark) m.stored.bookmarks.rows
    s.stored.bookmarks.rows
  webUrls : Descends WebUrl.id urlCore (m.next .webUrl) m.stored.webUrls.rows
    s.stored.webUrls.rows

theorem Follows.refl (s : Traffic) : Follows s s where
  next _ := Int.le_refl _
  users := descends_refl _ _
  accounts := accounts_refl s.stored
  articles := descends_refl _ _
  bookmarks := descends_refl _ _
  webUrls := descends_refl _ _

section Runs

variable {auth : Auth.Env} {content : Content.Env} {s₀ s s' m : Traffic} {moves : List SiteMove}
  {action : SiteMove}

/-- The numbers a commit draws are new. -/
theorem drawn_bounds {change : Change} {number : Int} {next : Sequence → Int} {k : Sequence}
    {i : Int} (hnumbers : store.numbers next change number = true) (h : drawn change number k i) :
    next k ≤ i ∧ i < store.advance next change number k := by
  rw [h.2]
  exact (advance_spec hnumbers k).2 h.1

/-- The sequences stay ahead of the rows: a number that is given to a row moves its sequence past
it. -/
theorem below_moved (h₀ : s₀.Fresh) (h : exec (siteMove auth content) s₀ moves = some s)
    (hmove : siteMove auth content s action = some s') (hbelow : Below s.stored s.next) :
    Below s'.stored s'.next := by
  rcases site_moved h₀ h hmove with ⟨hstored, hnext⟩ | ⟨r, number, asked, change, seen, -, -, -,
    hlicence, hnumbers, hflush, hnext⟩
  · rw [hstored, hnext]
    exact hbelow
  · have hstems := flush_stems hlicence.faithful hflush
    rw [hnext]
    exact ⟨hstems.users.below hbelow.users (advance_spec hnumbers .user).1
        fun i hi => (drawn_bounds hnumbers hi).2,
      hstems.articles.below hbelow.articles (advance_spec hnumbers .article).1
        fun i hi => (drawn_bounds hnumbers hi).2,
      hstems.bookmarks.below hbelow.bookmarks (advance_spec hnumbers .bookmark).1
        fun i hi => (drawn_bounds hnumbers hi).2,
      hstems.webUrls.below hbelow.webUrls (advance_spec hnumbers .webUrl).1
        fun i hi => (drawn_bounds hnumbers hi).2⟩

/-- A state that came after `m` is followed by another that does. -/
theorem follows_moved (h₀ : s₀.Fresh) (h : exec (siteMove auth content) s₀ moves = some s)
    (hmove : siteMove auth content s action = some s') (hfollows : Follows m s) :
    Follows m s' := by
  rcases site_moved h₀ h hmove with ⟨hstored, hnext⟩ | ⟨r, number, asked, change, seen, -, -, -,
    hlicence, hnumbers, hflush, hnext⟩
  · obtain ⟨hnext', husers, haccounts, harticles, hbookmarks, hwebUrls⟩ := hfollows
    rw [← hstored] at husers haccounts harticles hbookmarks hwebUrls
    exact ⟨fun k => hnext ▸ hnext' k, husers, haccounts, harticles, hbookmarks, hwebUrls⟩
  · have hstems := flush_stems hlicence.faithful hflush
    have hlow : ∀ k i, drawn change number k i → m.next k ≤ i := fun k i hi =>
      Int.le_trans (hfollows.next k) (drawn_bounds hnumbers hi).1
    refine ⟨fun k => ?_, hfollows.users.stems hstems.users (hlow .user), fun u hu => ?_,
      hfollows.articles.stems hstems.articles (hlow .article),
      hfollows.bookmarks.stems hstems.bookmarks (hlow .bookmark),
      hfollows.webUrls.stems hstems.webUrls (hlow .webUrl)⟩
    · rw [hnext]
      exact Int.le_trans (hfollows.next k) (advance_spec hnumbers k).1
    · obtain ⟨v, hv, hid, hemail⟩ := hfollows.accounts u hu
      obtain ⟨w, hw, hid', hemail'⟩ := hstems.accounts v hv
      exact ⟨w, hw, hid'.trans hid, hemail'.trans hemail⟩

/-- Every moment of a run is followed by its end. -/
theorem exec_follows (h₀ : s₀.Fresh) (hbelow : Below s₀.stored s₀.next)
    (h : exec (siteMove auth content) s₀ moves = some s) :
    ∀ m, PassedThrough store (program auth content) s₀ moves m →
      Below m.stored m.next ∧ Follows m s := by
  refine exec_since (R := fun m s => Below m.stored m.next ∧ Follows m s) ?_
    ⟨hbelow, Follows.refl s₀⟩ h
  intro moves s action s' hrun hpast hmove
  have hbelow' := below_moved h₀ hrun hmove (hpast s (passedThrough_end hrun)).1
  exact ⟨⟨hbelow', Follows.refl s'⟩, fun m hm =>
    ⟨(hpast m hm).1, follows_moved h₀ hrun hmove (hpast m hm).2⟩⟩

/-- Whatever a later state has under an old number is the old row, as far as its core goes. -/
theorem Follows.permanent (h : Follows m s) (hm : Below m.stored m.next) :
    Permanent m.stored s.stored where
  accounts := h.accounts
  articles a ha _ ha' hid :=
    h.articles.same_core m.stored.articles.uniqueId ha (hm.articles a ha) ha' hid
  bookmarks b hb _ hb' hid :=
    h.bookmarks.same_core m.stored.bookmarks.uniqueId hb (hm.bookmarks b hb) hb' hid
  webUrls w hw _ hw' hid :=
    h.webUrls.same_core m.stored.webUrls.uniqueId hw (hm.webUrls w hw) hw' hid

/-- **Rows are permanent**: however requests overlap, whatever was stored at any moment
of a run is still what its number stands for at the end, unless it was removed, and an
account is not removed. -/
theorem rows_permanent (h₀ : s₀.Fresh) (hbelow : Below s₀.stored s₀.next)
    (h : exec (siteMove auth content) s₀ moves = some s) :
    ∀ m, PassedThrough store (program auth content) s₀ moves m → Permanent m.stored s.stored :=
  fun m hm =>
    have ⟨hm, hfollows⟩ := exec_follows h₀ hbelow h m hm
    hfollows.permanent hm

end Runs

/-- The sequences of the example stand at 2, past its one account. -/
theorem quietSite_below : Below quietSite.stored quietSite.next := by
  refine ⟨fun u hu => ?_, fun a ha => ?_, fun b hb => ?_, fun w hw => ?_⟩
  · obtain rfl := List.mem_singleton.mp hu
    decide
  · cases ha
  · cases hb
  · cases hw

/-- The account whose key is revoked is still the same account. -/
theorem revoked_account_permanent :
    ∃ s, exec (siteMove Auth.sampleEnv Content.sampleEnv) quietSite revokedMeanwhile = some s ∧
      Permanent quietSite.stored s.stored := by
  have hrun : (exec (siteMove Auth.sampleEnv Content.sampleEnv) quietSite revokedMeanwhile).map
      (fun _ => true) = some true := by
    decide +kernel
  obtain ⟨s, hs, -⟩ := exec_of_test hrun
  exact ⟨s, hs, rows_permanent quietSite_fresh quietSite_below hs quietSite
    ⟨[], revokedMeanwhile, rfl, rfl⟩⟩

end SarkariWorld.Site.Threads
