import SarkariWorld.Content.StorageSafe

/-!
# Titles and slugs

What identifies an article for its readers: a title they can see and a slug of its own. The
slug is safe, since every body that brings one brings a valid one and it is stored as it
is sent. The title is not: `min_length=1` is checked before `build_article_data` strips
it, and an update may send it empty or null. `identity_kept` says that this is all that
goes wrong.

An update writes the title it is sent, stripped; a creation has a title of its own or
"Untitled". So the invariant is about the requests (`TitledEvent`) as much as about the
table, and the exact condition on one write is `Titles`. For the slug there is no such
condition: `ValidSlug` is a field of every body.

A title of blanks passes `min_length=1`, and what is stored of it is what is left once it
has been stripped, which is nothing. That is so in all three bodies, and an update may
moreover send a title that is null.
-/

namespace SarkariWorld.Content

open SarkariWorld.Lib

/-- The text has a character that is not white space. -/
def HasText (t : Text) : Prop := ∃ c ∈ t, isSpace c = false

/-- There is something to see in a title if a character of it is no white space. -/
theorem hasText_iff {t : Text} : (t.any fun c => !isSpace c) = true ↔ HasText t := by
  simp only [List.any_eq_true, Bool.not_eq_true', HasText]

instance (t : Text) : Decidable (HasText t) := decidable_of_iff _ hasText_iff

/-- A title that can be seen and fits its limit. -/
def GoodTitle (t : Text) : Prop := HasText t ∧ t.length ≤ titleMax

instance (t : Text) : Decidable (GoodTitle t) := inferInstanceAs (Decidable (_ ∧ _))

/-- Every stored slug has the form the schema asks for. -/
def SlugsValid (t : ArticleTable) : Prop := ∀ a ∈ t.rows, ValidSlug a.slug

/-- Every article has a title that can be seen and fits, a valid slug, and no article has
the slug of another one. -/
structure WellIdentified (t : ArticleTable) : Prop where
  title : ∀ a ∈ t.rows, GoodTitle a.title
  slug : SlugsValid t
  distinct : ∀ a ∈ t.rows, ∀ b ∈ t.rows, a.slug = b.slug → a = b

/-- A title that is sent has text; null has none. -/
def TitleSent : Field Text → Prop
  | .omitted => True
  | .null => False
  | .value t => HasText t

instance : (title : Field Text) → Decidable (TitleSent title)
  | .omitted => .isTrue trivial
  | .null => .isFalse id
  | .value t => inferInstanceAs (Decidable (HasText t))

/-- The request does not send a blank title. -/
def Titled : PostRequest → Prop
  | .createPost payload => TitleSent payload.title
  | .updatePost _ payload => TitleSent payload.title
  | .updatePostStatus _ _ => True
  | .deletePost _ => True
  | .publishArticle payload => TitleSent payload.title

/-- The event brings no title without a visible character. -/
def TitledEvent : PostEvent → Prop
  | .call c => Titled c.request
  | .tick _ => True

instance : (request : PostRequest) → Decidable (Titled request)
  | .createPost payload | .updatePost _ payload | .publishArticle payload =>
    inferInstanceAs (Decidable (TitleSent payload.title))
  | .updatePostStatus _ _ | .deletePost _ => .isTrue trivial

instance : (e : PostEvent) → Decidable (TitledEvent e)
  | .call c => inferInstanceAs (Decidable (Titled c.request))
  | .tick _ => .isTrue trivial

variable {env : Env} {t t' : ArticleTable} {clock : Nat} {actor : Author} {nextId : Int}
  {answer : Option Article} {payload : Payload}

theorem hasText_strip {t : Text} : HasText (strip t) ↔ HasText t := by
  refine exists_congr fun c => and_congr_left fun hc => ?_
  exact mem_strip hc

/-! ## What a write brings -/

/-- The write leaves a good title. -/
def ArticleWrite.Titles : ArticleWrite → Prop
  | .insert data => GoodTitle (data.title.getD "Untitled".toList)
  | .update _ assigned => GoodTitle assigned.title
  | .delete _ => True

/-- The write leaves a valid slug. -/
def ArticleWrite.Names : ArticleWrite → Prop
  | .insert data => ∃ slug ∈ data.slug, ValidSlug slug
  | .update _ assigned => ValidSlug assigned.slug
  | .delete _ => True

/-- The trimmed title is good exactly if it was sent with text. -/
theorem goodTitle_strip {title : Text} (hshort : title.length ≤ titleMax) :
    GoodTitle (strip title) ↔ HasText title := by
  rw [GoodTitle, hasText_strip]
  exact and_iff_left (Nat.le_trans (strip_length_le title) hshort)

/-- The title of the data, over the one there is. -/
theorem assignedTitle_iff (env : Env) (haccepted : payload.Accepted) {stored : Text}
    (hstored : GoodTitle stored) (author : Option Author) (markdown : Option Text) :
    GoodTitle ((buildArticleData env payload author markdown).title.getD stored) ↔
      TitleSent payload.title := by
  show GoodTitle ((payload.title.sent.map fun v => strip (v.getD [])).getD stored) ↔ _
  cases htitle : payload.title with
  | omitted => exact iff_of_true hstored trivial
  | null => exact iff_of_false (fun h => nomatch h.1) id
  | value title =>
    have hsent : title ∈ payload.title.get := by
      rw [htitle]
      exact Option.mem_some_self title
    exact goodTitle_strip (haccepted.1 title hsent)

theorem goodTitle_untitled : GoodTitle "Untitled".toList := by decide

/-- The slug of the data is one that was sent, as it was sent. -/
theorem buildArticleData_names (henv : LowersSlugs env) (payload : Payload)
    (hvalid : payload.slug.All ValidSlug) (author : Option Author) (markdown : Option Text) :
    (buildArticleData env payload author markdown).slug = payload.slug.get := by
  cases hslug : payload.slug.get with
  | none => exact buildArticleData_no_slug author markdown hslug
  | some slug =>
    have hslugValid := hvalid slug hslug
    rw [buildArticleData_slug author markdown hslug hslugValid, lower_strip_slug henv hslugValid]

theorem stamp_title {data : ArticleData} {p : Prop} [Decidable p] :
    (if p then data.stamp clock else data).title = data.title := by
  split
  next => rfl
  next => rfl

theorem stampUpdated_names {article assigned : ArticleObject} {now : Int} :
    (stampUpdated article assigned now).Names ↔ ValidSlug assigned.slug := by
  unfold stampUpdated
  split
  next => exact Iff.rfl
  next => exact Iff.rfl

theorem stampUpdated_titles {article assigned : ArticleObject} {now : Int} :
    (stampUpdated article assigned now).Titles ↔ GoodTitle assigned.title := by
  unfold stampUpdated
  split
  next => exact Iff.rfl
  next => exact Iff.rfl

theorem assignStatus_title {article : ArticleObject} {status : ArticleStatus} {now : Int} :
    (article.assignStatus status now).title = article.title := by
  unfold ArticleOf.assignStatus
  dsimp only
  split
  next => rfl
  next => rfl

/-- **What a request writes has a valid slug, and a good title if it was sent one.** -/
theorem prepare_identified {request : PostRequest} {write : ArticleWrite} (henv : LowersSlugs env)
    (hslugs : SlugsValid t) (h : prepare env t clock actor request = .ok write) :
    write.LoadedFrom t ∧ write.Names ∧
      ((∀ a ∈ t.rows, GoodTitle a.title) → (write.Titles ↔ Titled request)) := by
  cases request with
  | createPost payload =>
    obtain ⟨-, h⟩ := ite_error_eq_ok.mp h
    obtain rfl := Except.ok.inj h
    have hslug := buildArticleData_names henv payload.dump
      (by rintro slug ⟨⟩; exact payload.slug_valid) (some actor) none
    rw [ArticleWrite.Names, ArticleWrite.Titles, stamp_slug, stamp_title, hslug]
    exact ⟨trivial, ⟨payload.slug, rfl, payload.slug_valid⟩, fun _ =>
      assignedTitle_iff env payload.accepted goodTitle_untitled (some actor) none⟩
  | publishArticle payload =>
    obtain ⟨-, h⟩ := ite_error_eq_ok.mp h
    obtain ⟨-, h⟩ := ite_error_eq_ok.mp h
    obtain rfl := Except.ok.inj h
    have hslug := buildArticleData_names henv payload.dump
      (by rintro slug ⟨⟩; exact payload.slug_valid) (some actor)
      (some (payload.content.get.getD []))
    exact ⟨trivial, ⟨payload.slug, hslug, payload.slug_valid⟩, fun _ =>
      assignedTitle_iff env payload.accepted goodTitle_untitled (some actor)
        (some (payload.content.get.getD []))⟩
  | updatePost slug payload =>
    obtain ⟨a, hget, h⟩ := bind_eq_ok.mp h
    obtain ⟨hmem, -, -⟩ := getArticle_ok hget
    split at h
    next => cases h
    next =>
      obtain rfl := Except.ok.inj h
      have hassigned : ∀ data : ArticleData, (data.assign a.load).slug = data.slug.getD a.slug ∧
          (data.assign a.load).title = data.title.getD a.title := fun _ => ⟨rfl, rfl⟩
      have hslug := buildArticleData_names henv payload.dump payload.slug_valid
        (some actor) none
      rw [update, stampUpdated_names, stampUpdated_titles, (hassigned _).1, (hassigned _).2,
        stamp_slug, stamp_title, hslug]
      refine ⟨⟨a, hmem, rfl⟩, ?_, fun htitles =>
        assignedTitle_iff env payload.accepted (htitles a hmem) (some actor) none⟩
      -- A body without a slug leaves the row its own.
      cases hsent : payload.dump.slug.get with
      | none => exact hslugs a hmem
      | some s => exact payload.slug_valid s hsent
  | updatePostStatus slug status =>
    obtain ⟨a, hget, h⟩ := bind_eq_ok.mp h
    obtain ⟨hmem, -, -⟩ := getArticle_ok hget
    obtain rfl := Except.ok.inj h
    rw [setStatus, stampUpdated_names, stampUpdated_titles, assignStatus_slug, assignStatus_title]
    exact ⟨⟨a, hmem, rfl⟩, hslugs a hmem, fun htitles => iff_of_true (htitles a hmem) trivial⟩
  | deletePost slug =>
    obtain ⟨a, hget, h⟩ := bind_eq_ok.mp h
    obtain rfl := Except.ok.inj h
    exact ⟨⟨a, (getArticle_ok hget).1, rfl⟩, trivial, fun _ => Iff.rfl⟩

/-! ## What it leaves in the table -/

/-- The table keeps slugs apart. -/
theorem slugs_distinct (t : ArticleTable) :
    ∀ a ∈ t.rows, ∀ b ∈ t.rows, a.slug = b.slug → a = b := by
  intro a ha b hb he
  exact eq_of_uniqueCol t.uniqueSlug ha hb rfl (congrArg some he.symm)

/-- A new row has the title of the data, or the default. -/
theorem newRow_title {data : ArticleData} {row : Article} (h : newRow data nextId clock = .ok row) :
    row.title = data.title.getD "Untitled".toList := by
  obtain ⟨encoded, -, h⟩ := bind_eq_ok.mp h
  split at h
  next => cases h
  next => rw [← Except.ok.inj h]

/-- The row holds what the write brought. -/
def ArticleWrite.Written : ArticleWrite → Article → Prop
  | .insert data, row => row.title = data.title.getD "Untitled".toList ∧ data.slug = some row.slug
  | .update _ assigned, row => row.title = assigned.title ∧ row.slug = assigned.slug
  | .delete _, _ => False

/-- The row a write leaves has a good title exactly if the write brings one or keeps one. -/
theorem written_title {write : ArticleWrite} {row : Article} (h : write.Written row) :
    GoodTitle row.title ↔ write.Titles := by
  cases write with
  | insert data => rw [h.1, ArticleWrite.Titles]
  | update loaded assigned => rw [h.1, ArticleWrite.Titles]
  | delete loaded => cases h

/-- It has a valid slug, if the write brings none or a valid one. -/
theorem written_slug {write : ArticleWrite} {row : Article} (h : write.Written row)
    (hnames : write.Names) : ValidSlug row.slug := by
  cases write with
  | insert data =>
    obtain ⟨slug, hslug, hvalid⟩ := hnames
    obtain rfl := Option.some.inj (h.2.symm.trans hslug)
    exact hvalid
  | update loaded assigned =>
    rw [h.2]
    exact hnames
  | delete loaded => cases h

/-- A row after a write is one there was, or the one that was written. -/
theorem effect_rows {write : ArticleWrite} (hload : write.LoadedFrom t) (hnames : write.Names)
    (h : Effect t t' clock nextId write) : ∀ b ∈ t'.rows, b ∈ t.rows ∨ write.Written b := by
  intro b hb
  cases h with
  | insert data row hrow hrows =>
    obtain ⟨slug, hslug, -⟩ := hnames
    rw [hrows, List.mem_append, List.mem_singleton] at hb
    refine hb.imp_right ?_
    rintro rfl
    refine ⟨newRow_title hrow, ?_⟩
    rw [newRow_slug hslug hrow]
    exact hslug
  | same loaded hrows => exact .inl (hrows ▸ hb)
  | update loaded assigned encoded hencoded hrows =>
    obtain ⟨a, ha, rfl⟩ := hload
    rw [hrows] at hb
    obtain ⟨x, hx, rfl⟩ := mem_updateWhere.mp hb
    split
    next hid =>
      -- Ids are unique, so this is the row that was loaded.
      obtain rfl := eq_of_uniqueCol t.uniqueId hx ha hid (ArticleOf.idCol_eq_some.mpr rfl)
      exact .inr ⟨flushCol_self, flushCol_self⟩
    next => exact .inl hx
  | delete loaded hrows =>
    rw [hrows] at hb
    exact .inl (List.mem_filter.mp hb).1

/-- The row that was written is there, unless it was deleted. -/
theorem effect_written {write : ArticleWrite} (hload : write.LoadedFrom t) (hnames : write.Names)
    (h : Effect t t' clock nextId write) : write.Titles ∨ ∃ b ∈ t'.rows, write.Written b := by
  cases h with
  | insert data row hrow hrows =>
    obtain ⟨slug, hslug, -⟩ := hnames
    refine .inr ⟨row, ?_, newRow_title hrow, ?_⟩
    · rw [hrows]
      exact List.mem_append_right _ (List.mem_singleton_self row)
    · rw [newRow_slug hslug hrow]
      exact hslug
  | same loaded hrows =>
    obtain ⟨a, ha, rfl⟩ := hload
    exact .inr ⟨a, hrows ▸ ha, rfl, rfl⟩
  | update loaded assigned encoded hencoded hrows =>
    obtain ⟨a, ha, rfl⟩ := hload
    refine .inr ⟨flushArticle a.load assigned encoded a, ?_, flushCol_self, flushCol_self⟩
    rw [hrows]
    exact mem_updateWhere_of_eq ha (ArticleOf.idCol_eq_some.mpr rfl)
  | delete loaded hrows => exact .inl trivial

theorem effect_slugsValid {write : ArticleWrite} (hslugs : SlugsValid t)
    (hload : write.LoadedFrom t) (hnames : write.Names) (h : Effect t t' clock nextId write) :
    SlugsValid t' := by
  intro b hb
  obtain hold | hwritten := effect_rows hload hnames h b hb
  · exact hslugs b hold
  · exact written_slug hwritten hnames

/-- A request that is carried out keeps every article well identified exactly if it does
not send a blank title. -/
theorem perform_identified_iff {s : Posts} {c : PostCall} (henv : LowersSlugs env)
    (ht : WellIdentified s.articles) (h : perform env s c = .ok (t', answer)) :
    WellIdentified t' ↔ Titled c.request := by
  obtain ⟨write, hprepare, heffect⟩ := perform_effect h
  obtain ⟨hload, hnames, htitles⟩ := prepare_identified henv ht.slug hprepare
  rw [← htitles ht.title]
  constructor
  · intro ht'
    obtain hdone | ⟨b, hb, hwritten⟩ := effect_written hload hnames heffect
    · exact hdone
    · exact (written_title hwritten).mp (ht'.title b hb)
  · intro hgood
    refine ⟨fun b hb => ?_, effect_slugsValid ht.slug hload hnames heffect, slugs_distinct t'⟩
    obtain hold | hwritten := effect_rows hload hnames heffect b hb
    · exact ht.title b hold
    · exact (written_title hwritten).mpr hgood

/-! ## Runs -/

/-- Every event that brings a title brings a good one, so the table stays as it should be. -/
theorem identified_step {s s' : Posts} {e : PostEvent} (henv : LowersSlugs env)
    (htitled : TitledEvent e) (ht : WellIdentified s.articles) (h : serve env s e = some s') :
    WellIdentified s'.articles := by
  obtain hsame | ⟨c, answer, rfl, hperform, -⟩ := serve_cases h
  · rw [hsame]
    exact ht
  · exact (perform_identified_iff henv ht hperform).mpr htitled

/-- **Articles stay well identified**, in every run that sends no blank title. -/
theorem identity_kept {s s' : Posts} {events : List PostEvent} (henv : LowersSlugs env)
    (ht : WellIdentified s.articles)
    (hrun : AllSteps (serve env) (fun _ e => TitledEvent e) s events)
    (h : exec (serve env) s events = some s') : WellIdentified s'.articles :=
  exec_inv (I := fun s => WellIdentified s.articles)
    (fun _ _ _ htitled ht hstep => identified_step henv htitled ht hstep) hrun ht h

theorem noHtml_short : (Field.omitted : Field Text).All fun t => t.length ≤ htmlContentMax := by
  intro t h
  cases h

/-- The body of `POST /admin/posts`, for the slug `notice`, with a title that Pydantic
accepts. -/
def titledPayload (title : Text) (hsent : 1 ≤ title.length) (hshort : title.length ≤ titleMax) :
    ArticleCreate where
  toArticleBase := sampleBase (.value title) .omitted
  slug := "notice".toList
  htmlContent := .omitted
  articleStatus := .omitted
  accepted := ⟨by rintro t ⟨⟩; exact hshort, nofun, nofun, nofun⟩
  title_sent := ⟨title, rfl, hsent⟩
  slug_valid := by decide
  html_short := noHtml_short

theorem empty_identified : WellIdentified ArticleTable.empty :=
  ⟨List.forall_mem_nil _, List.forall_mem_nil _, List.forall_mem_nil _⟩

/-- Two articles, of which one is edited and published. -/
theorem two_articles_identified :
    ∃ s, exec (serve plainEnv) samplePosts
        [sampleCreate, .call ⟨sampleActor, .createPost
            (titledPayload " Notice ".toList (by decide) (by decide)), 8⟩, sampleClear .omitted,
          .call ⟨sampleActor, .updatePostStatus "notice".toList .published, 0⟩] = some s ∧
      s.articles.rows.map ArticleOf.title = ["Result".toList, "Notice".toList] ∧
      WellIdentified s.articles := by
  have hrun : (exec (serve plainEnv) samplePosts
      [sampleCreate, .call ⟨sampleActor, .createPost
          (titledPayload " Notice ".toList (by decide) (by decide)), 8⟩, sampleClear .omitted,
        .call ⟨sampleActor, .updatePostStatus "notice".toList .published, 0⟩]).map
      (fun s => decide (s.articles.rows.map ArticleOf.title = ["Result".toList, "Notice".toList]))
        = some true := by
    decide +kernel
  obtain ⟨s, hs, htitles⟩ := exec_of_test hrun
  exact ⟨s, hs, of_decide_eq_true htitles,
    identity_kept plainEnv_lowers empty_identified (allSteps_of_forall (by decide)) hs⟩

/-- Three blanks are a title of three characters to the schema, and none to the table. -/
theorem blank_title_stored : ¬ ∀ env, LowersSlugs env → ∀ s s' : Posts,
    WellIdentified s.articles → ∀ events, exec (serve env) s events = some s' →
      WellIdentified s'.articles := by
  intro hall
  have hrun : (exec (serve plainEnv) samplePosts [.call ⟨sampleActor, .createPost
      (titledPayload "   ".toList (by decide) (by decide)), 8⟩]).map
      (fun s => decide (s.articles.rows.map ArticleOf.title = [[]])) = some true := by
    decide +kernel
  obtain ⟨s, hs, htitles⟩ := exec_of_test hrun
  have hblank : [] ∈ s.articles.rows.map ArticleOf.title := by
    rw [of_decide_eq_true htitles]
    exact List.mem_singleton_self _
  obtain ⟨a, ha, htitle⟩ := List.mem_map.mp hblank
  obtain ⟨⟨c, hc, -⟩, -⟩ :=
    (hall plainEnv plainEnv_lowers samplePosts s empty_identified _ hs).title a ha
  rw [htitle] at hc
  cases hc

end SarkariWorld.Content
