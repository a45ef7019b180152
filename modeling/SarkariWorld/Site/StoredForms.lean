import SarkariWorld.Content.Columns
import SarkariWorld.Content.StoredCopies
import SarkariWorld.Content.WireDates
import SarkariWorld.Site.FormLimits

/-!
# Forms that are stored as typed

`FormLimits` compares a form with what the normalisers make of it. Here it is sent, in the
body of one of the three requests that write an article, and what counts is the row that is
there afterwards: `limits_exact`.

Between the data and the row there are the handler, which may set a status and a date of its
own, and the commit, which the schema of the table can refuse. Neither has to do with the
form, as long as its texts can be stored at all. So the theorem is about a request that is
served whatever its form is, `hserved`, and says what becomes of it with this one: `Fills`
relates the two writes, `commit_fills` carries a commit from the first to the second, and
`commit_form` reads the form off the row.
-/

namespace SarkariWorld.Site

open SarkariWorld.Lib SarkariWorld.Content

/-! ## Requests with a form -/

/-- The request a body is sent in. An update names the article in its path. -/
def articleRequest (path : Text) : WriteBody → PostRequest
  | .create payload => .createPost payload
  | .update payload => .updatePost path payload
  | .publish payload => .publishArticle payload

/-- The same body with the form in it, if the schema accepts it so. -/
def ArticleForm.fill (form : ArticleForm) :
    (body : WriteBody) → (form.body body.payload.toArticleBase).Accepted → WriteBody
  | .create payload, haccepted => .create
    { toArticleBase := form.body payload.toArticleBase
      slug := payload.slug
      htmlContent := payload.htmlContent
      articleStatus := payload.articleStatus
      accepted := haccepted
      title_sent := payload.title_sent
      slug_valid := payload.slug_valid
      html_short := payload.html_short }
  | .update payload, haccepted => .update
    { toArticleBase := form.body payload.toArticleBase
      slug := payload.slug
      htmlContent := payload.htmlContent
      articleStatus := payload.articleStatus
      accepted := haccepted
      slug_valid := payload.slug_valid
      html_short := payload.html_short }
  | .publish payload, haccepted => .publish
    { toArticleBase := form.body payload.toArticleBase
      slug := payload.slug
      content := payload.content
      accepted := haccepted
      title_sent := payload.title_sent
      slug_valid := payload.slug_valid
      content_short := payload.content_short }

/-- The row, as the form shows it. -/
def rowForm (a : Article) : ArticleForm where
  category := categoryEnumToSlug a.category
  metaTitle := a.metaTitle
  metaDescription := a.metaDescription
  searchKeyword := a.searchKeyword
  links := a.links
  faq := a.faq
  instagramPostUrl := a.instagramPostUrl
  youtubeVideoUrl := a.youtubeVideoUrl
  coverImageUrl := a.coverImageUrl

/-! ## Rows with other forms -/

/-- The first row, with the columns of the form as in the second. -/
def refill (a b : Article) : Article :=
  { a with
    category := b.category
    articleStatus := b.articleStatus
    updatedAt := b.updatedAt
    metaTitle := b.metaTitle
    metaDescription := b.metaDescription
    searchKeyword := b.searchKeyword
    links := b.links
    faq := b.faq
    instagramPostUrl := b.instagramPostUrl
    youtubeVideoUrl := b.youtubeVideoUrl
    coverImageUrl := b.coverImageUrl }

/-- What the table asks of the columns of the form. -/
structure FormFits (form : ArticleForm) : Prop where
  metaTitle : ∀ t ∈ form.metaTitle, t.length ≤ 60
  metaDescription : ∀ t ∈ form.metaDescription, t.length ≤ 160
  storable : ∀ t ∈ form.texts, Storable t

variable {env : Env} {form : ArticleForm} {t t' : ArticleTable} {clock : Nat} {nextId : Int}
  {write filled : ArticleWrite} {answer : Option Article} {a b row : Article}

/-- A form within its limits fits. -/
theorem formFits_of_within (htidy : Tidy env form) (hwithin : WithinLimits metaResponse form) :
    FormFits form :=
  ⟨hwithin.metaTitle, hwithin.metaDescription, htidy.storable⟩

/-- The texts of a row are those of its form, and others that a form does not touch. -/
theorem refill_texts {text : Text} (h : text ∈ (refill a b).texts) :
    text ∈ a.texts ∨ text ∈ (rowForm b).texts := by
  simp only [ArticleOf.texts, ArticleForm.texts, refill, rowForm, List.mem_append, List.mem_cons,
    List.not_mem_nil, or_false] at h ⊢
  tauto

/-- A row stays within its columns whatever form it has, as long as the form does. -/
theorem fits_refill (ha : a.Fits) (hform : FormFits (rowForm b))
    (hupdated : timestamp3 b.updatedAt = b.updatedAt) : (refill a b).Fits := by
  obtain ⟨hid, -, -, hdates, htexts⟩ := ha
  refine ⟨hid, hform.metaTitle, hform.metaDescription, fun d hd => ?_, fun text htext => ?_⟩
  · rcases List.mem_append.mp hd with hd | hd
    · exact hdates d (List.mem_append_left _ hd)
    · rcases List.mem_cons.mp hd with rfl | hd
      · exact hdates _ (List.mem_append_right _ (List.mem_cons_self ..))
      · obtain rfl := List.mem_singleton.mp hd
        exact hupdated
  · rcases refill_texts htext with hold | hnew
    · exact htexts text hold
    · exact hform.storable text hnew

/-! ## Data with a form -/

/-- What a form puts into the data of its body. -/
def fillData (env : Env) (form : ArticleForm) (data : ArticleData) : ArticleData :=
  { data with
    category := some ((categorySlugToEnum env (some form.category)).getD .blog)
    metaTitle := some (normaliseMetaTitle form.metaTitle)
    metaDescription := some (normaliseMetaDescription form.metaDescription)
    searchKeyword := some (normaliseSearchKeyword env (some (.list form.searchKeyword)))
    links := some (normaliseArticleLinks env (some (form.links.map ArticleLink.item)))
    faq := some (normaliseFaqList (some (form.faq.map FaqEntry.item)))
    instagramPostUrl :=
      some (normaliseUrlTitleList env (some (form.instagramPostUrl.map UrlTitle.dump)))
    youtubeVideoUrl :=
      some (normaliseUrlTitleList env (some (form.youtubeVideoUrl.map UrlTitle.dump)))
    coverImageUrl := some (normaliseCoverImageUrl env form.coverImageUrl) }

/-- The form's fields are the only ones that differ between the two bodies, so the data is the old
data with the form's part put in. -/
theorem buildArticleData_body (payload : Payload) (author : Option Author)
    (markdown : Option Text) :
    buildArticleData env { payload with toArticleBase := form.body payload.toArticleBase } author
      markdown = fillData env form (buildArticleData env payload author markdown) := by
  have hsent : ∀ value : Option Text, (Field.ofSent (some value)).sent = some value :=
    fun value => sent_ofSent (some value)
  unfold buildArticleData fillData ArticleForm.body
  dsimp only
  rw [hsent, hsent, hsent]
  rfl

/-- The handler decides about status and date without a look at the form. -/
theorem stamp_fillData (data : ArticleData) (q : Prop) [Decidable q] :
    (if q then (fillData env form data).stamp clock else fillData env form data) =
      fillData env form (if q then data.stamp clock else data) := by
  split
  next => rfl
  next => rfl

/-- Two writes, the second with the form. -/
inductive Fills (env : Env) (form : ArticleForm) (t : ArticleTable) :
    ArticleWrite → ArticleWrite → Prop where
  | insert (data : ArticleData) :
      Fills env form t (.insert data) (.insert (fillData env form data))
  | update (a : Article) (data : ArticleData) (u₀ u : Int) (ha : a ∈ t.rows) :
      Fills env form t (.update a.load { data.assign a.load with updatedAt := u₀ })
        (.update a.load { (fillData env form data).assign a.load with updatedAt := u })

section Handlers

variable {data filledData : ArticleData} (hdata : filledData = fillData env form data)
include hdata

/-- The create endpoint with the form: the date it may put in does not depend on the form, so the
two inserts are related. -/
theorem createPost_fills : Fills env form t
    (.insert (if data.undatedPublish then data.stamp clock else data))
    (.insert (if filledData.undatedPublish then filledData.stamp clock else filledData)) := by
  subst hdata
  rw [stamp_fillData]
  exact .insert _

/-- The ingest with the form, which sets the status itself. -/
theorem publishArticle_fills (status : ArticleStatus) : Fills env form t
    (.insert { data with articleStatus := some status })
    (.insert { filledData with articleStatus := some status }) := by
  subst hdata
  exact .insert { data with articleStatus := some status }

/-- The edit with the form, over the same loaded article. -/
theorem updatePost_fills (ha : a ∈ t.rows) : Fills env form t
    (update clock a.load
      (if data.undatedPublish ∧ a.publishedAt = none then data.stamp clock else data))
    (update clock a.load (if filledData.undatedPublish ∧ a.publishedAt = none then
      filledData.stamp clock else filledData)) := by
  subst hdata
  rw [stamp_fillData]
  obtain ⟨u₀, hplain⟩ := update_assigns clock a.load
    (if data.undatedPublish ∧ a.publishedAt = none then data.stamp clock else data)
  obtain ⟨u, hfilled⟩ := update_assigns clock a.load (fillData env form
    (if data.undatedPublish ∧ a.publishedAt = none then data.stamp clock else data))
  rw [hplain]
  exact hfilled ▸ .update a _ u₀ u ha

end Handlers

/-- The data of the filled request is the data of the request with the form in it. -/
theorem fill_data (actor : Author) (body : WriteBody)
    (haccepted : (form.body body.payload.toArticleBase).Accepted) :
    (form.fill body haccepted).data env (some actor) =
      fillData env form (body.data env (some actor)) := by
  cases body with
  | create payload => exact buildArticleData_body payload.dump _ _
  | update payload => exact buildArticleData_body payload.dump _ _
  | publish payload => exact buildArticleData_body payload.dump _ _

/-- **What the form of a request changes.** -/
theorem prepare_fills {actor : Author} {body : WriteBody} {path : Text}
    (haccepted : (form.body body.payload.toArticleBase).Accepted)
    (h : prepare env t clock actor (articleRequest path body) = .ok write) :
    ∃ filled, prepare env t clock actor (articleRequest path (form.fill body haccepted)) =
      .ok filled ∧ Fills env form t write filled := by
  have hdata := @fill_data env form actor body haccepted
  cases body with
  | create payload =>
    obtain ⟨hfree, h⟩ := ite_error_eq_ok.mp h
    obtain rfl := Except.ok.inj h
    refine ⟨_, ite_error_eq_ok.mpr ⟨hfree, rfl⟩, ?_⟩
    exact createPost_fills hdata
  | publish payload =>
    -- the two checks before the row look at the slug, which the form leaves alone
    obtain ⟨hlong, h⟩ := ite_error_eq_ok.mp h
    obtain ⟨hfree, h⟩ := ite_error_eq_ok.mp h
    obtain rfl := Except.ok.inj h
    refine ⟨_, ite_error_eq_ok.mpr ⟨hlong, ite_error_eq_ok.mpr ⟨hfree, rfl⟩⟩, ?_⟩
    exact publishArticle_fills hdata .draft
  | update payload =>
    obtain ⟨a, hget, h⟩ := bind_eq_ok.mp h
    split at h
    next => cases h
    next hfree =>
      obtain rfl := Except.ok.inj h
      refine ⟨_, bind_eq_ok.mpr ⟨a, hget, ?_⟩, updatePost_fills hdata (getArticle_ok hget).1⟩
      have hfree' : payload.slug.get.filter (fun s => slugExists t s (some a.id)) = none := hfree
      dsimp only [ArticleForm.fill]
      rw [hfree']
      rfl

/-! ## Commits with a form -/

/-- A copy that is flushed over its own row leaves its columns there. -/
theorem rowForm_flush (x : ArticleObject) (e : Option Int) (a : Article) :
    rowForm (flushArticle a.load x e a) = ⟨categoryEnumToSlug x.category, x.metaTitle,
      x.metaDescription, x.searchKeyword, x.links, x.faq, x.instagramPostUrl, x.youtubeVideoUrl,
      x.coverImageUrl⟩ := by
  simp only [rowForm, flushArticle, ArticleOf.load, flushCol_self]

/-- So does one that is inserted. -/
theorem rowForm_newRow {data : ArticleData}
    (h : newRow (fillData env form data) nextId clock = .ok row) :
    rowForm row = form.normalised env := by
  obtain ⟨encoded, -, h⟩ := bind_eq_ok.mp h
  split at h
  next => cases h
  next =>
    rw [← Except.ok.inj h]
    rfl

/-- **The row has the form as the normalisers leave it.** -/
theorem commit_form (hfills : Fills env form t write filled)
    (h : commitArticle t clock nextId filled = .ok (t', some row)) :
    row ∈ t'.rows ∧ rowForm row = form.normalised env := by
  cases hfills with
  | insert data =>
    obtain ⟨row', hrow, h⟩ := bind_eq_ok.mp h
    obtain ⟨t₁, hwrite, h⟩ := bind_eq_ok.mp h
    obtain ⟨rfl, hsame⟩ := Prod.mk.inj (Except.ok.inj h)
    obtain rfl := Option.some.inj hsame
    refine ⟨?_, rowForm_newRow hrow⟩
    rw [ArticleTable.write_ok hwrite]
    exact List.mem_append_right _ (List.mem_singleton_self _)
  | update a data u₀ u ha =>
    have hfound : t.find a.load.id = some a := ArticleTable.find_eq_some.mpr ⟨ha, rfl⟩
    simp only [commitArticle, hfound] at h
    split at h
    next hclean =>
      -- Nothing was assigned, so the row has the form already.
      obtain ⟨rfl, hsame⟩ := Prod.mk.inj (Except.ok.inj h)
      obtain rfl := Option.some.inj hsame
      refine ⟨ha, ?_⟩
      have hrow := rowForm_flush { (fillData env form data).assign a.load with updatedAt := u }
        none a
      rw [hclean, flushArticle_clean] at hrow
      rw [hrow, ← hclean]
      rfl
    next =>
      obtain ⟨e, -, h⟩ := bind_eq_ok.mp h
      obtain ⟨t₁, hwrite, h⟩ := bind_eq_ok.mp h
      obtain ⟨rfl, hsame⟩ := Prod.mk.inj (Except.ok.inj h)
      obtain rfl := Option.some.inj hsame
      refine ⟨?_, rowForm_flush _ e a⟩
      rw [ArticleTable.write_ok hwrite]
      exact mem_updateWhere_of_eq ha (ArticleOf.idCol_eq_some.mpr rfl)

/-- **A commit does not depend on the form**, as long as the form fits. -/
theorem commit_fills (hfills : Fills env form t write filled)
    (hfits : FormFits (form.normalised env))
    (h : commitArticle t clock nextId write = .ok (t', answer)) :
    ∃ t₁ row, commitArticle t clock nextId filled = .ok (t₁, some row) := by
  cases hfills with
  | insert data =>
    obtain ⟨row₀, hrow₀, h⟩ := bind_eq_ok.mp h
    obtain ⟨t₀, hwrite, -⟩ := bind_eq_ok.mp h
    have hrows := ArticleTable.write_ok hwrite
    have hold : row₀.Fits :=
      t₀.fits row₀ (hrows ▸ List.mem_append_right _ (List.mem_singleton_self _))
    -- the date and the slug do not come from the form, so the new row is made as the old one was
    have hfilled : ∃ row, newRow (fillData env form data) nextId clock = .ok row ∧
        refill row₀ row = row := by
      obtain ⟨slug, date, hslug, hdate, rfl⟩ := newRow_ok hrow₀
      refine ⟨insertedRow (fillData env form data) slug date nextId clock,
        bind_eq_ok.mpr ⟨date, hdate, ?_⟩, rfl⟩
      have hslug' : (fillData env form data).slug = some slug := hslug
      rw [hslug']
      rfl
    obtain ⟨row, hrow, hsame⟩ := hfilled
    have hupdated : timestamp3 row.updatedAt = row.updatedAt := by
      obtain ⟨slug, date, -, -, rfl⟩ := newRow_ok hrow
      exact timestamp3_idem _
    have hrowFits : row.Fits := by
      rw [← hsame]
      refine fits_refill hold ?_ hupdated
      rw [rowForm_newRow hrow]
      exact hfits
    obtain ⟨t₁, hcommit⟩ := insert_commits hrow hrowFits hrows
      ((newRow_id hrow).trans (newRow_id hrow₀).symm) (by rw [← hsame]; rfl)
    exact ⟨t₁, row, hcommit⟩
  | update a data u₀ u ha =>
    -- the slug is the body's own in both writes
    have hslug : takesSlug t (.update a.load { data.assign a.load with updatedAt := u₀ }) =
        false := takesSlug_of_commit h
    have hfree : takesSlug t (.update a.load
      { (fillData env form data).assign a.load with updatedAt := u }) = false := hslug
    obtain ⟨stored, e, hstored, hencoded, hold⟩ := update_fits h
    obtain ⟨hmem, hid⟩ := ArticleTable.find_eq_some.mp hstored
    obtain rfl := eq_of_uniqueCol t.uniqueId hmem ha (ArticleOf.idCol_eq_some.mpr hid) rfl
    have hrowFits := fits_refill (b := flushArticle stored.load
      { (fillData env form data).assign stored.load with updatedAt := u } e stored) hold
      (by rw [rowForm_flush]; exact hfits)
      (flushColWith_fits _ _ (fits_dates (t.fits stored ha)).2.2)
    obtain ⟨t₁, hcommit⟩ := update_commits hfree hstored hencoded hrowFits
    exact ⟨t₁, _, hcommit⟩

/-! ## The form and its row -/

/-- The request is served with the form in its body, and the row it writes shows the form as
it was typed. -/
def StoredAsTyped (env : Env) (s : Posts) (actor : Author) (path : Text) (nextId : Int)
    (body : WriteBody) (form : ArticleForm) : Prop :=
  ∃ haccepted : (form.body body.payload.toArticleBase).Accepted, ∃ t' row,
    perform env s ⟨actor, articleRequest path (form.fill body haccepted), nextId⟩ =
        .ok (t', some row) ∧
      row ∈ t'.rows ∧ rowForm row = form

/-- **The announced limits are the enforced ones.** In a request that is served with whatever
form it has, a form that was typed tidily is stored as typed exactly if it keeps to the limits
and the categories of `meta`. Over them it is refused, or something of it is stored
otherwise. -/
theorem limits_exact (hlower : LowersSlugs env) (htidy : Tidy env form) {s : Posts}
    {actor : Author} {path : Text} {nextId : Int} {body : WriteBody}
    (hserved : Accepts env s ⟨actor, articleRequest path body, nextId⟩) :
    StoredAsTyped env s actor path nextId body form ↔ WithinLimits metaResponse form := by
  obtain ⟨⟨t₀, answer⟩, hserved⟩ := hserved
  obtain ⟨write, hprepare, hcommit⟩ := bind_eq_ok.mp hserved
  have hcommit := mapError_eq_ok.mp hcommit
  constructor
  · rintro ⟨haccepted, t', row, hperform, -, hrow⟩
    obtain ⟨filled, hfilled, hfills⟩ := prepare_fills haccepted hprepare
    obtain ⟨filled', hprepare', hcommit'⟩ := bind_eq_ok.mp hperform
    obtain rfl := Except.ok.inj (hfilled.symm.trans hprepare')
    -- the stored row is in normal form, so being stored as typed is being in normal form
    have hform := (commit_form hfills (mapError_eq_ok.mp hcommit')).2
    exact (normalised_eq_iff hlower htidy).mp (hform.symm.trans hrow)
  · intro hwithin
    have haccepted := accepted_of_within htidy hwithin body.accepted
    have hform := (normalised_eq_iff hlower htidy).mpr hwithin
    -- within the limits nothing is too long for its column and nothing holds U+0000
    have hfits : FormFits (form.normalised env) := by
      rw [hform]
      exact formFits_of_within htidy hwithin
    obtain ⟨filled, hfilled, hfills⟩ := prepare_fills haccepted hprepare
    obtain ⟨t', row, hstored⟩ := commit_fills hfills hfits hcommit
    obtain ⟨hmem, hrow⟩ := commit_form hfills hstored
    refine ⟨haccepted, t', row, bind_eq_ok.mpr ⟨filled, hfilled, mapError_eq_ok.mpr hstored⟩, hmem,
      hrow.trans hform⟩

/-- A form sent with the creation of an article. -/
theorem resultForm_stored : StoredAsTyped formEnv samplePosts sampleActor [] 7
    (.create (samplePayload .omitted .omitted)) resultForm := by
  have hserved : okAnd (perform formEnv samplePosts
      ⟨sampleActor, .createPost (samplePayload .omitted .omitted), 7⟩) (fun _ => true) = true := by
    decide +kernel
  obtain ⟨r, hr, -⟩ := exists_of_okAnd hserved
  exact (limits_exact formEnv_lowers resultForm_tidy ⟨r, hr⟩).mpr resultForm_within

end SarkariWorld.Site
