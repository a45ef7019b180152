import SarkariWorld.Content.Listing
import SarkariWorld.Content.PublishedDates
import SarkariWorld.Content.StoredCopies

/-!
# An update leaves the rest alone

"Only keys actually sent are applied, so omitting a field leaves it alone." That is so
of every column a body can name: `build_article_data` has a test of its own for each,
and none of them passes for a key that was not sent. Two things go wrong all the same.

* The two author columns no body can name, and every update writes them.
* "First transition to published stamps the date": what the code tests is whether the
  body says `published` and the row has no date. An article that is published without a
  date already makes no transition, and is dated by a body that says `published` again.

`update_partial_iff` says that there is nothing else.

The statement is about `columns`, the list of all that a request can write, so that adding
a column to the model adds it to the theorem. What counts as sent is the presence of the
key, an explicit null included.
-/

namespace SarkariWorld.Content

open SarkariWorld.Lib

/-- The first transition to published without a date: the article is not published, the
body publishes it, and the row has no date. -/
def FirstPublication (payload : ArticleUpdate) (a : Article) : Prop :=
  a.articleStatus ≠ .published ∧ payload.articleStatus = .value .published ∧ a.publishedAt = none

/-- The body publishes again what is published without a date, and does not name the
date. -/
def Republished (payload : ArticleUpdate) (a : Article) : Prop :=
  a.articleStatus = .published ∧ payload.articleStatus = .value .published ∧
    payload.publishedAt = .omitted ∧ a.publishedAt = none

/-- The columns the body does not name hold what they held, but for `updated_at`. -/
structure LeavesRest (payload : ArticleUpdate) (a b : Article) : Prop where
  id : b.id = a.id
  createdAt : b.createdAt = a.createdAt
  title : payload.title = .omitted → b.title = a.title
  description : payload.description = .omitted → b.description = a.description
  slug : payload.slug = .omitted → b.slug = a.slug
  category : payload.category = .omitted → b.category = a.category
  htmlContent : payload.htmlContent = .omitted → b.htmlContent = a.htmlContent
  articleStatus : payload.articleStatus = .omitted → b.articleStatus = a.articleStatus
  publishedAt : payload.publishedAt = .omitted → ¬ FirstPublication payload a →
    b.publishedAt = a.publishedAt
  instagramPostUrl : payload.instagramPostUrl = .omitted → b.instagramPostUrl = a.instagramPostUrl
  youtubeVideoUrl : payload.youtubeVideoUrl = .omitted → b.youtubeVideoUrl = a.youtubeVideoUrl
  faq : payload.faq = .omitted → b.faq = a.faq
  links : payload.links = .omitted → b.links = a.links
  coverImageUrl : payload.coverImageUrl = .omitted → b.coverImageUrl = a.coverImageUrl
  searchKeyword : payload.searchKeyword = .omitted → b.searchKeyword = a.searchKeyword
  metaTitle : payload.metaTitle = .omitted → b.metaTitle = a.metaTitle
  metaDescription : payload.metaDescription = .omitted → b.metaDescription = a.metaDescription
  authorId : b.authorId = a.authorId
  authorName : b.authorName = a.authorName

/-- What is set from a key that was not sent is not set. -/
theorem getD_of_omitted {α β : Type} {field : Field α} (h : field = .omitted) (f : Option α → β)
    (old : β) : (field.sent.map f).getD old = old := by
  rw [h]
  rfl

theorem getD_get_of_omitted {α β : Type} {field : Field α} (h : field = .omitted) (f : α → β)
    (old : β) : (field.get.map f).getD old = old := by
  rw [h]
  rfl

theorem get_eq_some {α : Type} {field : Field α} {v : α} :
    field.get = some v ↔ field = .value v := by
  cases field with
  | omitted => exact ⟨nofun, nofun⟩
  | null => exact ⟨nofun, nofun⟩
  | value w => exact ⟨fun h => congrArg _ (Option.some.inj h), fun h => h ▸ rfl⟩

variable {env : Env} {s : Posts} {actor : Author} {slug : Text} {payload : ArticleUpdate}
  {nextId : Int} {t' : ArticleTable} {answer : Option Article} {a b : Article}

/-- The copy `update_post` flushes, but for its stamp. -/
def updatedCopy (env : Env) (clock : Nat) (actor : Author) (payload : ArticleUpdate) (a : Article) :
    ArticleObject :=
  let data := buildArticleData env payload.dump (some actor) none
  (if data.undatedPublish ∧ a.publishedAt = none then data.stamp clock else data).assign a.load

/-- What `update_post` hands to its commit: the copy with what was sent, and the stamp if that
differs. -/
theorem updatePost_writes {write : ArticleWrite} (ha : a ∈ s.articles.rows)
    (h : updatePost env s.articles s.clock actor a.slug payload = .ok write) :
    write = stampUpdated a.load (updatedCopy env s.clock actor payload a) (nowIst s.clock) := by
  obtain ⟨found, hget, hwrite⟩ := bind_eq_ok.mp h
  obtain ⟨hmem, hslug, -⟩ := getArticle_ok hget
  obtain rfl := eq_of_uniqueCol s.articles.uniqueSlug hmem ha
    (ArticleOf.slugCol_eq_some.mpr hslug) rfl
  split at hwrite
  next => cases hwrite
  next => exact (Except.ok.inj hwrite).symm

/-- The written row, found under its number. -/
theorem stored_of_stampUpdated {t : ArticleTable} {clock : Nat} {x : ArticleObject} {now : Int}
    (ha : a ∈ t.rows) (hid : x.id = a.id)
    (h : Effect t t' clock nextId (stampUpdated a.load x now)) :
    ∃ b, t'.find a.id = some b ∧
      (if x ≠ a.load then { x with updatedAt := now } else x).encode = .ok b := by
  have hfound : t.find a.load.id = some a := ArticleTable.find_eq_some.mpr ⟨ha, rfl⟩
  obtain ⟨b, hb⟩ := effect_update_find hfound h
  refine ⟨b, hb, ?_⟩
  have hafter := found_after (stampUpdated_ofRow ha hid) h hb
  unfold stampUpdated at hafter
  generalize (if x ≠ a.load then { x with updatedAt := now } else x) = written at hafter ⊢
  generalize hwrite : ArticleWrite.update a.load written = write at hafter
  cases hafter with
  | inserted => cases hwrite
  | stored _ x _ hencode =>
    rw [(ArticleWrite.update.inj hwrite).2]
    exact hencode
  | kept _ _ hother => exact absurd rfl (hother _ _ hwrite.symm)

/-- **What a successful update stores.** -/
theorem perform_updatePost (ha : a ∈ s.articles.rows)
    (h : perform env s ⟨actor, .updatePost a.slug payload, nextId⟩ = .ok (t', answer)) :
    ∃ b, t'.find a.id = some b ∧ ∃ updatedAt,
      { updatedCopy env s.clock actor payload a with updatedAt := updatedAt }.encode = .ok b := by
  obtain ⟨write, hprepare, heffect⟩ := perform_effect h
  rw [updatePost_writes ha hprepare] at heffect
  have hid : (updatedCopy env s.clock actor payload a).id = a.id := rfl
  obtain ⟨b, hb, hencode⟩ := stored_of_stampUpdated ha hid heffect
  refine ⟨b, hb, ?_⟩
  split at hencode
  · exact ⟨_, hencode⟩
  · exact ⟨_, hencode⟩

/-- The copy has what the body sets, and a date: its own one, unless the body or a stamp
sets another. -/
theorem updatedCopy_eq (env : Env) (clock : Nat) : ∃ date, updatedCopy env clock actor payload a =
      { (buildArticleData env payload.dump (some actor) none).assign a.load with
        publishedAt := date } ∧
    (payload.publishedAt = .omitted → ¬ FirstPublication payload a → ¬ Republished payload a →
      date = a.publishedAt.map naive) ∧
    (Republished payload a → date = some (naive (nowIst clock))) := by
  unfold updatedCopy
  dsimp only
  split
  -- the rule writes a date: a first publication, or a second one without a date
  next hstamp =>
    have hpublishes : payload.articleStatus = .value .published := get_eq_some.mp hstamp.1.1
    refine ⟨some (naive (nowIst clock)), rfl, fun hdate hfirst hagain => ?_, fun _ => rfl⟩
    by_cases hstatus : a.articleStatus = .published
    · exact absurd ⟨hstatus, hpublishes, hdate, hstamp.2⟩ hagain
    · exact absurd ⟨hstatus, hpublishes, hstamp.2⟩ hfirst
  -- the date is the one that was sent, and otherwise stays
  next hplain =>
    refine ⟨_, rfl, fun hdate _ _ => ?_, fun hagain => absurd ?_ hplain⟩
    · show payload.publishedAt.sent.getD a.load.publishedAt = _
      rw [hdate]
      rfl
    · obtain ⟨-, hpublishes, hdate, hundated⟩ := hagain
      refine ⟨⟨get_eq_some.mpr hpublishes, ?_⟩, hundated⟩
      show payload.publishedAt.sent.getD none = none
      rw [hdate]
      rfl

/-- A published article that is published again gets a date it did not have. -/
theorem republished_dates {x : ArticleObject} {clock : Nat} (hagain : Republished payload a)
    (hdate : x.publishedAt = some (naive (nowIst clock))) (hencode : x.encode = .ok b) :
    ¬ LeavesRest payload a b := by
  intro hrest
  obtain ⟨hstatus, -, hnamed, hundated⟩ := hagain
  obtain ⟨encoded, hencoded, rfl⟩ := encode_eq_ok.mp hencode
  have hkept : encoded = a.publishedAt :=
    hrest.publishedAt hnamed fun hfirst => hfirst.1 hstatus
  rw [hdate, hkept, hundated] at hencoded
  cases hencoded

/-- **An update leaves the rest alone exactly when the article is the actor's own, and is
not published over again without a date.** -/
theorem update_partial_iff (ha : a ∈ s.articles.rows)
    (h : perform env s ⟨actor, .updatePost a.slug payload, nextId⟩ = .ok (t', answer)) :
    ∃ b, t'.find a.id = some b ∧ (LeavesRest payload a b ↔
      (a.authorId = some (strInt actor.id) ∧ a.authorName = some actor.name) ∧
        ¬ Republished payload a) := by
  obtain ⟨b, hb, updatedAt, hencode⟩ := perform_updatePost ha h
  -- the copy that is flushed is the loaded row with the sent fields, the author and one date
  obtain ⟨date, hcopy, hdate, hstamped⟩ := updatedCopy_eq env s.clock
  rw [hcopy] at hencode
  obtain ⟨encoded, hencoded, rfl⟩ := encode_eq_ok.mp hencode
  refine ⟨_, hb, fun hrest => ⟨⟨hrest.authorId.symm, hrest.authorName.symm⟩, fun hagain => ?_⟩,
    fun ⟨hauthor, honce⟩ => ?_⟩
  -- published again without a date: the rule writes one that was not sent
  · exact republished_dates hagain (hstamped hagain) hencode hrest
  obtain ⟨hpublished, hcreated, -⟩ := fits_dates (s.articles.fits a ha)
  -- a field that was not sent is not in the data, and its column is left as it was
  exact {
    id := rfl
    createdAt := hcreated
    title := fun h => getD_of_omitted h _ a.title
    description := fun h => getD_of_omitted h _ a.description
    slug := fun h => by
      show (buildArticleData env payload.dump (some actor) none).slug.getD a.slug = a.slug
      rw [buildArticleData_no_slug _ _ (congrArg Field.get h)]
      rfl
    category := fun h => getD_get_of_omitted h _ a.category
    htmlContent := fun h => getD_of_omitted h _ a.htmlContent
    articleStatus := fun h => by
      show payload.articleStatus.get.getD a.articleStatus = a.articleStatus
      rw [h]
      rfl
    publishedAt := fun h hfirst => by
      rw [hdate h hfirst honce, encodeDate_load hpublished] at hencoded
      exact (Except.ok.inj hencoded).symm
    instagramPostUrl := fun h => getD_of_omitted h _ a.instagramPostUrl
    youtubeVideoUrl := fun h => getD_of_omitted h _ a.youtubeVideoUrl
    faq := fun h => getD_of_omitted h _ a.faq
    links := fun h => getD_of_omitted h _ a.links
    coverImageUrl := fun h => getD_of_omitted h _ a.coverImageUrl
    searchKeyword := fun h => getD_of_omitted h _ a.searchKeyword
    metaTitle := fun h => getD_of_omitted h _ a.metaTitle
    metaDescription := fun h => getD_of_omitted h _ a.metaDescription
    authorId := hauthor.1.symm
    authorName := hauthor.2.symm }

/-- A draft that says nothing of its author. -/
def unsignedArticle : Article := sampleArticle 1 "result".toList .draft none

/-- A service with that article. -/
def unsigned : Posts := ⟨⟨[unsignedArticle], by decide, by decide, by decide⟩, 0⟩

/-- An update that sends nothing. -/
def emptyUpdate : PostCall :=
  ⟨sampleActor, .updatePost unsignedArticle.slug (sampleEdit .omitted .omitted), 0⟩

/-- The empty body is served, and the article is signed by its sender. -/
theorem emptyUpdate_ok : ∃ t' answer, perform sampleEnv unsigned emptyUpdate = .ok (t', answer) ∧
    (t'.find 1).map ArticleOf.authorName = some (some "Editor".toList) := by
  have hok : (perform sampleEnv unsigned emptyUpdate).toOption.map (fun result =>
      (result.1.find 1).map ArticleOf.authorName) = some (some (some "Editor".toList)) := by
    decide +kernel
  obtain ⟨result, hresult, hname⟩ := Option.map_eq_some_iff.mp hok
  refine ⟨result.1, result.2, ?_, hname⟩
  cases hperform : perform sampleEnv unsigned emptyUpdate with
  | ok updated =>
    rw [hperform] at hresult
    exact congrArg Except.ok (Option.some.inj hresult)
  | error e =>
    rw [hperform] at hresult
    cases hresult

/-- The condition on that body: the article would have to be signed by its sender already. -/
theorem emptyUpdate_partial_iff : ∃ (t' : ArticleTable) (b : Article), t'.find 1 = some b ∧
    (LeavesRest (sampleEdit .omitted .omitted) unsignedArticle b ↔
      (unsignedArticle.authorId = some (strInt 1) ∧
        unsignedArticle.authorName = some "Editor".toList) ∧
        ¬ Republished (sampleEdit .omitted .omitted) unsignedArticle) := by
  obtain ⟨t', answer, hperform, -⟩ := emptyUpdate_ok
  have hmem : unsignedArticle ∈ unsigned.articles.rows := List.mem_singleton_self _
  obtain ⟨b, hb, hiff⟩ := update_partial_iff hmem hperform
  exact ⟨t', b, hb, hiff⟩

/-- It signs the article. -/
theorem emptyUpdate_signs : ¬ ∀ (env : Env) (s : Posts) (actor : Author) (payload : ArticleUpdate)
    (nextId : Int) (t' : ArticleTable) (answer : Option Article), ∀ a ∈ s.articles.rows,
    perform env s ⟨actor, .updatePost a.slug payload, nextId⟩ = .ok (t', answer) →
      ∃ b, t'.find a.id = some b ∧ LeavesRest payload a b := by
  intro hpartial
  obtain ⟨t', answer, hperform, hname⟩ := emptyUpdate_ok
  have hmem : unsignedArticle ∈ unsigned.articles.rows := List.mem_singleton_self _
  obtain ⟨b, hb, hrest⟩ := hpartial _ _ _ _ _ _ _ unsignedArticle hmem hperform
  have hkept : b.authorName = none := hrest.authorName
  rw [show t'.find 1 = some b from hb, Option.map_some, hkept] at hname
  cases hname

end SarkariWorld.Content
