import SarkariWorld.Database
import SarkariWorld.Dates
import SarkariWorld.Lib.Result

/-!
# The `Article` table

`ArticleOf δ` is a row of the table, with `δ` the type of what `published_at`
holds. Stored, it is a naive IST value (`Article`); in the session's copy of the
row it is whatever datetime the code assigned (`ArticleObject`), and an aware
one is refused by the driver when the copy is flushed. The two generated search
columns are left out, since nothing here reads them.

As with users, the unique indexes and the columns' limits are fields of the
table, so no state of a system over it breaks them.

Two columns are not plain values. `published_at` may be an aware datetime in the session's
copy and never in the row; `created_at` and `updated_at` are the database's on insertion,
and `updated_at` the application's on every change after that.

The widths of the text columns are checked on the row (`Fits`), together with U+0000,
which no text of Postgres holds. The enumerations are inductive types with the labels of
the database as their values; the slug of a category is the label with hyphens.
-/

namespace SarkariWorld.Content

open SarkariWorld.Lib

/-- The categories, in the order of the enumeration. -/
inductive ArticleCategory where
  | latestJob
  | admitCard
  | result
  | answerKey
  | admission
  | syllabus
  | scholarship
  | tender
  | sarkariWebsite
  | sarkariMobileApp
  | blog
  deriving DecidableEq, Repr

/-- The enum's value in the database. -/
def ArticleCategory.value : ArticleCategory → Text
  | .latestJob => "latest_job".toList
  | .admitCard => "admit_card".toList
  | .result => "result".toList
  | .answerKey => "answer_key".toList
  | .admission => "admission".toList
  | .syllabus => "syllabus".toList
  | .scholarship => "scholarship".toList
  | .tender => "tender".toList
  | .sarkariWebsite => "sarkari_website".toList
  | .sarkariMobileApp => "sarkari_mobile_app".toList
  | .blog => "blog".toList

/-- All of them, in that order. -/
def ArticleCategory.all : List ArticleCategory :=
  [.latestJob, .admitCard, .result, .answerKey, .admission, .syllabus, .scholarship, .tender,
    .sarkariWebsite, .sarkariMobileApp, .blog]

/-- The three states of an article. -/
inductive ArticleStatus where
  | draft
  | published
  | archived
  deriving DecidableEq, Repr

/-- The labels, as they are stored and sent. -/
def ArticleStatus.value : ArticleStatus → Text
  | .draft => "draft".toList
  | .published => "published".toList
  | .archived => "archived".toList

/-- All of them, in the order of the enumeration. -/
def ArticleStatus.all : List ArticleStatus := [.draft, .published, .archived]

/-- An element of `instagram_post_url` or `youtube_video_url`. -/
structure UrlTitle where
  url : Text
  title : Text
  deriving DecidableEq, Repr

/-- An element of `faq`. -/
structure FaqEntry where
  question : Text
  answer : Text
  deriving DecidableEq, Repr

/-- An element of `links`. -/
structure ArticleLink where
  cta : Text
  url : Text
  deriving DecidableEq, Repr

/-- A row of the table, in the order of the columns. -/
structure ArticleOf (δ : Type) where
  id : Int
  title : Text
  description : Text
  slug : Text
  category : ArticleCategory
  htmlContent : Text
  articleStatus : ArticleStatus
  publishedAt : Option δ
  createdAt : Int
  updatedAt : Int
  authorId : Option Text
  authorName : Option Text
  instagramPostUrl : List UrlTitle
  youtubeVideoUrl : List UrlTitle
  faq : List FaqEntry
  links : List ArticleLink
  coverImageUrl : Option Text
  searchKeyword : List Text
  metaTitle : Option Text
  metaDescription : Option Text
  deriving DecidableEq, Repr

/-- A stored row. -/
abbrev Article := ArticleOf Int

/-- The session's copy of a row. -/
abbrev ArticleObject := ArticleOf Datetime

/-- The copy a query hands out. -/
def ArticleOf.load (row : Article) : ArticleObject :=
  { row with publishedAt := row.publishedAt.map naive }

/-! ## The table -/

/-- The primary key, as a column. -/
def ArticleOf.idCol (a : Article) : Option Int := some a.id

/-- `slug`, as a column. -/
def ArticleOf.slugCol (a : Article) : Option Text := some a.slug

@[simp] theorem ArticleOf.idCol_eq_some {a : Article} {i : Int} : a.idCol = some i ↔ a.id = i := by
  simp [ArticleOf.idCol]

@[simp] theorem ArticleOf.slugCol_eq_some {a : Article} {slug : Text} :
    a.slugCol = some slug ↔ a.slug = slug := by
  simp [ArticleOf.slugCol]

/-- Every string of the row, in its own column or inside a JSON one. -/
def ArticleOf.texts (a : Article) : List Text :=
  [a.title, a.description, a.slug, a.htmlContent] ++
    (a.authorId.toList ++ a.authorName.toList ++ a.coverImageUrl.toList ++ a.metaTitle.toList ++
      a.metaDescription.toList) ++ a.searchKeyword ++
    (a.instagramPostUrl ++ a.youtubeVideoUrl).flatMap (fun u => [u.url, u.title]) ++
    a.faq.flatMap (fun e => [e.question, e.answer]) ++ a.links.flatMap (fun l => [l.cta, l.url])

/-- The row fits its columns: `Integer`, `String(60)`, `String(160)`, three
`TIMESTAMP(3)`, and strings Postgres stores. A text that is too long only by the blanks it
ends with is cut by Postgres and refused here; the normalisers cut to these widths, so that
no such text arrives. -/
def ArticleOf.Fits (a : Article) : Prop :=
  Int4 a.id ∧ (∀ t ∈ a.metaTitle, t.length ≤ 60) ∧ (∀ t ∈ a.metaDescription, t.length ≤ 160) ∧
    (∀ d ∈ a.publishedAt.toList ++ [a.createdAt, a.updatedAt], timestamp3 d = d) ∧
    ∀ t ∈ a.texts, Storable t

instance (a : Article) : Decidable a.Fits := inferInstanceAs (Decidable (_ ∧ _ ∧ _ ∧ _ ∧ _))

/-- The table: rows that fit their columns, with unique numbers and slugs. -/
structure ArticleTable where
  rows : List Article
  fits : ∀ a ∈ rows, a.Fits
  uniqueId : UniqueCol ArticleOf.idCol rows
  uniqueSlug : UniqueCol ArticleOf.slugCol rows

/-- A table without rows. -/
def ArticleTable.empty : ArticleTable := ⟨[], by simp, List.nodup_nil, List.nodup_nil⟩

/-- Store a new version of the table, unless the schema refuses it. -/
def ArticleTable.write (rows : List Article) : Except PyError ArticleTable :=
  if hfits : ∀ a ∈ rows, a.Fits then
    if hunique : UniqueCol ArticleOf.idCol rows ∧ UniqueCol ArticleOf.slugCol rows then
      .ok ⟨rows, hfits, hunique.1, hunique.2⟩
    else .error .integrityError
  else .error .dataError

theorem ArticleTable.write_ok {rows : List Article} {t : ArticleTable}
    (h : ArticleTable.write rows = .ok t) : t.rows = rows := by
  unfold ArticleTable.write at h
  split at h
  next =>
    split at h
    next => rw [← Except.ok.inj h]
    next => cases h
  next => cases h

/-- The stored row with primary key `id`. -/
def ArticleTable.find (t : ArticleTable) (id : Int) : Option Article :=
  lookup ArticleOf.idCol id t.rows

/-- What is found under a number is the row with that number. -/
theorem ArticleTable.find_eq_some {t : ArticleTable} {id : Int} {a : Article} :
    t.find id = some a ↔ a ∈ t.rows ∧ a.id = id := by
  rw [ArticleTable.find, lookup_eq_some_iff t.uniqueId, ArticleOf.idCol_eq_some]

theorem ArticleTable.find_eq_none {t : ArticleTable} {id : Int} :
    t.find id = none ↔ ∀ a ∈ t.rows, a.id ≠ id := by
  rw [ArticleTable.find, lookup_eq_none_iff]
  simp

/-! ## What a session writes -/

/-- The keyword arguments of `Article(**data)` and the attributes `update` sets:
`none` where the key is absent. -/
structure ArticleData where
  title : Option Text
  description : Option Text
  slug : Option Text
  category : Option ArticleCategory
  articleStatus : Option ArticleStatus
  publishedAt : Option (Option Datetime)
  htmlContent : Option Text
  metaTitle : Option (Option Text)
  metaDescription : Option (Option Text)
  searchKeyword : Option (List Text)
  links : Option (List ArticleLink)
  faq : Option (List FaqEntry)
  instagramPostUrl : Option (List UrlTitle)
  youtubeVideoUrl : Option (List UrlTitle)
  coverImageUrl : Option (Option Text)
  authorId : Option Text
  authorName : Option Text
  deriving DecidableEq, Repr

/-- `setattr(article, field, value)` for every key. -/
def ArticleData.assign (data : ArticleData) (article : ArticleObject) : ArticleObject where
  id := article.id
  title := data.title.getD article.title
  description := data.description.getD article.description
  slug := data.slug.getD article.slug
  category := data.category.getD article.category
  htmlContent := data.htmlContent.getD article.htmlContent
  articleStatus := data.articleStatus.getD article.articleStatus
  publishedAt := data.publishedAt.getD article.publishedAt
  createdAt := article.createdAt
  updatedAt := article.updatedAt
  authorId := data.authorId.or article.authorId
  authorName := data.authorName.or article.authorName
  instagramPostUrl := data.instagramPostUrl.getD article.instagramPostUrl
  youtubeVideoUrl := data.youtubeVideoUrl.getD article.youtubeVideoUrl
  faq := data.faq.getD article.faq
  links := data.links.getD article.links
  coverImageUrl := data.coverImageUrl.getD article.coverImageUrl
  searchKeyword := data.searchKeyword.getD article.searchKeyword
  metaTitle := data.metaTitle.getD article.metaTitle
  metaDescription := data.metaDescription.getD article.metaDescription

/-- What a session has to write when it commits. An update carries the copy as it was loaded and as
it is now, since the flush compares the two. -/
inductive ArticleWrite where
  /-- `session.add(Article(**data))`. -/
  | insert (data : ArticleData)
  /-- A loaded copy and what was assigned to it. -/
  | update (loaded assigned : ArticleObject)
  /-- `session.delete(article)`. -/
  | delete (loaded : ArticleObject)
  deriving DecidableEq, Repr

/-- The driver's encoding of a datetime for a `TIMESTAMP(3)` without a zone: it
refuses an aware one. -/
def encodeDate : Option Datetime → Except PyError (Option Int)
  | none => .ok none
  | some ⟨wall, none⟩ => .ok (some (timestamp3 wall))
  | some ⟨_, some _⟩ => .error .dataError

/-- The row an `INSERT` stores: the columns' defaults where `data` is silent, and
the database's clock in `created_at` and `updated_at`. `slug` has no default. -/
def newRow (data : ArticleData) (nextId : Int) (clock : Nat) : Except PyError Article := do
  let publishedAt ← encodeDate (data.publishedAt.getD none)
  match data.slug with
  | none => .error .integrityError
  | some slug =>
    pure {
      id := nextId
      title := data.title.getD "Untitled".toList
      description := data.description.getD []
      slug := slug
      category := data.category.getD .blog
      htmlContent := data.htmlContent.getD []
      articleStatus := data.articleStatus.getD .draft
      publishedAt := publishedAt
      createdAt := timestamp3 (nowIst clock)
      updatedAt := timestamp3 (nowIst clock)
      authorId := data.authorId
      authorName := data.authorName
      instagramPostUrl := data.instagramPostUrl.getD []
      youtubeVideoUrl := data.youtubeVideoUrl.getD []
      faq := data.faq.getD []
      links := data.links.getD []
      coverImageUrl := data.coverImageUrl.getD none
      searchKeyword := data.searchKeyword.getD []
      metaTitle := data.metaTitle.getD none
      metaDescription := data.metaDescription.getD none }

/-- What the `UPDATE` of a flush leaves in the stored row: the columns whose
assigned value differs from the loaded one are written, `published_at` as the
driver encoded it. -/
def flushArticle (loaded assigned : ArticleObject) (encoded : Option Int) (stored : Article) :
    Article where
  id := stored.id
  title := flushCol loaded.title assigned.title stored.title
  description := flushCol loaded.description assigned.description stored.description
  slug := flushCol loaded.slug assigned.slug stored.slug
  category := flushCol loaded.category assigned.category stored.category
  htmlContent := flushCol loaded.htmlContent assigned.htmlContent stored.htmlContent
  articleStatus := flushCol loaded.articleStatus assigned.articleStatus stored.articleStatus
  publishedAt := if assigned.publishedAt = loaded.publishedAt then stored.publishedAt else encoded
  createdAt := flushColWith timestamp3 loaded.createdAt assigned.createdAt stored.createdAt
  updatedAt := flushColWith timestamp3 loaded.updatedAt assigned.updatedAt stored.updatedAt
  authorId := flushCol loaded.authorId assigned.authorId stored.authorId
  authorName := flushCol loaded.authorName assigned.authorName stored.authorName
  instagramPostUrl := flushCol loaded.instagramPostUrl assigned.instagramPostUrl
    stored.instagramPostUrl
  youtubeVideoUrl := flushCol loaded.youtubeVideoUrl assigned.youtubeVideoUrl
    stored.youtubeVideoUrl
  faq := flushCol loaded.faq assigned.faq stored.faq
  links := flushCol loaded.links assigned.links stored.links
  coverImageUrl := flushCol loaded.coverImageUrl assigned.coverImageUrl stored.coverImageUrl
  searchKeyword := flushCol loaded.searchKeyword assigned.searchKeyword stored.searchKeyword
  metaTitle := flushCol loaded.metaTitle assigned.metaTitle stored.metaTitle
  metaDescription := flushCol loaded.metaDescription assigned.metaDescription
    stored.metaDescription

/-- The `published_at` an update sends, which it does only if it changed. -/
def encodeChanged (loaded assigned : ArticleObject) : Except PyError (Option Int) :=
  if assigned.publishedAt = loaded.publishedAt then .ok none else encodeDate assigned.publishedAt

/-- `session.commit()` and `session.refresh(article)`: the table and, unless it
was deleted, the row the response is built from. -/
def commitArticle (t : ArticleTable) (clock : Nat) (nextId : Int) :
    ArticleWrite → Except PyError (ArticleTable × Option Article)
  | .insert data => do
    let row ← newRow data nextId clock
    let t' ← ArticleTable.write (t.rows ++ [row])
    pure (t', some row)
  | .update loaded assigned =>
    match t.find loaded.id with
    | none => .error (if assigned = loaded then .invalidRequestError else .staleDataError)
    | some stored =>
      if assigned = loaded then .ok (t, some stored)
      else do
        let encoded ← encodeChanged loaded assigned
        let t' ← ArticleTable.write
          (updateWhere ArticleOf.idCol loaded.id (flushArticle loaded assigned encoded) t.rows)
        pure (t', some (flushArticle loaded assigned encoded stored))
  | .delete loaded => do
    let t' ← ArticleTable.write (t.rows.filter fun a => a.id ≠ loaded.id)
    pure (t', none)

end SarkariWorld.Content
