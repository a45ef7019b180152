import SarkariWorld.Content.Posts

/-!
# The columns of an article

A row of `Article` has twenty columns, and seventeen of them are written by requests.
An `ArticleColumn` is one of these: its key in the data dictionary, its attribute in the
session's copy and its place in the row, with what an `INSERT` and an `UPDATE` make of
them. `columns_complete` says that none is forgotten: two rows that agree on all of them
differ at most in their number and their two stamps.

The columns are a list, so that what holds of all of them is said once: an insertion
stores the encoded value of the key or the default, an update changes the column exactly
if its value in the copy is another one, and nothing else reaches it. `publishedAtColumn`
is the only one with an encoding, and `slugColumn` the only one without a default.

The other three columns are the number, which the sequence gives, and the two stamps
`created_at` and `updated_at`. They are the database's and the service's own, and no key
of a body reaches them.
-/

namespace SarkariWorld.Content

open SarkariWorld.Lib

/-! ## The row of an `INSERT` -/

/-- The new row, once its slug and its date are known. -/
def insertedRow (data : ArticleData) (slug : Text) (date : Option Int) (nextId : Int)
    (clock : Nat) : Article where
  id := nextId
  title := data.title.getD "Untitled".toList
  description := data.description.getD []
  slug := slug
  category := data.category.getD .blog
  htmlContent := data.htmlContent.getD []
  articleStatus := data.articleStatus.getD .draft
  publishedAt := date
  createdAt := timestamp3 (nowIst clock)
  updatedAt := timestamp3 (nowIst clock)
  authorId := data.authorId
  authorName := data.authorName
  instagramPostUrl := data.instagramPostUrl.getD []
  youtubeVideoUrl := data.youtubeVideoUrl.getD []
  faq := data.faq.getD []
  links := data.links.getD []
  coverImageUrl := data.coverImageUrl.getD none
  searchKeyword := data.searchKeyword.getD []
  metaTitle := data.metaTitle.getD none
  metaDescription := data.metaDescription.getD none

/-- A row that is made has a slug, and a date that the driver takes; everything else is
`insertedRow`. -/
theorem newRow_ok {data : ArticleData} {nextId : Int} {clock : Nat} {row : Article}
    (h : newRow data nextId clock = .ok row) :
    ∃ slug date, data.slug = some slug ∧ encodeDate (data.publishedAt.getD none) = .ok date ∧
      row = insertedRow data slug date nextId clock := by
  obtain ⟨date, hdate, h⟩ := bind_eq_ok.mp h
  split at h
  next => cases h
  next slug hslug => exact ⟨slug, date, hslug, hdate, (Except.ok.inj h).symm⟩

/-! ## Columns -/

/-- A column, with the three places it has and the four laws of insertion, assignment and flush. -/
structure ArticleColumn where
  /-- What the data and the session's copy hold. -/
  Value : Type
  /-- What the row holds. -/
  Stored : Type
  key : ArticleData → Option Value
  held : ArticleObject → Value
  stored : Article → Stored
  /-- What the driver sends. -/
  encode : Value → Except PyError Stored
  /-- What an `INSERT` stores where the key is absent. `slug` has no default. -/
  default : Option Stored
  created : ∀ {data nextId clock row}, newRow data nextId clock = .ok row →
    (∃ value, key data = some value ∧ encode value = .ok (stored row)) ∨
      key data = none ∧ default = some (stored row)
  assigned : ∀ data article now,
    held { data.assign article with updatedAt := now } = (key data).getD (held article)
  kept : ∀ {loaded assigned} encoded row, held assigned = held loaded →
    stored (flushArticle loaded assigned encoded row) = stored row
  flushed : ∀ {loaded assigned encoded} row, held assigned ≠ held loaded →
    encodeChanged loaded assigned = .ok encoded →
      encode (held assigned) = .ok (stored (flushArticle loaded assigned encoded row))

/-- The data has a value for the column, and this is how it is stored. -/
def ArticleColumn.Sent (c : ArticleColumn) (data : ArticleData) (v : c.Stored) : Prop :=
  ∃ value, c.key data = some value ∧ c.encode value = .ok v

/-- A row made from the data has this in the column. -/
def ArticleColumn.Created (c : ArticleColumn) (data : ArticleData) (v : c.Stored) : Prop :=
  c.Sent data v ∨ c.key data = none ∧ c.default = some v

/-- A column that holds what it is given. -/
def plainColumn {β : Type} [DecidableEq β] (key : ArticleData → Option β)
    (held : ArticleObject → β) (stored : Article → β) (default : Option β)
    (hcreated : ∀ data slug date nextId clock, data.slug = some slug →
      (key data).or default = some (stored (insertedRow data slug date nextId clock)))
    (hassigned : ∀ data article now,
      held { data.assign article with updatedAt := now } = (key data).getD (held article))
    (hflush : ∀ loaded assigned encoded row, stored (flushArticle loaded assigned encoded row) =
      flushCol (held loaded) (held assigned) (stored row)) : ArticleColumn where
  Value := β
  Stored := β
  key := key
  held := held
  stored := stored
  encode := .ok
  default := default
  created := by
    intro data nextId clock row h
    obtain ⟨slug, date, hslug, -, rfl⟩ := newRow_ok h
    have hvalue := hcreated data slug date nextId clock hslug
    cases hkey : key data with
    -- sent: the new row has the value; if not, it has the default
    | some value =>
      rw [hkey] at hvalue
      exact .inl ⟨value, rfl, congrArg Except.ok (Option.some.inj hvalue)⟩
    | none =>
      rw [hkey] at hvalue
      exact .inr ⟨rfl, hvalue⟩
  assigned := hassigned
  kept := by
    intro loaded assigned encoded row hsame
    rw [hflush, hsame, flushCol_clean]
  flushed := by
    intro loaded assigned encoded row hdiffers _
    rw [hflush, flushCol_dirty hdiffers]

/-- A column with a default of its own. -/
def defaultColumn {β : Type} [DecidableEq β] (key : ArticleData → Option β)
    (held : ArticleObject → β) (stored : Article → β) (default : β)
    (hcreated : ∀ data slug date nextId clock,
      stored (insertedRow data slug date nextId clock) = (key data).getD default)
    (hassigned : ∀ data article now,
      held { data.assign article with updatedAt := now } = (key data).getD (held article))
    (hflush : ∀ loaded assigned encoded row, stored (flushArticle loaded assigned encoded row) =
      flushCol (held loaded) (held assigned) (stored row)) : ArticleColumn :=
  plainColumn key held stored (some default)
    (fun data slug date nextId clock _ => by
      rw [hcreated, Option.or_some])
    hassigned hflush

/-- `title`, which is "Untitled" where the key is absent. -/
def titleColumn : ArticleColumn :=
  defaultColumn ArticleData.title ArticleOf.title ArticleOf.title "Untitled".toList
    (fun _ _ _ _ _ => rfl) (fun _ _ _ => rfl) fun _ _ _ _ => rfl

/-- `description`, empty where the key is absent. -/
def descriptionColumn : ArticleColumn :=
  defaultColumn ArticleData.description ArticleOf.description ArticleOf.description []
    (fun _ _ _ _ _ => rfl) (fun _ _ _ => rfl) fun _ _ _ _ => rfl

/-- `slug`, without which nothing is inserted. -/
def slugColumn : ArticleColumn :=
  plainColumn ArticleData.slug ArticleOf.slug ArticleOf.slug none
    (fun data slug date nextId clock hslug => by rw [hslug]; rfl) (fun _ _ _ => rfl)
    fun _ _ _ _ => rfl

/-- `category`, the blog where the key is absent. -/
def categoryColumn : ArticleColumn :=
  defaultColumn ArticleData.category ArticleOf.category ArticleOf.category .blog
    (fun _ _ _ _ _ => rfl) (fun _ _ _ => rfl) fun _ _ _ _ => rfl

/-- `html_content`, empty where the key is absent. -/
def htmlContentColumn : ArticleColumn :=
  defaultColumn ArticleData.htmlContent ArticleOf.htmlContent ArticleOf.htmlContent []
    (fun _ _ _ _ _ => rfl) (fun _ _ _ => rfl) fun _ _ _ _ => rfl

/-- `article_status`: an article begins as a draft. -/
def articleStatusColumn : ArticleColumn :=
  defaultColumn ArticleData.articleStatus ArticleOf.articleStatus ArticleOf.articleStatus .draft
    (fun _ _ _ _ _ => rfl) (fun _ _ _ => rfl) fun _ _ _ _ => rfl

/-- The one column whose values the driver encodes. -/
def publishedAtColumn : ArticleColumn where
  Value := Option Datetime
  Stored := Option Int
  key := ArticleData.publishedAt
  held := ArticleOf.publishedAt
  stored := ArticleOf.publishedAt
  -- the one column whose value is converted, and the conversion can fail
  encode := encodeDate
  default := some none
  created := by
    intro data nextId clock row h
    obtain ⟨slug, date, -, hdate, rfl⟩ := newRow_ok h
    cases hkey : data.publishedAt with
    | some value =>
      rw [hkey] at hdate
      exact .inl ⟨value, rfl, hdate⟩
    | none =>
      rw [hkey] at hdate
      exact .inr ⟨rfl, congrArg some (Except.ok.inj hdate)⟩
  assigned := fun _ _ _ => rfl
  kept := by
    intro loaded assigned encoded row hsame
    exact if_pos hsame
  flushed := by
    intro loaded assigned encoded row hdiffers hencoded
    rw [encodeChanged, if_neg hdiffers] at hencoded
    rw [hencoded]
    exact congrArg Except.ok (if_neg hdiffers).symm

/-- The author's keys are never null. -/
theorem or_eq_getD {β : Type} (value old : Option β) :
    value.or old = (value.map some).getD old := by
  cases value <;> rfl

/-- `author_id`, of which the data has a number or nothing. -/
def authorIdColumn : ArticleColumn :=
  defaultColumn (fun data => data.authorId.map some) ArticleOf.authorId ArticleOf.authorId none
    (fun data _ _ _ _ => (Option.or_none (o := data.authorId)).symm.trans (or_eq_getD _ _))
    (fun data article _ => or_eq_getD data.authorId article.authorId) fun _ _ _ _ => rfl

/-- `author_name`, likewise. -/
def authorNameColumn : ArticleColumn :=
  defaultColumn (fun data => data.authorName.map some) ArticleOf.authorName ArticleOf.authorName
    none (fun data _ _ _ _ => (Option.or_none (o := data.authorName)).symm.trans (or_eq_getD _ _))
    (fun data article _ => or_eq_getD data.authorName article.authorName) fun _ _ _ _ => rfl

def instagramPostUrlColumn : ArticleColumn :=
  defaultColumn ArticleData.instagramPostUrl ArticleOf.instagramPostUrl
    ArticleOf.instagramPostUrl [] (fun _ _ _ _ _ => rfl) (fun _ _ _ => rfl) fun _ _ _ _ => rfl

def youtubeVideoUrlColumn : ArticleColumn :=
  defaultColumn ArticleData.youtubeVideoUrl ArticleOf.youtubeVideoUrl ArticleOf.youtubeVideoUrl []
    (fun _ _ _ _ _ => rfl) (fun _ _ _ => rfl) fun _ _ _ _ => rfl

def faqColumn : ArticleColumn :=
  defaultColumn ArticleData.faq ArticleOf.faq ArticleOf.faq []
    (fun _ _ _ _ _ => rfl) (fun _ _ _ => rfl) fun _ _ _ _ => rfl

def linksColumn : ArticleColumn :=
  defaultColumn ArticleData.links ArticleOf.links ArticleOf.links []
    (fun _ _ _ _ _ => rfl) (fun _ _ _ => rfl) fun _ _ _ _ => rfl

def coverImageUrlColumn : ArticleColumn :=
  defaultColumn ArticleData.coverImageUrl ArticleOf.coverImageUrl ArticleOf.coverImageUrl none
    (fun _ _ _ _ _ => rfl) (fun _ _ _ => rfl) fun _ _ _ _ => rfl

def searchKeywordColumn : ArticleColumn :=
  defaultColumn ArticleData.searchKeyword ArticleOf.searchKeyword ArticleOf.searchKeyword []
    (fun _ _ _ _ _ => rfl) (fun _ _ _ => rfl) fun _ _ _ _ => rfl

def metaTitleColumn : ArticleColumn :=
  defaultColumn ArticleData.metaTitle ArticleOf.metaTitle ArticleOf.metaTitle none
    (fun _ _ _ _ _ => rfl) (fun _ _ _ => rfl) fun _ _ _ _ => rfl

def metaDescriptionColumn : ArticleColumn :=
  defaultColumn ArticleData.metaDescription ArticleOf.metaDescription ArticleOf.metaDescription
    none (fun _ _ _ _ _ => rfl) (fun _ _ _ => rfl) fun _ _ _ _ => rfl

/-- All of them, in the order of the data dictionary, more or less. -/
def columns : List ArticleColumn :=
  [titleColumn, descriptionColumn, slugColumn, categoryColumn, htmlContentColumn,
    articleStatusColumn, publishedAtColumn, authorIdColumn, authorNameColumn,
    instagramPostUrlColumn, youtubeVideoUrlColumn, faqColumn, linksColumn, coverImageUrlColumn,
    searchKeywordColumn, metaTitleColumn, metaDescriptionColumn]

/-- **No column is forgotten.** -/
theorem columns_complete {a b : Article} (h : ∀ c ∈ columns, c.stored a = c.stored b) :
    { a with id := b.id, createdAt := b.createdAt, updatedAt := b.updatedAt } = b := by
  simp only [columns, List.forall_mem_cons] at h
  obtain ⟨htitle, hdescription, hslug, hcategory, hhtmlContent, harticleStatus, hpublishedAt,
    hauthorId, hauthorName, hinstagram, hyoutube, hfaq, hlinks, hcoverImageUrl, hsearchKeyword,
    hmetaTitle, hmetaDescription, -⟩ := h
  cases a
  cases b
  cases htitle
  cases hdescription
  cases hslug
  cases hcategory
  cases hhtmlContent
  cases harticleStatus
  cases hpublishedAt
  cases hauthorId
  cases hauthorName
  cases hinstagram
  cases hyoutube
  cases hfaq
  cases hlinks
  cases hcoverImageUrl
  cases hsearchKeyword
  cases hmetaTitle
  cases hmetaDescription
  rfl

end SarkariWorld.Content
