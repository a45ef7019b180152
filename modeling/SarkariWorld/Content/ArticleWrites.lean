import SarkariWorld.Content.Payload

/-!
# Request bodies and `build_article_data`

The bodies of the three endpoints that write articles, as Pydantic accepts them:
a key is omitted, null or set (`Field`), and a body carries the proof that its
values obey the schema, so a body that would be answered with a validation error
cannot be built. All three are dumped to one `Payload`, from which
`buildArticleData` makes the keyword arguments of a row.

What a body holds is what `model_dump(exclude_unset=True)` hands on: the values as they
were sent, an explicit null, and nothing under a key that was left out. The three are told
apart down to the row, since an update assigns exactly the keys that were sent.

`build_article_data` tests each key by itself and calls the normaliser of its field. A
creation that names no status is a draft by the default of the column, which is not a key
of the data; the two author columns are set for every request with an actor, and a request
that brings markdown has it rendered in place of the HTML.
-/

namespace SarkariWorld.Content

open SarkariWorld.Lib

/-- A key of a request body. -/
inductive Field (α : Type) where
  | omitted
  | null
  | value (a : α)
  deriving DecidableEq, Repr

variable {α : Type}

/-- `payload.get(key)`. -/
def Field.get : Field α → Option α
  | .value a => some a
  | _ => none

/-- `payload[key]`, `none` where the key is not in the payload. -/
def Field.sent : Field α → Option (Option α)
  | .omitted => none
  | .null => some none
  | .value a => some (some a)

/-- The value, if one is sent, passes a check. -/
def Field.All (p : α → Prop) (field : Field α) : Prop := ∀ a ∈ field.get, p a

instance (p : α → Prop) [DecidablePred p] (field : Field α) : Decidable (field.All p) :=
  inferInstanceAs (Decidable (∀ a ∈ field.get, p a))

/-! ## The bodies -/

/-- `ArticleBase`: the fields all three bodies share. -/
structure ArticleBase where
  title : Field Text
  description : Field Text
  category : Field Text
  metaTitle : Field Text
  metaDescription : Field Text
  searchKeyword : Field SearchKeyword
  links : Field (List LinkItem)
  faq : Field (List FaqItem)
  instagramPostUrl : Field (List Json)
  youtubeVideoUrl : Field (List Json)
  coverImageUrl : Field Text
  publishedAt : Field Datetime

/-- The constraints of `ArticleBase`, `LinkItem` and `FaqItem`. -/
def ArticleBase.Accepted (body : ArticleBase) : Prop :=
  body.title.All (fun t => t.length ≤ titleMax) ∧
    body.description.All (fun t => t.length ≤ descriptionMax) ∧
    body.links.All (fun ls => ∀ l ∈ ls, (∀ t ∈ l.cta, t.length ≤ 60) ∧ l.url.length ≤ 2048) ∧
    body.faq.All (fun es => ∀ e ∈ es, 1 ≤ e.question.length ∧ e.question.length ≤ 300 ∧
      1 ≤ e.answer.length ∧ e.answer.length ≤ 1500)

instance (body : ArticleBase) : Decidable body.Accepted :=
  inferInstanceAs (Decidable (_ ∧ _ ∧ _ ∧ _))

/-- `^[a-z0-9-]+$`, on one character. -/
def slugChar (c : Char) : Bool := c.isLower || c.isDigit || c == '-'

/-- The constraints on `slug`. -/
def ValidSlug (slug : Text) : Prop :=
  1 ≤ slug.length ∧ slug.length ≤ slugMax ∧ slug.all slugChar = true

instance (slug : Text) : Decidable (ValidSlug slug) := inferInstanceAs (Decidable (_ ∧ _ ∧ _))

/-- `title: str = Field(min_length=1, max_length=TITLE_MAX)`, set in every body
that has it. -/
def RequiredTitle (base : ArticleBase) : Prop :=
  ∃ title, base.title = .value title ∧ 1 ≤ title.length

/-- The body of `POST /admin/posts`, with the proofs that the schema asks for: the title and the
slug have to be there. -/
structure ArticleCreate extends ArticleBase where
  slug : Text
  htmlContent : Field Text
  articleStatus : Field ArticleStatus
  accepted : toArticleBase.Accepted
  title_sent : RequiredTitle toArticleBase
  slug_valid : ValidSlug slug
  html_short : htmlContent.All fun t => t.length ≤ htmlContentMax

/-- The body of `PUT /admin/posts/{slug}`: every key may be left out. -/
structure ArticleUpdate extends ArticleBase where
  slug : Field Text
  htmlContent : Field Text
  articleStatus : Field ArticleStatus
  accepted : toArticleBase.Accepted
  slug_valid : slug.All ValidSlug
  html_short : htmlContent.All fun t => t.length ≤ htmlContentMax

/-- The ingest body: it has neither `html_content` nor `article_status`. -/
structure ArticlePublish extends ArticleBase where
  slug : Text
  content : Field Text
  accepted : toArticleBase.Accepted
  title_sent : RequiredTitle toArticleBase
  slug_valid : ValidSlug slug
  content_short : content.All fun t => t.length ≤ htmlContentMax

/-- `payload.model_dump(exclude_unset=True)`. -/
structure Payload extends ArticleBase where
  slug : Field Text
  htmlContent : Field Text
  articleStatus : Field ArticleStatus

/-- What `build_article_data` is given of the body of a creation. -/
def ArticleCreate.dump (body : ArticleCreate) : Payload :=
  ⟨body.toArticleBase, .value body.slug, body.htmlContent, body.articleStatus⟩

/-- What it is given of the body of an update. -/
def ArticleUpdate.dump (body : ArticleUpdate) : Payload :=
  ⟨body.toArticleBase, body.slug, body.htmlContent, body.articleStatus⟩

/-- The dump of an ingest body, after `content` is popped from it. -/
def ArticlePublish.dump (body : ArticlePublish) : Payload :=
  ⟨body.toArticleBase, .value body.slug, .omitted, .omitted⟩

/-! ## The row's data -/

/-- What `build_article_data` reads of the acting `User`. -/
structure Author where
  id : Int
  name : Text
  deriving DecidableEq, Repr

/-- `build_article_data`. Only keys that are in the payload are in the data. -/
def buildArticleData (env : Env) (payload : Payload) (author : Option Author)
    (markdownContent : Option Text) : ArticleData where
  title := payload.title.sent.map fun v => strip (v.getD [])
  description := payload.description.sent.map fun v => strip (v.getD [])
  -- An empty slug is no slug: the row keeps its own.
  slug :=
    match payload.slug.get with
    | none | some [] => none
    | some slug => some (env.lower (strip slug))
  -- A category nobody knows is filed under the blog.
  category := payload.category.get.map fun v => (categorySlugToEnum env (some v)).getD .blog
  articleStatus := payload.articleStatus.get
  publishedAt := payload.publishedAt.sent
  -- Markdown is rendered and then sanitised, HTML is sanitised.
  htmlContent :=
    match markdownContent with
    | some markdown => some (renderMarkdown env.clean env.renderMarkdown (some markdown))
    | none => payload.htmlContent.sent.map (sanitizeArticleHtml env.clean)
  metaTitle := payload.metaTitle.sent.map normaliseMetaTitle
  metaDescription := payload.metaDescription.sent.map normaliseMetaDescription
  searchKeyword := payload.searchKeyword.sent.map (normaliseSearchKeyword env)
  links := payload.links.sent.map (normaliseArticleLinks env)
  faq := payload.faq.sent.map normaliseFaqList
  instagramPostUrl := payload.instagramPostUrl.sent.map (normaliseUrlTitleList env)
  youtubeVideoUrl := payload.youtubeVideoUrl.sent.map (normaliseUrlTitleList env)
  coverImageUrl := payload.coverImageUrl.sent.map (normaliseCoverImageUrl env)
  authorId := author.map fun a => strInt a.id
  authorName := author.map Author.name

/-- Without a slug in the body there is none in the data, and the row keeps its own. -/
theorem buildArticleData_no_slug {env : Env} {payload : Payload} (author : Option Author)
    (markdown : Option Text) (hslug : payload.slug.get = none) :
    (buildArticleData env payload author markdown).slug = none := by
  unfold buildArticleData
  dsimp only
  rw [hslug]

/-- Whatever the body holds, every list of the data keeps to its cap. -/
theorem buildArticleData_lists_capped (env : Env) (payload : Payload) (author : Option Author)
    (markdownContent : Option Text) :
    let data := buildArticleData env payload author markdownContent
    (∀ l ∈ data.searchKeyword, l.length ≤ searchKeywordMaxItems) ∧
      (∀ l ∈ data.links, l.length ≤ linksMax) ∧ (∀ l ∈ data.faq, l.length ≤ faqMaxItems) ∧
      (∀ l ∈ data.instagramPostUrl, l.length ≤ urlTitleListMax) ∧
      ∀ l ∈ data.youtubeVideoUrl, l.length ≤ urlTitleListMax := by
  refine ⟨fun l hl => ?_, fun l hl => ?_, fun l hl => ?_, fun l hl => ?_, fun l hl => ?_⟩
  all_goals
    obtain ⟨value, -, rfl⟩ := Option.map_eq_some_iff.mp hl
  · unfold normaliseSearchKeyword
    split
    · exact Nat.zero_le _
    · exact collectUpTo_length _ (by decide)
    · exact collectUpTo_length _ (by decide)
  · exact collectUpTo_length _ (by decide)
  · exact collectUpTo_length _ (by decide)
  · exact collectUpTo_length _ (by decide)
  · exact collectUpTo_length _ (by decide)

end SarkariWorld.Content
