import SarkariWorld.Site.Database

/-!
# The public router

`routers/v1/public.py`, from a request's parameters to its status and body. A
request is validated, handled and answered; the `request_id` of an error is left
out of its body.

`public_reads_noninterfering` is about two databases at once: whatever they
differ in besides their published articles, no anonymous reader can tell them
apart.

The endpoints are in the order of the router, each as the function of the articles it is;
none of them looks at an account. The schemas they answer with come first, with the fields
they show: an `ArticleCard` in a list, a `PublicArticle` on its own page. The way a page's
parameters are checked is in `PublicRequest.invalid`, before any of the endpoints runs.

For the theorem, every query is shown to depend on its table only through the rows it
selects. As a table is a list and the order of its rows is the database's own, each sorted
query has to break its ties; where it does, two permutations of the same rows give one
answer. The text search leaves ties to the engine, which is a parameter that gives one
order for one set of rows.
-/

namespace SarkariWorld.Site

open SarkariWorld.Lib SarkariWorld.Content Std

/-! ## Bodies -/

/-- A category with its slug in URLs and its label. -/
structure CategoryItem where
  slug : Text
  name : Text
  deriving DecidableEq, Repr

/-- `CATEGORY_LABELS`, in the order of `CATEGORY_SLUGS`. -/
def categoryLabels : List (Text × Text) :=
  [("latest-job".toList, "Latest Job".toList), ("admit-card".toList, "Admit Card".toList),
    ("result".toList, "Result".toList), ("answer-key".toList, "Answer Key".toList),
    ("admission".toList, "Admission".toList), ("syllabus".toList, "Syllabus".toList),
    ("scholarship".toList, "Scholarship".toList), ("tender".toList, "Tender".toList),
    ("sarkari-website".toList, "Sarkari Website".toList),
    ("sarkari-mobile-app".toList, "Sarkari Mobile App".toList), ("blog".toList, "Blog".toList)]

/-- What a list shows of an article. -/
structure ArticleCard where
  id : Int
  slug : Text
  title : Text
  description : Text
  category : Text
  coverImageUrl : Option Text
  metaTitle : Option Text
  metaDescription : Option Text
  publishedAt : Option Text
  createdAt : Text
  updatedAt : Text
  deriving DecidableEq, Repr

/-- A stored date on the wire. -/
def wireDate (stored : Int) : Text := toIstIso (naive stored)

/-- `ArticleCard.model_validate`, and its serialisation. -/
def articleCard (a : Article) : ArticleCard where
  id := a.id
  slug := a.slug
  title := a.title
  description := a.description
  category := categoryEnumToSlug a.category
  coverImageUrl := a.coverImageUrl
  metaTitle := a.metaTitle
  metaDescription := a.metaDescription
  publishedAt := a.publishedAt.map wireDate
  createdAt := wireDate a.createdAt
  updatedAt := wireDate a.updatedAt

/-- The page of an article: its card, its body and its links. -/
structure PublicArticle extends ArticleCard where
  htmlContent : Text
  searchKeyword : List Text
  instagramPostUrl : List UrlTitle
  youtubeVideoUrl : List UrlTitle
  faq : List FaqEntry
  links : List ArticleLink
  authorName : Option Text
  deriving DecidableEq, Repr

/-- `PublicArticle.model_validate`, which picks the schema's fields from the row. -/
def publicArticle (a : Article) : PublicArticle where
  toArticleCard := articleCard a
  htmlContent := a.htmlContent
  searchKeyword := a.searchKeyword
  instagramPostUrl := a.instagramPostUrl
  youtubeVideoUrl := a.youtubeVideoUrl
  faq := a.faq
  links := a.links
  authorName := a.authorName

/-- One line of the sitemap. -/
structure SitemapEntry where
  slug : Text
  category : Text
  publishedAt : Option Text
  updatedAt : Text
  deriving DecidableEq, Repr

/-- The line of an article, its dates as they go over the wire. -/
def sitemapEntry (a : Article) : SitemapEntry where
  slug := a.slug
  category := categoryEnumToSlug a.category
  publishedAt := a.publishedAt.map wireDate
  updatedAt := wireDate a.updatedAt

/-- The sitemap, with the number of all published articles and whether some are left out. -/
structure SitemapResponse where
  total : Nat
  truncated : Bool
  articles : List SitemapEntry
  deriving DecidableEq, Repr

/-- The answer of the search; `total` counts what it returns. -/
structure SearchResponse where
  query : Text
  total : Nat
  articles : List ArticleCard
  deriving DecidableEq, Repr

/-- The listing's envelope is a public page under other names. -/
structure CategoryPage where
  category : Text
  page : PublicPage ArticleCard
  deriving DecidableEq, Repr

/-- An error of one field, with the path of the field. -/
structure FieldError where
  path : String
  message : String
  deriving DecidableEq, Repr

/-- The bodies of the router's answers, errors among them. -/
inductive Body where
  | categories (items : List CategoryItem)
  | search (response : SearchResponse)
  | sitemap (response : SitemapResponse)
  | categoryPage (response : CategoryPage)
  | article (response : PublicArticle)
  | error (code message : String) (details : List FieldError)
  deriving DecidableEq, Repr

/-- What an anonymous reader can observe of an answer. -/
structure Response where
  status : Nat
  body : Body
  deriving DecidableEq, Repr

/-! ## Endpoints -/

/-- `GET /category`. The labels are constants. -/
def listCategories : List CategoryItem := categoryLabels.map fun label => ⟨label.1, label.2⟩

variable (env : Env) (engine : SearchEngine) (t : ArticleTable)

/-- `GET /search`. The query is echoed without the blanks around it. -/
def search (q : Text) : Except Failure SearchResponse := do
  let rows ← (searchPublished env engine t q searchResultMax).mapError Failure.raised
  pure ⟨strip q, rows.length, rows.map articleCard⟩

/-- `GET /sitemap`, with at most `sitemapMaxRows` entries. -/
def sitemap : SitemapResponse :=
  let rows := listForSitemap t sitemapMaxRows
  let total := countPublished t
  ⟨total, total > rows.length, rows.map sitemapEntry⟩

/-- `GET /{category}`, which is a 404 for a slug that is no category's. -/
def listCategory (category : Text) (page perPage : Option Int) : Except Failure CategoryPage :=
  match categorySlugToEnum env (some category) with
  | none => .error (.app (notFoundError ("Unknown category: " ++ String.ofList category)))
  | some resolved =>
    let params := publicPageParams page perPage
    let (rows, total) := findCategoryPage t resolved params.perPage.toNat params.offset.toNat
    -- The handler computes the same fields as `PublicPage.build`, inline.
    .ok ⟨category, .build (rows.map articleCard) total params⟩

/-- `GET /article/{slug}`. An article that is not published is not found. -/
def getArticle (slug : Text) : Except Failure PublicArticle :=
  match findPublishedBySlug t slug with
  | .error e => .error (.raised e)
  | .ok none => .error (.app (notFoundError ("Article not found: " ++ String.ofList slug)))
  | .ok (some a) => .ok (publicArticle a)

/-! ## Requests -/

/-- A request to the router: its path and query parameters. -/
inductive PublicRequest where
  | listCategories
  | search (q : Option Text)
  | sitemap
  | listCategory (category : Text) (page perPage : Option Int)
  | getArticle (slug : Text)
  deriving DecidableEq, Repr

/-- `Query(ge=1)`. -/
def positiveField (path : String) (value : Option Int) : List FieldError :=
  if ∀ v ∈ value, 1 ≤ v then [] else [⟨path, "Input should be greater than or equal to 1"⟩]

/-- `Query(min_length=1, max_length=SEARCH_QUERY_MAX)`, on a required parameter. -/
def queryField (q : Option Text) : List FieldError :=
  match q with
  | none => [⟨"q", "Field required"⟩]
  | some q =>
    if q.length < 1 then [⟨"q", "String should have at least 1 character"⟩]
    else if searchQueryMax < q.length then [⟨"q", "String should have at most 100 characters"⟩]
    else []

/-- The parameters that fail validation. -/
def PublicRequest.invalid : PublicRequest → List FieldError
  | .search q => queryField q
  | .listCategory _ page perPage => positiveField "page" page ++ positiveField "per_page" perPage
  | .listCategories | .sitemap | .getArticle _ => []

/-- The endpoint a request is routed to. -/
def handle : PublicRequest → Except Failure Body
  | .listCategories => .ok (.categories listCategories)
  | .search q => (search env engine t (q.getD [])).map .search
  | .sitemap => .ok (.sitemap (sitemap t))
  | .listCategory category page perPage =>
    (listCategory env t category page perPage).map .categoryPage
  | .getArticle slug => (getArticle t slug).map .article

/-- The exception handlers. -/
def answer : Except Failure Body → Response
  | .ok body => ⟨200, body⟩
  | .error (.app e) => ⟨e.statusCode, .error e.code e.message []⟩
  | .error (.raised _) => ⟨500, .error "internal_error" "Internal server error" []⟩

/-- The answer to a request. A request with a parameter that is not valid never reaches its
endpoint. -/
def respond (d : Database) (request : PublicRequest) : Response :=
  if request.invalid = [] then answer (handle env engine d.articles request)
  else ⟨422, .error "validation_error" "Request validation failed" request.invalid⟩

/-! ## Noninterference -/

/-- The two tables hold the same published articles. -/
def SamePublished (t t' : ArticleTable) : Prop :=
  ∀ a, a ∈ published t.rows ↔ a ∈ published t'.rows

section SamePublished

variable {env : Env} {engine : SearchEngine} {t t' : ArticleTable}

/-- The rows of a query that looks at published articles only. -/
theorem perm_of_public {p : Article → Bool} (hp : ∀ a, p a = true → a.articleStatus = .published)
    (h : SamePublished t t') : (t.rows.filter p).Perm (t'.rows.filter p) := by
  have hnodup : ∀ t : ArticleTable, (t.rows.filter p).Nodup := fun t =>
    (nodup_of_uniqueCol t.uniqueId).filter p
  rw [List.perm_ext_iff_of_nodup (hnodup t) (hnodup t')]
  intro a
  rw [List.mem_filter, List.mem_filter]
  constructor
  · rintro ⟨ha, hpa⟩
    exact ⟨(mem_published.mp ((h a).mp (mem_published.mpr ⟨ha, hp a hpa⟩))).1, hpa⟩
  · rintro ⟨ha, hpa⟩
    exact ⟨(mem_published.mp ((h a).mpr (mem_published.mpr ⟨ha, hp a hpa⟩))).1, hpa⟩

/-- The published rows of the two tables are the same up to their order. -/
theorem published_perm (h : SamePublished t t') : (published t.rows).Perm (published t'.rows) :=
  perm_of_public (fun _ ha => of_decide_eq_true ha) h

/-- A sorted query that breaks its ties by the primary key. -/
theorem newestFirst_eq {rows rows' : List Article} (hid : UniqueCol ArticleOf.idCol rows)
    (h : rows.Perm rows') : orderBy newestFirst rows = orderBy newestFirst rows' := by
  refine orderBy_eq_of_perm (separates_of_id hid fun a b he => ?_) h
  exact (descOn_eq (compareLex_eq_eq.mp he).2)

/-- A page and its total are the same: the rows of the category are a permutation, and the sort has
no ties. -/
theorem findCategoryPage_eq (h : SamePublished t t') (category : ArticleCategory)
    (limit offset : Nat) :
    findCategoryPage t category limit offset = findCategoryPage t' category limit offset := by
  have hperm : (inCategory t category).Perm (inCategory t' category) := (published_perm h).filter _
  have hid : UniqueCol ArticleOf.idCol (inCategory t category) :=
    t.uniqueId.sublist (List.filter_sublist.trans List.filter_sublist)
  unfold findCategoryPage
  dsimp only
  rw [newestFirst_eq hid hperm, hperm.length_eq]

/-- The count and the truncation flag come from the same rows as the list. -/
theorem sitemap_eq (h : SamePublished t t') : sitemap t = sitemap t' := by
  have hid : UniqueCol ArticleOf.idCol (published t.rows) := t.uniqueId.sublist List.filter_sublist
  have hrows : listForSitemap t sitemapMaxRows = listForSitemap t' sitemapMaxRows := by
    unfold listForSitemap
    rw [newestFirst_eq hid (published_perm h)]
  have htotal : countPublished t = countPublished t' := (published_perm h).length_eq
  unfold sitemap
  rw [hrows, htotal]

/-- A slug is one row's at most, so the row found does not depend on the order. -/
theorem findPublishedBySlug_congr (h : SamePublished t t') (slug : Text) :
    findPublishedBySlug t slug = findPublishedBySlug t' slug := by
  by_cases hstorable : Storable slug
  · rw [findPublishedBySlug_eq hstorable, findPublishedBySlug_eq hstorable,
      lookup_eq_of_mem_iff (published_uniqueSlug t) (published_uniqueSlug t') h]
  · unfold findPublishedBySlug
    rw [if_neg hstorable, if_neg hstorable]

/-- The prefilter's `LIMIT` meets the same rows in the same order. -/
theorem searchPublished_eq (h : SamePublished t t') (query : Text) (limit : Int) :
    searchPublished env engine t query limit = searchPublished env engine t' query limit := by
  have hsql : ∀ q qnorm tokens limit,
      searchSql engine t q qnorm tokens limit = searchSql engine t' q qnorm tokens limit := by
    intro q qnorm tokens limit
    have hmatching : (t.rows.filter (matchesQuery engine q qnorm)).Perm
        (t'.rows.filter (matchesQuery engine q qnorm)) := by
      refine perm_of_public (fun a ha => ?_) h
      rw [matchesQuery, Bool.and_eq_true, decide_eq_true_eq] at ha
      exact ha.1
    unfold searchSql
    dsimp only
    rw [engine.scan_congr _ _ (t.uniqueId.sublist List.filter_sublist) hmatching]
  unfold searchPublished
  simp only [hsql]

/-- Each endpoint asks the articles through one of these queries. -/
theorem handle_eq (h : SamePublished t t') (request : PublicRequest) :
    handle env engine t request = handle env engine t' request := by
  cases request with
  | listCategories => rfl
  | search q => simp only [handle, search, searchPublished_eq h]
  | sitemap => simp only [handle, sitemap_eq h]
  | listCategory category page perPage => simp only [handle, listCategory, findCategoryPage_eq h]
  | getArticle slug => simp only [handle, getArticle, findPublishedBySlug_congr h]

end SamePublished

/-- **Public reads are non-interfering.** Two databases with the same published
articles answer every anonymous request alike. -/
theorem public_reads_noninterfering (env : Env) (engine : SearchEngine) {d d' : Database}
    (h : SamePublished d.articles d'.articles) (request : PublicRequest) :
    respond env engine d request = respond env engine d' request := by
  unfold respond
  rw [handle_eq h]

/-- A site with one published article and nothing else. -/
def sampleSite : Database where
  users := .empty
  articles := sampleTable
  bookmarks := .empty
  webUrls := .empty

/-- The same site with a draft, an archived article, a bookmark and a web URL
besides. -/
def busySite : Database where
  users := sampleSite.users
  articles := ⟨[sampleArticle 2 "result-draft".toList .draft none,
    sampleArticle 1 "result".toList .published (some 0),
    sampleArticle 3 "result-old".toList .archived (some 0)], by decide, by decide, by decide⟩
  bookmarks := sampleBookmarks
  webUrls := ⟨[⟨1, "https://a.in".toList, [], "a.in".toList, none, 0, 0⟩], by decide, by decide,
    by decide⟩

theorem samples_same_published : SamePublished busySite.articles sampleSite.articles := by
  have hrows : published busySite.articles.rows = published sampleSite.articles.rows := by decide
  intro a
  rw [hrows]

/-- A search that the hidden articles match as well finds one. -/
theorem hidden_articles_not_found :
    respond sampleEnv sampleEngine busySite (.search (some "result".toList)) =
      respond sampleEnv sampleEngine sampleSite (.search (some "result".toList)) :=
  public_reads_noninterfering sampleEnv sampleEngine samples_same_published _

end SarkariWorld.Site
