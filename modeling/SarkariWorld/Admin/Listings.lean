import SarkariWorld.Admin.Days
import SarkariWorld.Auth.User
import SarkariWorld.Content.WebUrl
import SarkariWorld.Lib.Like
import SarkariWorld.Site.Public

/-!
# The console's listings

Four queries of the admin services page through a table: articles, web URLs, bookmarks
and users. Each adds a condition for every parameter that is there, counts what is
left, and cuts a page from it in an order of its own. The two that take a text or a
day build their conditions from strings, which is where a request can fail.

What a parameter means is written beside the column it is compared with, as the services
do it. The functions return the rows of the page and the count together, because the
service asks for both in one call and hands both to `AdminPage.build`.

Parameters that are absent or empty add no condition, as `if query:` and `if date_from:`
have it. A text is stripped and put between two `%`; a day is turned into bounds by
`ist_day_bounds`, which may raise. The rows of the page and their number are computed from
one filtered list, so that what a theorem says of the one it can say of the other.
-/

namespace SarkariWorld.Admin

open SarkariWorld.Lib SarkariWorld.Content SarkariWorld.Site Std

/-- What the listings take from Unicode and from the database. -/
structure ListingEnv where
  content : Content.Env
  decimals : Decimals
  /-- How `ILIKE` folds case. -/
  folding : CaseFold

/-- How a listing fails. Nothing catches it. -/
inductive ListingError where
  | day (error : DayError)
  /-- `DataError`: a value the driver cannot bind. -/
  | dataError
  deriving DecidableEq, Repr

variable (env : ListingEnv)

/-! ## Conditions -/

/-- `if parameter:`. An empty string is none. -/
def supplied (parameter : Option Text) : Option Text := parameter.filter fun t => t ≠ []

/-- `f"%{query.strip()}%"`. -/
def patternOf (query : Text) : Text := around (strip query)

/-- `or_(column.ilike(pattern), ...)`, over these columns. -/
def textFilter {ρ : Type} (query : Option Text) (columns : ρ → List Text) (row : ρ) : Bool :=
  (supplied query).all fun q => (columns row).any fun t => ilike env.folding (patternOf q) t

/-- The pattern can be bound. -/
def Bindable (query : Option Text) : Prop := ∀ q ∈ query, Storable q

instance (query : Option Text) : Decidable (Bindable query) :=
  inferInstanceAs (Decidable (∀ q ∈ query, Storable q))

/-- The bounds of the day a filter names, if there is a filter. -/
def dayFilter (day : Option Text) : Except ListingError (Option (Int × Int)) :=
  match supplied day with
  | none => .ok none
  | some day => ((istDayBounds env.decimals day).map some).mapError .day

/-! ## Articles -/

/-- `date_field`, which names the column that is filtered and sorted by. -/
inductive DateField where
  | createdAt
  | updatedAt
  deriving DecidableEq, Repr

/-- The column that the parameter `date_field` chooses. -/
def DateField.column : DateField → Article → Int
  | .createdAt => ArticleOf.createdAt
  | .updatedAt => ArticleOf.updatedAt

/-- `ORDER BY column DESC, id DESC`. -/
def adminOrder (field : DateField) : Article → Article → Ordering :=
  compareLex (descOn field.column) (descOn ArticleOf.id)

/-- The `WHERE` of `find_for_admin_page`, from the bounds of its days. -/
def adminFilter (query : Option Text) (category : Option ArticleCategory)
    (status : Option ArticleStatus) (field : DateField) (first last : Option (Int × Int))
    (a : Article) : Bool :=
  textFilter env query (fun a : Article => [a.title, a.slug]) a &&
    category.all (fun c => a.category = c) && status.all (fun s => a.articleStatus = s) &&
    first.all (fun bounds => bounds.1 ≤ field.column a) &&
    last.all fun bounds => field.column a < bounds.2

/-- `services.articles.find_for_admin_page`: the two day bounds are computed first, so a bad day
fails before a bad text does. The rows are counted before the page is cut. -/
def findForAdminPage (t : ArticleTable) (query : Option Text) (category : Option ArticleCategory)
    (status : Option ArticleStatus) (field : DateField) (dateFrom dateTo : Option Text)
    (params : PageParams) : Except ListingError (List Article × Nat) := do
  let first ← dayFilter env dateFrom
  let last ← dayFilter env dateTo
  if Bindable query then
    let rows := t.rows.filter (adminFilter env query category status field first last)
    pure (params.slice (orderBy (adminOrder field) rows), rows.length)
  else throw .dataError

/-- `^\d{4}-\d{2}-\d{2}$`. -/
def dayPattern (decimals : Decimals) : Text → Bool
  | [a, b, c, d, '-', e, f, '-', g, h] =>
    [a, b, c, d, e, f, g, h].all fun c => (decimals.value c).isSome
  | _ => false

/-- The card of the console's listing: the public one, and the status. -/
structure AdminArticleCard extends ArticleCard where
  articleStatus : ArticleStatus
  deriving DecidableEq, Repr

/-- A row as such a card. -/
def adminArticleCard (a : Article) : AdminArticleCard where
  toArticleCard := articleCard a
  articleStatus := a.articleStatus

/-- The parameters of `list_posts`, as FastAPI accepts them. -/
structure ListPosts (decimals : Decimals) where
  q : Option Text
  category : Option Text
  articleStatus : Option ArticleStatus
  dateField : DateField
  dateFrom : Option Text
  dateTo : Option Text
  page : Option Int
  perPage : Option Int
  q_short : ∀ t ∈ q, t.length ≤ 200
  dateFrom_valid : ∀ t ∈ dateFrom, dayPattern decimals t = true
  dateTo_valid : ∀ t ∈ dateTo, dayPattern decimals t = true
  page_valid : ∀ n ∈ page, 1 ≤ n
  perPage_valid : ∀ n ∈ perPage, 1 ≤ n

/-- `category_slug_to_enum(category) if category else None`. -/
def categoryParameter (category : Option Text) : Option ArticleCategory :=
  (supplied category).bind fun c => categorySlugToEnum env.content (some c)

/-- `list_posts`. -/
def listPosts (t : ArticleTable) (request : ListPosts env.decimals) :
    Except ListingError (AdminPage AdminArticleCard) := do
  let params := adminPageParams request.page request.perPage
  let (rows, total) ← findForAdminPage env t request.q (categoryParameter env request.category)
    request.articleStatus request.dateField request.dateFrom request.dateTo params
  pure (.build (rows.map adminArticleCard) total params)

/-! ## Web URLs -/

/-- The two orders of the URL listing. -/
inductive UrlSort where
  | oldest
  | newest
  deriving DecidableEq, Repr

/-- The three values of the parameter `viewed`. -/
inductive Viewed where
  | all
  | yes
  | no
  deriving DecidableEq, Repr

/-- Never-viewed rows are first among the oldest and last among the newest: a null is the
least value of its column. -/
def urlOrder : UrlSort → WebUrl → WebUrl → Ordering
  | .oldest => compareLex (compareOn WebUrl.lastViewedAt) <|
      compareLex (compareOn WebUrl.createdAt) (compareOn WebUrl.id)
  | .newest => compareLex (descOn WebUrl.lastViewedAt) <|
      compareLex (descOn WebUrl.createdAt) (compareOn WebUrl.id)

/-- The `WHERE` of `list_urls`, from the bounds of its day. -/
def urlFilter (query : Option Text) (viewed : Viewed) (since : Option (Int × Int)) (w : WebUrl) :
    Bool :=
  textFilter env query (fun w : WebUrl => [w.url, w.title, w.domain]) w &&
    (match viewed with
      | .all => true
      | .yes => w.lastViewedAt.isSome
      | .no => w.lastViewedAt.isNone) &&
    since.all fun bounds => w.lastViewedAt.all fun viewedAt => viewedAt < bounds.1

/-- `services.web_urls.list_urls`. The day comes first here, too. -/
def listUrls (t : WebUrlTable) (query : Option Text) (sort : UrlSort) (viewed : Viewed)
    (notViewedSince : Option Text) (params : PageParams) :
    Except ListingError (List WebUrl × Nat) := do
  let since ← dayFilter env notViewedSince
  if Bindable query then
    let rows := t.rows.filter (urlFilter env query viewed since)
    pure (params.slice (orderBy (urlOrder sort) rows), rows.length)
  else throw .dataError

/-- What the console is shown of a web URL. -/
structure WebUrlRead where
  id : Int
  url : Text
  title : Text
  domain : Text
  lastViewedAt : Option Text
  createdAt : Text
  updatedAt : Text
  deriving DecidableEq, Repr

/-- A row as the console is shown it. -/
def webUrlRead (w : WebUrl) : WebUrlRead where
  id := w.id
  url := w.url
  title := w.title
  domain := w.domain
  lastViewedAt := w.lastViewedAt.map wireDate
  createdAt := wireDate w.createdAt
  updatedAt := wireDate w.updatedAt

/-- The parameters of `list_web_urls`, as FastAPI accepts them. -/
structure ListWebUrls (decimals : Decimals) where
  q : Option Text
  sort : UrlSort
  viewed : Viewed
  notViewedSince : Option Text
  page : Option Int
  perPage : Option Int
  q_short : ∀ t ∈ q, t.length ≤ 200
  notViewedSince_valid : ∀ t ∈ notViewedSince, dayPattern decimals t = true
  page_valid : ∀ n ∈ page, 1 ≤ n
  perPage_valid : ∀ n ∈ perPage, 1 ≤ n

/-- `list_web_urls`. -/
def listWebUrls (t : WebUrlTable) (request : ListWebUrls env.decimals) :
    Except ListingError (AdminPage WebUrlRead) := do
  let params := adminPageParams request.page request.perPage
  let (rows, total) ← listUrls env t request.q request.sort request.viewed request.notViewedSince
    params
  pure (.build (rows.map webUrlRead) total params)

/-! ## Bookmarks and users -/

/-- `list_all`. -/
def listAll (t : BookmarkTable) (userId articleId : Option Int) (params : PageParams) :
    Except ListingError (List Bookmark × Nat) :=
  if (∀ i ∈ userId, Int4 i) ∧ ∀ i ∈ articleId, Int4 i then
    let rows := t.rows.filter fun b =>
      userId.all (fun i => b.userId = i) && articleId.all fun i => b.articleId = i
    .ok (params.slice (orderBy latestFirst rows), rows.length)
  else .error .dataError

/-- A row of `User`, with the timestamp the listing is sorted by. -/
structure UserRecord where
  user : Auth.User
  createdAt : Int
  deriving DecidableEq, Repr

/-- The user table with the registration dates, which only this listing reads. Its accounts keep to
the schema and to the unique columns of the table that authentication uses. -/
structure UserRecords where
  rows : List UserRecord
  fits : ∀ u ∈ rows, u.user.Fits
  keyed : Auth.Keyed (rows.map UserRecord.user)

/-- `ORDER BY created_at DESC, id DESC`. -/
def newestUsersFirst : UserRecord → UserRecord → Ordering :=
  compareLex (descOn UserRecord.createdAt) (descOn fun u => u.user.id)

/-- `build_user_list_query`. -/
def buildUserListQuery (t : UserRecords) (query : Option Text) (role : Option Auth.UserRole) :
    Except ListingError (List UserRecord) :=
  if Bindable query then
    .ok (orderBy newestUsersFirst (t.rows.filter fun u =>
      textFilter env query (fun u : UserRecord => [u.user.name, u.user.email]) u &&
        role.all fun r => u.user.role = r))
  else .error .dataError

/-- `services.users.list_users`. -/
def listUsers (t : UserRecords) (query : Option Text) (role : Option Auth.UserRole)
    (params : PageParams) : Except ListingError (List UserRecord × Nat) := do
  let rows ← buildUserListQuery env t query role
  pure (params.slice rows, rows.length)

/-- ASCII throughout. -/
def sampleListing : ListingEnv := ⟨sampleEnv, .asciiOnly, .ascii⟩

/-- `GET /admin/posts` with this category and these days. -/
def sampleListPosts (category dateFrom : Option Text)
    (h : ∀ t ∈ dateFrom, dayPattern .asciiOnly t = true) : ListPosts sampleListing.decimals where
  q := none
  category := category
  articleStatus := none
  dateField := .createdAt
  dateFrom := dateFrom
  dateTo := none
  page := none
  perPage := none
  q_short := nofun
  dateFrom_valid := h
  dateTo_valid := nofun
  page_valid := nofun
  perPage_valid := nofun

/-- `GET /admin/web-urls`. -/
def sampleListWebUrls : ListWebUrls sampleListing.decimals where
  q := none
  sort := .oldest
  viewed := .all
  notViewedSince := none
  page := none
  perPage := none
  q_short := nofun
  notViewedSince_valid := nofun
  page_valid := nofun
  perPage_valid := nofun

end SarkariWorld.Admin
