import SarkariWorld.Admin.Engagement
import SarkariWorld.Auth.KeyViews
import SarkariWorld.Auth.OAuth
import SarkariWorld.Content.CategoryBreakdown
import SarkariWorld.Site.Routes
import SarkariWorld.Site.Writes

/-!
# The endpoints that read

What `GET` answers on every route that looks into the database, with the guard the route
inherits from its router: none on the public one, a login under `/account`, staff under
`/admin` and an admin under `/admin/users`.

The answers are built from the same queries as in `Content` and `Admin`; this module adds
the guards, the schemas and what becomes of an error. A request that only reads has no
commit, and so `answerRead` is a function of the database and the clock at which it is
served.
-/

namespace SarkariWorld.Site

open SarkariWorld.Lib SarkariWorld.Content SarkariWorld.Admin
open SarkariWorld.Auth (Guard User UserRole AdminUser currentUser OAuthSettings)

/-! ## Answers -/

/-- What `/auth/me` tells the caller about the caller. -/
structure AuthPrincipal where
  id : Text
  email : Text
  name : Text
  picture : Option Text
  role : UserRole
  via : Text
  deriving DecidableEq, Repr

/-- `_principal`. -/
def principal (user : User) (via : Text) : AuthPrincipal where
  id := strInt user.id
  email := user.email
  name := user.name
  picture := user.pictureUrl
  role := user.role
  via := via

/-- The console's page of an article, which has its status and author besides what the public page
has. -/
structure AdminArticle extends PublicArticle where
  articleStatus : ArticleStatus
  authorId : Option Text
  deriving DecidableEq, Repr

/-- A bookmark on the console. -/
structure BookmarkRow where
  id : Int
  userId : Int
  articleId : Int
  createdAt : Text
  deriving DecidableEq, Repr

/-- `BookmarkRow.model_validate`. -/
def bookmarkRow (b : Bookmark) : BookmarkRow := ⟨b.id, b.userId, b.articleId, wireDate b.createdAt⟩

/-- The limits of the console's form, under the names the form knows. -/
structure MetaLimits where
  faqMaxItems : Nat
  faqMaxQuestionLen : Nat
  faqMaxAnswerLen : Nat
  metaTitleMaxLen : Nat
  metaDescriptionMaxLen : Nat
  searchKeywordItemMaxLen : Nat
  searchKeywordMaxItems : Nat
  articleLinksMax : Nat
  articleLinkCtaMax : Nat
  articleLinkUrlMax : Nat
  urlTitleListMax : Nat
  urlTitleTitleMax : Nat
  coverImageUrlMax : Nat
  deriving DecidableEq, Repr

/-- `GET /admin/meta`: enumerations and limits, none of which depends on the database. -/
structure MetaResponse where
  categories : List Text
  articleStatuses : List Text
  userRoles : List UserRole
  authProviders : List Text
  limits : MetaLimits
  deriving DecidableEq, Repr

/-! ## Requests -/

/-- The parameters of `list_users`, as FastAPI accepts them. -/
structure ListUsers where
  q : Option Text
  role : Option UserRole
  page : Option Int
  perPage : Option Int
  q_short : ∀ t ∈ q, t.length ≤ 200
  page_valid : ∀ n ∈ page, 1 ≤ n
  perPage_valid : ∀ n ∈ perPage, 1 ≤ n

/-- Those of `list_bookmarks` of the console. -/
structure ListBookmarkRows where
  userId : Option Int
  articleId : Option Int
  page : Option Int
  perPage : Option Int
  userId_valid : ∀ n ∈ userId, 1 ≤ n
  articleId_valid : ∀ n ∈ articleId, 1 ≤ n
  page_valid : ∀ n ∈ page, 1 ≤ n
  perPage_valid : ∀ n ∈ perPage, 1 ≤ n

/-- A request to one of the endpoints that read. Only the public router's carries
parameters that may be invalid: it answers for them itself. -/
inductive ReadRequest (decimals : Decimals) where
  | listProviders
  | readMe
  | listBookmarks (page perPage : Option Int)
  | dashboard
  | categoryBreakdown
  | publishingTimeline (days : Nat)
  | metaInfo
  | listPosts (request : ListPosts decimals)
  | recentPosts (limit : Nat)
  | getPost (slug : Text)
  | listUsers (request : ListUsers)
  | getUser (userId : Int)
  | listWebUrls (request : ListWebUrls decimals)
  | bookmarksOverview (query : OverviewQuery)
  | adminListBookmarks (request : ListBookmarkRows)
  | publicRouter (request : PublicRequest)

/-- The endpoint of a request to the public router. -/
def PublicRequest.endpoint : PublicRequest → Endpoint
  | .listCategories => .listCategories
  | .search _ => .search
  | .sitemap => .sitemap
  | .listCategory _ _ _ => .listCategory
  | .getArticle _ => .getArticle

/-- The endpoint of any request that reads. -/
def ReadRequest.endpoint {decimals : Decimals} : ReadRequest decimals → Endpoint
  | .listProviders => .listProviders
  | .readMe => .readMe
  | .listBookmarks _ _ => .listBookmarks
  | .dashboard => .dashboard
  | .categoryBreakdown => .categoryBreakdown
  | .publishingTimeline _ => .publishingTimeline
  | .metaInfo => .metaInfo
  | .listPosts _ => .listPosts
  | .recentPosts _ => .recentPosts
  | .getPost _ => .getPost
  | .listUsers _ => .listUsers
  | .getUser _ => .getUser
  | .listWebUrls _ => .listWebUrls
  | .bookmarksOverview _ => .bookmarksOverview
  | .adminListBookmarks _ => .adminListBookmarks
  | .publicRouter request => request.endpoint

/-- What the endpoints that read answer with. -/
inductive ReadAnswer where
  | providers (names : List Text)
  | principal (caller : Option AuthPrincipal)
  | bookmarks (page : PublicPage BookmarkItem)
  | dashboard (stats : AdminStats)
  | categories (rows : List CategoryBreakdownRow)
  | timeline (points : List TimelinePoint)
  | metaInfo (response : MetaResponse)
  | posts (page : AdminPage AdminArticleCard)
  | recent (cards : List AdminArticleCard)
  | post (article : AdminArticle)
  | users (page : AdminPage AdminUser)
  | user (view : AdminUser)
  | webUrls (page : AdminPage WebUrlRead)
  | overview (response : BookmarkOverview)
  | bookmarkRows (page : AdminPage BookmarkRow)
  | publicRouter (response : Response)
  deriving DecidableEq, Repr

/-- How a read fails: as every request may, or in its days. -/
inductive ReadFailure where
  | failed (failure : Failure)
  | day (error : DayError)
  deriving DecidableEq, Repr

/-- How a listing fails: a day that is no date, or a value Postgres cannot take. -/
def ListingError.failure : ListingError → ReadFailure
  | .day e => .day e
  | .dataError => .failed (.raised .dataError)

/-! ## Handlers -/

/-- What the handlers take from the installation, from Unicode and from the database. -/
structure ReadEnv where
  decimals : Decimals
  folding : CaseFold
  engine : SearchEngine
  oauth : OAuthSettings
  /-- The orders the database happens to group and scan in. -/
  categories : GroupOrder (ArticleCategory × List Article)
  overviews : OverviewOrders
  /-- The `created_at` column of `User`, by number. -/
  registered : Int → Int

/-- What the console's listings depend on. -/
def ReadEnv.listing (env : ReadEnv) (content : Content.Env) : ListingEnv :=
  ⟨content, env.decimals, env.folding⟩

/-- The accounts with the column their listing is sorted by. -/
def userRecords (env : ReadEnv) (t : Auth.UserTable) : UserRecords where
  rows := t.rows.map fun u => ⟨u, env.registered u.id⟩
  fits := List.forall_mem_map.mpr t.fits
  keyed := by
    rw [List.map_map]
    exact (List.map_id t.rows).symm ▸ t.keyed

/-- `GET /admin/users`. -/
def listUsersPage (env : ReadEnv) (content : Content.Env) (t : Auth.UserTable)
    (request : ListUsers) : Except ListingError (AdminPage AdminUser) := do
  let params := adminPageParams request.page request.perPage
  let (rows, total) ← Admin.listUsers (env.listing content) (userRecords env t) request.q
    request.role params
  pure (.build (rows.map fun row => Auth.adminUser row.user) total params)

/-- `GET /admin/bookmarks`. -/
def listBookmarkRows (t : BookmarkTable) (request : ListBookmarkRows) :
    Except ListingError (AdminPage BookmarkRow) := do
  let params := adminPageParams request.page request.perPage
  let (rows, total) ← listAll t request.userId request.articleId params
  pure (.build (rows.map bookmarkRow) total params)

/-- `find_recent_for_admin`. -/
def findRecentForAdmin (t : ArticleTable) (limit : Nat) : List Article :=
  (orderBy (adminOrder .createdAt) t.rows).take limit

/-- `AdminArticle.model_validate`. -/
def adminArticle (a : Article) : AdminArticle where
  toPublicArticle := publicArticle a
  articleStatus := a.articleStatus
  authorId := a.authorId

/-- `meta`. -/
def metaResponse : MetaResponse where
  categories := categoryLabels.map Prod.fst
  articleStatuses := ArticleStatus.all.map ArticleStatus.value
  userRoles := [.user, .editor, .admin]
  authProviders := [Auth.google]
  limits :=
    { faqMaxItems := faqMaxItems
      faqMaxQuestionLen := faqQuestionMax
      faqMaxAnswerLen := faqAnswerMax
      metaTitleMaxLen := metaTitleMax
      metaDescriptionMaxLen := metaDescriptionMax
      searchKeywordItemMaxLen := searchKeywordItemMax
      searchKeywordMaxItems := searchKeywordMaxItems
      articleLinksMax := linksMax
      articleLinkCtaMax := linkCtaMax
      articleLinkUrlMax := linkUrlMax
      urlTitleListMax := urlTitleListMax
      urlTitleTitleMax := urlTitleTitleMax
      coverImageUrlMax := coverImageUrlMax }

variable (env : ReadEnv) (ctx : Context) (d : Database)

/-- The guard a route under `/account` or `/admin` inherits. -/
def guarded {α : Type} (guard : Guard) (handler : User → Except ReadFailure α) :
    Except ReadFailure α := do
  let actor ← (authorize ctx guard d).mapError .failed
  handler actor

/-- `GET /admin/…`, for staff. -/
def forStaff {α : Type} (handler : Except ReadFailure α) : Except ReadFailure α :=
  guarded ctx d (.manage .get) fun _ => handler

/-- The answer of a request that reads, its guard first. -/
def answerRead : ReadRequest env.decimals → Except ReadFailure ReadAnswer
  | .listProviders => .ok (.providers (Auth.configuredProviders env.oauth))
  -- a stranger is told `null` here, and is not refused
  | .readMe => do
    let caller ← (currentUser ctx.auth d.users ctx.clock ctx.creds).mapError fun e =>
      ReadFailure.failed (.raised e)
    pure (.principal (caller.map fun c => principal c.1 "session".toList))
  | .listBookmarks page perPage => guarded ctx d .auth fun user =>
    .ok (.bookmarks (listBookmarks d.bookmarks d.articles user.id page perPage))
  | .dashboard => forStaff ctx d (.ok (.dashboard (getAdminStats d.articles ctx.clock)))
  | .categoryBreakdown =>
    forStaff ctx d (.ok (.categories (getCategoryBreakdown env.categories d.articles)))
  | .publishingTimeline days =>
    forStaff ctx d (.ok (.timeline (getPublishingTimeline d.articles days ctx.clock)))
  | .metaInfo => forStaff ctx d (.ok (.metaInfo metaResponse))
  | .listPosts request => forStaff ctx d
    (((listPosts (env.listing ctx.content) d.articles request).mapError
      ListingError.failure).map .posts)
  | .recentPosts limit =>
    forStaff ctx d (.ok (.recent ((findRecentForAdmin d.articles limit).map adminArticleCard)))
  | .getPost slug => forStaff ctx d
    (((Content.getArticle d.articles slug).mapError .failed).map fun a => .post (adminArticle a))
  | .listUsers request => guarded ctx d (.admin .get) fun _ =>
    ((listUsersPage env ctx.content d.users request).mapError ListingError.failure).map .users
  | .getUser userId => guarded ctx d (.admin .get) fun actor =>
    ((Auth.readUser d.users actor userId).mapError .failed).map .user
  | .listWebUrls request => forStaff ctx d
    (((listWebUrls (env.listing ctx.content) d.webUrls request).mapError
      ListingError.failure).map .webUrls)
  | .bookmarksOverview query => forStaff ctx d
    (.ok (.overview (overview env.overviews d.bookmarks d.articles d.users query ctx.clock)))
  | .adminListBookmarks request => forStaff ctx d
    (((listBookmarkRows d.bookmarks request).mapError ListingError.failure).map .bookmarkRows)
  | .publicRouter request => .ok (.publicRouter (respond ctx.content env.engine d request))

end SarkariWorld.Site
