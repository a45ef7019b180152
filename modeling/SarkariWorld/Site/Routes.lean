import SarkariWorld.Auth.CurrentUser
import SarkariWorld.Content.PublishedDates
import SarkariWorld.Lib.Routing
import SarkariWorld.Site.Public

/-!
# The routes of the application

Every route `create_app` registers, in the order it does. Two of the paths take an
article's slug, and slugs are chosen by whoever writes the article.
`opened_by_slug_iff`: the slug of an article opens it, but for one slug.

Starlette tries the routes one after the other and takes the first whose method and path
match. A parameter of a path takes any text without a slash, so a route with a parameter
can be shadowed by one that was registered before it, and what `/{slug}` receives depends
on the order of the lists below. They are written in the order of the `@router` decorators
and of the `include_router` calls.

The proof looks at a path segment by segment. A slug has no slash, and so the number of
slashes in a path decides which routes can match at all; of those that are left, the
constant ones are compared with the slug.
-/

namespace SarkariWorld.Site

open SarkariWorld.Lib SarkariWorld.Content
open SarkariWorld.Auth (Method)

/-! ## The table -/

/-- The functions behind the routes, under their own names. -/
inductive Endpoint where
  | openapi | swaggerUi | swaggerUiRedirect
  | health | healthDb
  | listProviders | readMe | logout | signIn
  | listBookmarks | toggleBookmark
  | dashboard | categoryBreakdown | publishingTimeline | metaInfo
  | listPosts | recentPosts | getPost | createPost | updatePost | updatePostStatus | deletePost
  | publishArticle
  | listUsers | getUser | updateRole | issueApiKey | revokeApiKey
  | listWebUrls | createWebUrl | markAllViewed | markViewed | deleteWebUrl
  | bookmarksOverview | adminListBookmarks
  | listCategories | search | sitemap | listCategory | getArticle
  deriving DecidableEq, Repr

/-- A route of the application: its method, the pattern of its path and its endpoint. -/
abbrev AppRoute := Route Method Endpoint

/-- What FastAPI adds for itself when the documentation is on. -/
def docsRoutes : List AppRoute :=
  [⟨.get, "/openapi.json".toList, .openapi⟩, ⟨.get, "/docs".toList, .swaggerUi⟩,
    ⟨.get, "/docs/oauth2-redirect".toList, .swaggerUiRedirect⟩]

/-- `routers/health.py`, which has no prefix. -/
def healthRouter : List AppRoute :=
  [⟨.get, "/health".toList, .health⟩, ⟨.get, "/health/db".toList, .healthDb⟩]

/-- `routers/v1/auth.py`. The provider is a parameter of the path, and comes last. -/
def authRouter : List AppRoute :=
  [⟨.get, "/providers".toList, .listProviders⟩, ⟨.get, "/me".toList, .readMe⟩,
    ⟨.post, "/logout".toList, .logout⟩, ⟨.post, "/\x7bprovider\x7d".toList, .signIn⟩]

/-- `routers/v1/account.py`. -/
def accountRouter : List AppRoute :=
  [⟨.get, "/bookmarks".toList, .listBookmarks⟩,
    ⟨.post, "/bookmarks/toggle".toList, .toggleBookmark⟩]

/-- `routers/v1/admin/analytics.py`, whose routes lie directly under `/admin`. -/
def analyticsRouter : List AppRoute :=
  [⟨.get, "/dashboard".toList, .dashboard⟩,
    ⟨.get, "/analytics/categories".toList, .categoryBreakdown⟩,
    ⟨.get, "/analytics/timeline".toList, .publishingTimeline⟩,
    ⟨.get, "/meta".toList, .metaInfo⟩]

/-- `routers/v1/admin/posts.py`. `/recent` is declared before `/{slug}`. -/
def postsRouter : List AppRoute :=
  [⟨.get, [], .listPosts⟩, ⟨.get, "/recent".toList, .recentPosts⟩,
    ⟨.get, "/\x7bslug\x7d".toList, .getPost⟩, ⟨.post, [], .createPost⟩,
    ⟨.put, "/\x7bslug\x7d".toList, .updatePost⟩,
    ⟨.patch, "/\x7bslug\x7d/status".toList, .updatePostStatus⟩,
    ⟨.delete, "/\x7bslug\x7d".toList, .deletePost⟩]

/-- The `publish_router` of the same file. -/
def publishRouter : List AppRoute := [⟨.post, "/articles".toList, .publishArticle⟩]

/-- `routers/v1/admin/users.py`. -/
def usersRouter : List AppRoute :=
  [⟨.get, [], .listUsers⟩, ⟨.get, "/\x7buser_id\x7d".toList, .getUser⟩,
    ⟨.patch, "/\x7buser_id\x7d/role".toList, .updateRole⟩,
    ⟨.post, "/\x7buser_id\x7d/api-key".toList, .issueApiKey⟩,
    ⟨.delete, "/\x7buser_id\x7d/api-key".toList, .revokeApiKey⟩]

/-- `routers/v1/admin/web_urls.py`. -/
def webUrlsRouter : List AppRoute :=
  [⟨.get, [], .listWebUrls⟩, ⟨.post, [], .createWebUrl⟩,
    ⟨.post, "/mark-all-viewed".toList, .markAllViewed⟩,
    ⟨.post, "/\x7bweb_url_id\x7d/view".toList, .markViewed⟩,
    ⟨.delete, "/\x7bweb_url_id\x7d".toList, .deleteWebUrl⟩]

/-- `routers/v1/admin/bookmarks.py`. -/
def bookmarksRouter : List AppRoute :=
  [⟨.get, "/overview".toList, .bookmarksOverview⟩, ⟨.get, [], .adminListBookmarks⟩]

/-- `routers/v1/public.py`. `/category`, `/search` and `/sitemap` come before `/{category}`. -/
def publicRouter : List AppRoute :=
  [⟨.get, "/category".toList, .listCategories⟩, ⟨.get, "/search".toList, .search⟩,
    ⟨.get, "/sitemap".toList, .sitemap⟩, ⟨.get, "/\x7bcategory\x7d".toList, .listCategory⟩,
    ⟨.get, "/article/\x7bslug\x7d".toList, .getArticle⟩]

/-- A router under its prefix. -/
def mount (before : String) (routes : List AppRoute) : List AppRoute :=
  routes.map (Route.mounted before.toList)

/-- `routers/v1/admin/__init__.py`, which mounts the consoles' routers. -/
def adminRouter : List AppRoute :=
  analyticsRouter ++ mount "/posts" postsRouter ++ mount "/publish" publishRouter ++
    mount "/users" usersRouter ++ mount "/web-urls" webUrlsRouter ++
    mount "/bookmarks" bookmarksRouter

/-- "Last: this router's `/{category}` catch-all would swallow the prefixes above." -/
def apiRouter : List AppRoute :=
  mount "/auth" authRouter ++ mount "/account" accountRouter ++ mount "/admin" adminRouter ++
    publicRouter

/-- What `create_app` reads of its settings. FastAPI insists that a prefix begins with a
slash; parameters it has none. -/
structure RouteSettings where
  apiV1Prefix : Text
  legacyApiPrefix : Option Text
  enableDocs : Bool
  rooted : apiV1Prefix.head? = some '/'
  plain : '\x7b' ∉ apiV1Prefix

variable (config : RouteSettings)

/-- The previous prefix, which answers too. -/
def legacyRoutes : List AppRoute :=
  match config.legacyApiPrefix with
  | none => []
  | some legacy =>
    if legacy = [] ∨ legacy = config.apiV1Prefix then []
    else apiRouter.map (Route.mounted legacy)

/-- All routes of the application, in the order they are tried. -/
def appRoutes : List AppRoute :=
  (if config.enableDocs then docsRoutes else []) ++ healthRouter ++
    (apiRouter.map (Route.mounted config.apiV1Prefix) ++ legacyRoutes config)

/-- `GET` and a path below the prefix. -/
def routed (method : Method) (path : Text) : Option (Endpoint × Params) :=
  dispatch (appRoutes config) method (config.apiV1Prefix ++ path)

/-! ## Opening an article -/

/-- The article that a routed request names, as `get_post` has it. -/
def postOpened (t : ArticleTable) (path : Text) : Option (Except Failure Article) :=
  match routed config .get path with
  | some (.getPost, [(_, slug)]) => some (Content.getArticle t slug)
  | _ => none

/-- The same, as `get_article` returns it. -/
def articleOpened (t : ArticleTable) (path : Text) : Option (Except Failure PublicArticle) :=
  match routed config .get path with
  | some (.getArticle, [(_, slug)]) => some (Site.getArticle t slug)
  | _ => none

/-- The path of an article in the console, below the prefix. -/
def postPath (slug : Text) : Text := "/admin/posts/".toList ++ slug

/-- The path of an article on the public site, below the prefix. -/
def articlePath (slug : Text) : Text := "/article/".toList ++ slug

/-- The article is what `GET /admin/posts/{slug}` returns, and while it is published,
what `GET /article/{slug}` does. -/
structure OpenedBySlug (t : ArticleTable) (a : Article) : Prop where
  post : postOpened config t (postPath a.slug) = some (.ok a)
  article : a.articleStatus = .published →
    articleOpened config t (articlePath a.slug) = some (.ok (publicArticle a))

variable {config} {method : Method} {path slug : Text} {t : ArticleTable} {a : Article}

/-- The routes outside the prefix are not deep enough for its lower paths. -/
theorem routed_of_dispatch {found : Endpoint × Params} (hdepth : 2 ≤ path.count '/')
    (h : dispatch apiRouter method path = some found) :
    routed config method path = some found := by
  have hprefix : 1 ≤ config.apiV1Prefix.count '/' :=
    List.count_pos_iff.mpr (List.mem_of_head? config.rooted)
  have hdeep : 3 ≤ (config.apiV1Prefix ++ path).count '/' := by
    rw [List.count_append]
    omega
  -- the outer routes are too shallow to take the path
  have houter : dispatch ((if config.enableDocs then docsRoutes else []) ++ healthRouter) method
      (config.apiV1Prefix ++ path) = none := by
    refine dispatch_none_of_slashes fun r hr => ?_
    have hshallow : ∀ r ∈ docsRoutes ++ healthRouter,
        (compilePath r.path).count (.char '/') < 3 := by
      decide
    have hmem : r ∈ docsRoutes ++ healthRouter := by
      rcases List.mem_append.mp hr with hdocs | hhealth
      · split at hdocs
        next => exact List.mem_append_left _ hdocs
        next => cases hdocs
      · exact List.mem_append_right _ hhealth
    have hlt := hshallow r hmem
    omega
  unfold routed appRoutes
  rw [dispatch_append_of_none houter]
  exact dispatch_append_of_some ((dispatch_mounted config.plain).trans h)

/-! ## Slugs as segments -/

theorem ne_slash_of_slugChar {c : Char} (h : slugChar c = true) : c ≠ '/' := by
  rintro rfl
  exact Bool.false_ne_true h

/-- A slug fills the parameter of a path. -/
theorem slug_param (name : Text) (hslug : ValidSlug slug) :
    matchPieces [.param name] slug = some [(name, slug)] := by
  refine matchPieces_param (List.length_pos_iff.mp hslug.1) fun c hc => ?_
  exact ne_slash_of_slugChar (List.all_eq_true.mp hslug.2.2 c hc)

/-- `/recent` is declared before `/{slug}`. -/
theorem dispatch_posts (hslug : ValidSlug slug) : dispatch postsRouter .get ('/' :: slug) =
    if slug = "recent".toList then some (.recentPosts, [])
    else some (.getPost, [("slug".toList, slug)]) := by
  have hrecent : matchPieces (compilePath "/recent".toList) ('/' :: slug) =
      if slug = "recent".toList then some [] else none :=
    matchPieces_literal "recent".toList slug
  have hparam : matchPieces (compilePath "/\x7bslug\x7d".toList) ('/' :: slug) =
      some [("slug".toList, slug)] :=
    slug_param "slug".toList hslug
  unfold postsRouter
  rw [dispatch_cons_of_none rfl]
  by_cases h : slug = "recent".toList
  · rw [if_pos h] at hrecent ⊢
    exact dispatch_cons_of_some (congrArg (Option.map (Endpoint.recentPosts, ·)) hrecent)
  · rw [if_neg h] at hrecent ⊢
    refine (dispatch_cons_of_none ?_).trans ?_
    · exact congrArg (Option.map (Endpoint.recentPosts, ·)) hrecent
    · exact dispatch_cons_of_some (congrArg (Option.map (Endpoint.getPost, ·)) hparam)

/-- The routers before the posts' have no such path. -/
theorem dispatch_apiRouter {found : Endpoint × Params}
    (h : dispatch postsRouter method ('/' :: slug) = some found) :
    dispatch apiRouter method (postPath slug) = some found := by
  have hother : dispatch (mount "/auth" authRouter ++ mount "/account" accountRouter) method
      (postPath slug) = none := by
    cases method <;> rfl
  have hanalytics : dispatch analyticsRouter method ("/posts/".toList ++ slug) = none := by
    cases method <;> rfl
  have hadmin : dispatch adminRouter method ("/posts/".toList ++ slug) = some found := by
    unfold adminRouter
    simp only [List.append_assoc]
    rw [dispatch_append_of_none hanalytics]
    exact dispatch_append_of_some ((dispatch_mounted (p := "/posts".toList) (by decide)).trans h)
  unfold apiRouter
  simp only [List.append_assoc] at hother ⊢
  rw [← List.append_assoc, dispatch_append_of_none hother]
  exact dispatch_append_of_some ((dispatch_mounted (p := "/admin".toList) (by decide)).trans hadmin)

/-- An update finds the article under every slug. -/
theorem dispatch_update (hslug : ValidSlug slug) :
    dispatch apiRouter .put (postPath slug) = some (.updatePost, [("slug".toList, slug)]) := by
  refine dispatch_apiRouter ?_
  have hparam : matchPieces (compilePath "/\x7bslug\x7d".toList) ('/' :: slug) =
      some [("slug".toList, slug)] :=
    slug_param "slug".toList hslug
  unfold postsRouter
  rw [dispatch_cons_of_none rfl, dispatch_cons_of_none rfl, dispatch_cons_of_none rfl,
    dispatch_cons_of_none rfl]
  exact dispatch_cons_of_some (congrArg (Option.map (Endpoint.updatePost, ·)) hparam)

/-- `/{category}` is one segment, `/article/{slug}` two. -/
theorem dispatch_article (hslug : ValidSlug slug) :
    dispatch apiRouter .get (articlePath slug) = some (.getArticle, [("slug".toList, slug)]) := by
  have hother : dispatch (mount "/auth" authRouter ++ mount "/account" accountRouter ++
      mount "/admin" adminRouter) .get (articlePath slug) = none := by
    rfl
  have hparam : matchPieces (compilePath "/article/\x7bslug\x7d".toList) (articlePath slug) =
      some [("slug".toList, slug)] :=
    slug_param "slug".toList hslug
  unfold apiRouter
  rw [dispatch_append_of_none hother]
  unfold publicRouter
  rw [dispatch_cons_of_none rfl, dispatch_cons_of_none rfl, dispatch_cons_of_none rfl,
    dispatch_cons_of_none rfl]
  exact dispatch_cons_of_some (congrArg (Option.map (Endpoint.getArticle, ·)) hparam)

/-! ## Slugs that open their article -/

theorem getArticle_of_mem (ha : a ∈ t.rows) : Content.getArticle t a.slug = .ok a := by
  have hstorable : Storable a.slug := (t.fits a ha).2.2.2.2 a.slug (by simp [ArticleOf.texts])
  have hfound : findBySlug t a.slug = .ok (some a) := by
    rw [findBySlug, if_pos hstorable, scalarOneOrNone_whereEq t.uniqueSlug,
      lookup_of_mem t.uniqueSlug ha rfl]
  unfold Content.getArticle
  rw [hfound]

/-- A stored article that is published is found by the public route as well. -/
theorem publicArticle_of_mem (ha : a ∈ t.rows) (hpub : a.articleStatus = .published) :
    Site.getArticle t a.slug = .ok (publicArticle a) := by
  have hstorable : Storable a.slug := (t.fits a ha).2.2.2.2 a.slug (by simp [ArticleOf.texts])
  unfold Site.getArticle
  rw [findPublishedBySlug_eq hstorable,
    lookup_of_mem (published_uniqueSlug t) (mem_published.mpr ⟨ha, hpub⟩) rfl]

/-- A slug that is put behind a path does not take slashes away from it. -/
theorem two_slashes {p : Text} (h : 2 ≤ p.count '/') (slug : Text) :
    2 ≤ (p ++ slug).count '/' := by
  rw [List.count_append]
  omega

/-- The slug `recent` leads elsewhere. -/
theorem not_opened_of_recent (hrecent : a.slug = "recent".toList) : ¬ OpenedBySlug config t a := by
  intro hopened
  have hvalid : ValidSlug a.slug := hrecent ▸ (by decide : ValidSlug "recent".toList)
  have hposts := dispatch_posts hvalid
  rw [if_pos hrecent] at hposts
  have hrouted : routed config .get (postPath a.slug) = some (.recentPosts, []) :=
    routed_of_dispatch (two_slashes (by decide) _) (dispatch_apiRouter hposts)
  have hpost := hopened.post
  unfold postOpened at hpost
  rw [hrouted] at hpost
  cases hpost

/-- **An article opens by its slug, unless that is `recent`.** -/
theorem opened_by_slug_iff (config : RouteSettings) (t : ArticleTable) {a : Article}
    (ha : a ∈ t.rows) (hslug : ValidSlug a.slug) :
    OpenedBySlug config t a ↔ a.slug ≠ "recent".toList := by
  constructor
  · intro hopened hrecent
    exact not_opened_of_recent hrecent hopened
  · intro hother
    have hposts := dispatch_posts hslug
    rw [if_neg hother] at hposts
    have hpost : routed config .get (postPath a.slug) =
        some (.getPost, [("slug".toList, a.slug)]) :=
      routed_of_dispatch (two_slashes (by decide) _) (dispatch_apiRouter hposts)
    have harticle : routed config .get (articlePath a.slug) =
        some (.getArticle, [("slug".toList, a.slug)]) :=
      routed_of_dispatch (two_slashes (by decide) _) (dispatch_article hslug)
    refine ⟨?_, fun hpub => ?_⟩
    · unfold postOpened
      rw [hpost]
      exact congrArg some (getArticle_of_mem ha)
    · unfold articleOpened
      rw [harticle]
      exact congrArg some (publicArticle_of_mem ha hpub)

/-- The settings' defaults. -/
def defaultRoutes : RouteSettings where
  apiV1Prefix := "/v1".toList
  legacyApiPrefix := some "/api/v1".toList
  enableDocs := true
  rooted := rfl
  plain := by decide

theorem result_opened :
    ∃ s, exec (serve sampleEnv) samplePosts [sampleCreate] = some s ∧
      ∃ a ∈ s.articles.rows, a.slug = "result".toList ∧
        OpenedBySlug defaultRoutes s.articles a := by
  have hrun : (exec (serve sampleEnv) samplePosts [sampleCreate]).map
      (fun s => decide (∃ a ∈ s.articles.rows, a.slug = "result".toList)) = some true := by
    decide +kernel
  obtain ⟨s, hs, hstored⟩ := exec_of_test hrun
  obtain ⟨a, ha, hslug⟩ := of_decide_eq_true hstored
  refine ⟨s, hs, a, ha, hslug, (opened_by_slug_iff defaultRoutes s.articles ha ?_).mpr ?_⟩
  · rw [hslug]
    decide
  · rw [hslug]
    decide

/-- A body of `POST /admin/posts` like any other. -/
def recentPayload : ArticleCreate :=
  { samplePayload .omitted (.value .published) with
    slug := "recent".toList
    slug_valid := by decide }

/-- The article is stored and can be edited, but not opened. -/
theorem recent_not_opened :
    ∃ s, exec (serve sampleEnv) samplePosts
        [.call ⟨sampleActor, .createPost recentPayload, 7⟩] = some s ∧
      ∃ a ∈ s.articles.rows, a.slug = recentPayload.slug ∧
        routed defaultRoutes .put (postPath a.slug) =
          some (.updatePost, [("slug".toList, a.slug)]) ∧
        ¬ OpenedBySlug defaultRoutes s.articles a := by
  have hrun : (exec (serve sampleEnv) samplePosts
      [.call ⟨sampleActor, .createPost recentPayload, 7⟩]).map
      (fun s => decide (∃ a ∈ s.articles.rows, a.slug = recentPayload.slug)) = some true := by
    decide +kernel
  obtain ⟨s, hs, hstored⟩ := exec_of_test hrun
  obtain ⟨a, ha, hslug⟩ := of_decide_eq_true hstored
  have hvalid : ValidSlug a.slug := hslug ▸ recentPayload.slug_valid
  exact ⟨s, hs, a, ha, hslug, routed_of_dispatch (two_slashes (by decide) _)
    (dispatch_update hvalid), not_opened_of_recent hslug⟩

end SarkariWorld.Site
