import SarkariWorld.Site.Routes
import SarkariWorld.Site.Service
import SarkariWorld.Web.Csrf

/-!
# A request, from its headers to the database

What happens to the database when an HTTP request arrives: the CSRF middleware, the
router, the credentials in the headers, the guard of the handler and the handler.
Another site can make a browser send such a request, with the cookies the browser holds
for this one. `cross_site_harmless` says what it can do with that: with a session cookie
nothing, and without one it can sign somebody in.

The request is followed in the order the service deals with it. What FastAPI does with a
body is not part of the repository, and enters as a `Decoder`: a first stage that reads
the body and takes it for JSON, before any dependency of the route has run, and a second
that checks it against the schema afterwards. All that the results need of it is that an
endpoint is handed a request of its own.

Two readings of the `Cookie` headers meet here, the middleware's search for a name and the
parser's list of cookies. They agree for the requests a browser sends
(`mentions_of_carries`), and that is what the protection rests on.
-/

namespace SarkariWorld.Site

open SarkariWorld.Lib
open SarkariWorld.Auth (Method Credentials KeyDraw Guard User currentUser)
open SarkariWorld.Web (Scope Headers cookies sessionCookie mentionsSession CarriesSession
  FromAllowed CsrfPasses)

/-! ## Credentials -/

/-- `APIKeyHeader` with `auto_error=False`: an empty header is none. -/
def apiKeyScheme (headers : Headers) : Option Text :=
  (headers.get "X-API-Key".toList).filter fun key => key ≠ []

/-- `HTTPBearer` with `auto_error=False`. -/
def bearerScheme (headers : Headers) : Option Text :=
  match headers.get "Authorization".toList with
  | none => none
  | some authorization =>
    let scheme := authorization.takeWhile (· ≠ ' ')
    let credentials := (authorization.dropWhile (· ≠ ' ')).drop 1
    if scheme = [] ∨ credentials = [] then none
    else if scheme.map Char.toLower ≠ "bearer".toList then none
    else some credentials

/-- `request.cookies.get(SESSION_COOKIE)`. A later cookie of the same name replaces an
earlier one. -/
def sessionToken (env : Web.Env) (headers : Headers) : Option Text :=
  ((cookies env headers).reverse.find? fun cookie => cookie.1 == sessionCookie).map Prod.snd

/-- What `current_user` is given of a request. -/
def credentials (env : Web.Env) (headers : Headers) : Credentials :=
  ⟨apiKeyScheme headers, bearerScheme headers, sessionToken env headers⟩

/-! ## Endpoints that write -/

/-- The endpoint that serves the request. -/
def endpointOf : WriteRequest → Endpoint
  | .post (.createPost _) => .createPost
  | .post (.updatePost _ _) => .updatePost
  | .post (.updatePostStatus _ _) => .updatePostStatus
  | .post (.deletePost _) => .deletePost
  | .post (.publishArticle _) => .publishArticle
  | .toggleBookmark _ => .toggleBookmark
  | .createWebUrl _ => .createWebUrl
  | .markViewed _ => .markViewed
  | .markAllViewed => .markAllViewed
  | .deleteWebUrl _ => .deleteWebUrl
  | .updateRole _ _ => .updateRole
  | .issueApiKey _ _ => .issueApiKey
  | .revokeApiKey _ => .revokeApiKey
  | .signIn _ => .signIn
  | .logout => .logout

/-- The endpoints that may write. -/
def writingEndpoints : List Endpoint :=
  [.createPost, .updatePost, .updatePostStatus, .deletePost, .publishArticle, .toggleBookmark,
    .createWebUrl, .markViewed, .markAllViewed, .deleteWebUrl, .updateRole, .issueApiKey,
    .revokeApiKey, .signIn, .logout]

/-- The endpoints that declare a body. -/
def bodyEndpoints : List Endpoint :=
  [.createPost, .updatePost, .updatePostStatus, .publishArticle, .toggleBookmark, .createWebUrl,
    .updateRole, .issueApiKey, .signIn]

/-- What `GET` can reach. -/
def getEndpoints : List Endpoint :=
  (docsRoutes ++ healthRouter ++ apiRouter).filterMap fun r =>
    if r.method = .get then some r.endpoint else none

/-! ## Requests -/

/-- Why a body is not read at all. -/
inductive BodyError where
  /-- It is announced as JSON and is none: a 422. -/
  | notJson
  /-- Anything else that goes wrong while it is read: a 400. -/
  | unparsed
  deriving DecidableEq

/-- How the framework makes a request of the parameters and the body, for the endpoints
that write. It happens in two stages, with the dependencies of the route between them: the
body is read and taken for JSON, and what has been read is checked against the schema of the
request. `unread` is a failure of the first stage, `decode` is the second. -/
structure Decoder where
  unread : Headers → Text → Option BodyError
  decode : Endpoint → Params → Text → Option WriteRequest
  sound : ∀ {endpoint params body request}, decode endpoint params body = some request →
    endpointOf request = endpoint

/-- A deployment: its environment, its routes and the settings the middleware reads. -/
structure HttpSite where
  auth : Auth.Env
  content : Content.Env
  web : Web.Env
  routes : RouteSettings
  allowedOrigins : List Text
  decoder : Decoder

/-- A request, and what goes on around it. -/
structure HttpRequest where
  scope : Scope
  body : Text
  clock : Nat
  draw : KeyDraw
  nextId : Int
  faults : List (Option PyError)

/-- The method, if there are routes for it at all. -/
def methodOf (method : Text) : Option Method :=
  if method = "GET".toList then some .get
  else if method = "POST".toList then some .post
  else if method = "PUT".toList then some .put
  else if method = "PATCH".toList then some .patch
  else if method = "DELETE".toList then some .delete
  else none

instance (env : Web.Env) (allowedOrigins : List Text) (headers : Headers) :
    Decidable (FromAllowed env allowedOrigins headers) :=
  match h : Web.requestOrigin env headers with
  | .ok (some origin) =>
    decidable_of_iff (origin ∈ allowedOrigins)
      ⟨fun hmem => ⟨origin, h, hmem⟩, fun ⟨o, ho, hmem⟩ => by
        rw [h] at ho
        rw [Option.some.inj (Except.ok.inj ho)]
        exact hmem⟩
  | .ok none => .isFalse fun ⟨o, ho, _⟩ => by
    rw [h] at ho
    cases Except.ok.inj ho
  | .error e => .isFalse fun ⟨o, ho, _⟩ => by
    rw [h] at ho
    cases ho

instance (env : Web.Env) (allowedOrigins : List Text) (scope : Scope) :
    Decidable (CsrfPasses env allowedOrigins scope) :=
  inferInstanceAs (Decidable (_ ∨ _ ∨ _ ∨ _))

variable (site : HttpSite)

/-- The endpoint a request reaches once it is through the middleware. -/
def HttpSite.route (r : HttpRequest) : Option (Endpoint × Params) :=
  (methodOf r.scope.method).bind fun method =>
    dispatch (appRoutes site.routes) method r.scope.path

/-- What the first stage makes of the body, where a body is declared. -/
def HttpSite.unread (endpoint : Endpoint) (r : HttpRequest) : Option BodyError :=
  if endpoint ∈ bodyEndpoints then site.decoder.unread r.scope.headers r.body else none

/-- What the handler of the request depends on. Its credentials are read from the headers. -/
def HttpSite.context (r : HttpRequest) : Context :=
  ⟨site.auth, site.content, r.clock, credentials site.web r.scope.headers, r.draw, r.nextId⟩

/-- What is stored once a request has been answered. Of the layers before the router only
the CSRF middleware may keep a request from it: `csrf_passes` and `csrf_blocks`. -/
def HttpSite.respond (r : HttpRequest) (d : Database) : Database :=
  if CsrfPasses site.web site.allowedOrigins r.scope then
    match site.route r with
    | none => d
    | some (endpoint, params) =>
      match site.unread endpoint r with
      | some _ => d
      | none =>
        match site.decoder.decode endpoint params r.body with
        | none => d
        | some request => (serveWrite (site.context r) d r.faults request).2.stored
  else d

/-- The requests are served one after the other. -/
def HttpSite.respondAll (d : Database) (rs : List HttpRequest) : Database :=
  rs.foldl (fun d r => site.respond r d) d

variable {site} {r : HttpRequest} {d : Database}

/-- What has to go right before anything is written. -/
theorem respond_writes (h : site.respond r d ≠ d) :
    CsrfPasses site.web site.allowedOrigins r.scope ∧
      ∃ endpoint params request, site.route r = some (endpoint, params) ∧
        site.decoder.decode endpoint params r.body = some request ∧
        (serveWrite (site.context r) d r.faults request).2.stored ≠ d := by
  unfold HttpSite.respond at h
  split at h
  next hpasses =>
    refine ⟨hpasses, ?_⟩
    split at h
    next => exact absurd rfl h
    next endpoint params hroute =>
      split at h
      next => exact absurd rfl h
      next =>
        split at h
        next => exact absurd rfl h
        next request hdecode => exact ⟨endpoint, params, request, hroute, hdecode, h⟩
  next => exact absurd rfl h

/-! ## Safe methods -/

/-- Every write request belongs to one of the fifteen endpoints. -/
theorem endpointOf_mem (request : WriteRequest) : endpointOf request ∈ writingEndpoints := by
  cases request with
  | post request => cases request <;> simp [endpointOf, writingEndpoints]
  | _ => simp [endpointOf, writingEndpoints]

/-- No endpoint that writes is registered for a safe method. -/
theorem writing_not_get : ∀ endpoint ∈ writingEndpoints, endpoint ∉ getEndpoints := by decide

/-- Under whatever prefix, the routes are those of the routers. -/
theorem appRoutes_mem {config : RouteSettings} {route : AppRoute} (h : route ∈ appRoutes config) :
    ∃ r ∈ docsRoutes ++ healthRouter ++ apiRouter,
      r.method = route.method ∧ r.endpoint = route.endpoint := by
  -- mounting changes the path of a route, not what it serves
  have hmounted : ∀ {before}, route ∈ apiRouter.map (Route.mounted before) →
      ∃ r ∈ docsRoutes ++ healthRouter ++ apiRouter,
        r.method = route.method ∧ r.endpoint = route.endpoint := by
    intro before hmem
    obtain ⟨r, hr, rfl⟩ := List.mem_map.mp hmem
    exact ⟨r, List.mem_append_right _ hr, rfl, rfl⟩
  rcases List.mem_append.mp h with houter | hapi
  · refine ⟨route, List.mem_append_left _ ?_, rfl, rfl⟩
    rcases List.mem_append.mp houter with hdocs | hhealth
    · split at hdocs
      next => exact List.mem_append_left _ hdocs
      next => cases hdocs
    · exact List.mem_append_right _ hhealth
  · rcases List.mem_append.mp hapi with hcurrent | hlegacy
    · exact hmounted hcurrent
    · unfold legacyRoutes at hlegacy
      split at hlegacy
      next => cases hlegacy
      next =>
        split at hlegacy
        next => cases hlegacy
        next => exact hmounted hlegacy

/-- What a `GET` is routed to is one of the endpoints `GET` can reach, whatever the settings; none
of those writes. -/
theorem get_endpoint {config : RouteSettings} {path : Text} {found : Endpoint × Params}
    (h : dispatch (appRoutes config) .get path = some found) : found.1 ∈ getEndpoints := by
  obtain ⟨route, hroute, hmethod, hendpoint⟩ := dispatch_mem h
  obtain ⟨r, hr, hget, hsame⟩ := appRoutes_mem hroute
  refine List.mem_filterMap.mpr ⟨r, hr, ?_⟩
  rw [hget, hmethod, if_pos rfl, hsame, hendpoint]

/-- **A safe method writes nothing.** -/
theorem respond_safe (hsafe : r.scope.method ∈ Web.safeMethods) : site.respond r d = d := by
  by_contra hwrites
  obtain ⟨-, endpoint, params, request, hroute, hdecode, -⟩ := respond_writes hwrites
  obtain ⟨method, hmethod, hdispatch⟩ := Option.bind_eq_some_iff.mp hroute
  have hget : method = .get := by
    simp only [Web.safeMethods, List.map_cons, List.map_nil, List.mem_cons,
      List.not_mem_nil, or_false] at hsafe
    rcases hsafe with h | h | h | h
    · rw [h] at hmethod
      exact (Option.some.inj hmethod).symm
    all_goals
      rw [h] at hmethod
      cases hmethod
  subst hget
  refine absurd (get_endpoint hdispatch) ?_
  rw [← site.decoder.sound hdecode]
  exact writing_not_get _ (endpointOf_mem request)

/-! ## Nobody's requests -/

/-- Nobody is resolved without a credential, and every guard refuses nobody. -/
theorem authorize_nobody {ctx : Context} {guard : Guard} {actor : User}
    (hcreds : ctx.creds = ⟨none, none, none⟩) : authorize ctx guard d ≠ .ok actor := by
  intro h
  have hnobody : currentUser ctx.auth d.users ctx.clock ctx.creds = .ok none := by
    rw [hcreds]
    rfl
  unfold authorize at h
  rw [hnobody] at h
  cases guard <;> cases h

/-- The guard of the handlers lets a caller through whom the check of the role accepts. -/
theorem authorize_of_check {ctx : Context} {guard : Guard} {actor : User}
    {caller : Option (User × Auth.AuthVia)}
    (hcaller : currentUser ctx.auth d.users ctx.clock ctx.creds = .ok caller)
    (hactor : guard.check (caller.map Prod.fst) = .ok actor) :
    authorize ctx guard d = .ok actor := by
  unfold authorize
  rw [hcaller]
  exact mapError_eq_ok.mpr hactor

/-- A caller whom the guard of a planned request accepts is accepted by the handler's. -/
theorem authorize_of_guardRequest {ctx : Context} {request : Auth.Request Unit} {guard : Guard}
    {found : Option User} (hguard : request.guard = some guard)
    (h : Auth.guardRequest ctx.auth d.users ctx.clock ctx.creds request = .ok found) :
    ∃ actor, authorize ctx guard d = .ok actor := by
  unfold Auth.guardRequest at h
  rw [hguard] at h
  dsimp only at h
  split at h
  next => cases h
  next caller hcaller =>
    split at h
    next => cases h
    next actor hactor => exact ⟨actor, authorize_of_check hcaller hactor⟩

/-- Every request but a sign-in is decided for somebody its guard let through. -/
theorem plan_authorized {ctx : Context} {request : WriteRequest} {change : Change}
    (hother : endpointOf request ≠ .signIn) (h : plan ctx d request = .ok change) :
    ∃ guard actor, authorize ctx guard d = .ok actor := by
  have huser : ∀ {request : Auth.Request Unit} {guard : Guard}, request.guard = some guard →
      planUser ctx d request = .ok change → ∃ guard actor, authorize ctx guard d = .ok actor := by
    intro request guard hguard hplan
    obtain ⟨found, hfound, -⟩ := bind_eq_ok.mp hplan
    exact ⟨guard, authorize_of_guardRequest hguard hfound⟩
  cases request with
  | post request =>
    obtain ⟨actor, hactor, -⟩ := bind_eq_ok.mp h
    exact ⟨_, actor, hactor⟩
  | toggleBookmark slug =>
    obtain ⟨actor, hactor, -⟩ := bind_eq_ok.mp h
    exact ⟨_, actor, hactor⟩
  | createWebUrl payload =>
    obtain ⟨actor, hactor, -⟩ := bind_eq_ok.mp h
    exact ⟨_, actor, hactor⟩
  | markViewed webUrlId =>
    obtain ⟨actor, hactor, -⟩ := bind_eq_ok.mp h
    exact ⟨_, actor, hactor⟩
  | markAllViewed =>
    obtain ⟨actor, hactor, -⟩ := bind_eq_ok.mp h
    exact ⟨_, actor, hactor⟩
  | deleteWebUrl webUrlId =>
    obtain ⟨actor, hactor, -⟩ := bind_eq_ok.mp h
    exact ⟨_, actor, hactor⟩
  | updateRole userId role => exact huser rfl h
  | issueApiKey userId name => exact huser rfl h
  | revokeApiKey userId => exact huser rfl h
  -- the one endpoint that asks for nobody
  | signIn verified => exact absurd rfl hother
  | logout => exact huser rfl h

/-- Without a credential nothing is written, but for a sign-in. -/
theorem serveWrite_nobody {ctx : Context} {request : WriteRequest} (faults : List (Option PyError))
    (hcreds : ctx.creds = ⟨none, none, none⟩) (hother : endpointOf request ≠ .signIn) :
    (serveWrite ctx d faults request).2.stored = d := by
  have htransacts : Transacts d (handleWrite ctx request) _ := handleWrite_transacts request
  rcases htransacts (.begin d (faults.map (Option.map Failure.raised))) ⟨rfl, rfl, rfl, rfl⟩ with
    ⟨-, -, hstored⟩ | ⟨-, -, hcarried, -⟩
  · exact hstored
  · obtain ⟨change, hplan, -⟩ := bind_eq_ok.mp hcarried
    obtain ⟨guard, actor, hactor⟩ := plan_authorized hother hplan
    exact absurd hactor (authorize_nobody hcreds)

/-! ## Requests from another site -/

/-- The names `cookie_parser` finds in a `Cookie` header are parts of it. -/
def NamesWithin (env : Web.Env) : Prop :=
  ∀ header name value, (name, value) ∈ env.cookieParser header → name <:+: header

/-- What a page of another site can make a browser send: one `Cookie` header at most, and
none of the headers a page may only add with the leave of this site. -/
structure CrossSite (site : HttpSite) (r : HttpRequest) : Prop where
  http : r.scope.type = .http
  origin : ¬ FromAllowed site.web site.allowedOrigins r.scope.headers
  cookie : (r.scope.headers.getlist "cookie".toList).length ≤ 1
  noKey : r.scope.headers.get "X-API-Key".toList = none
  noBearer : r.scope.headers.get "Authorization".toList = none

theorem get_eq_head? (headers : Headers) (key : Text) :
    headers.get key = (headers.getlist key).head? := by
  rw [Headers.get, Headers.getlist, List.head?_map, List.head?_filter]

/-- With one header, the middleware finds the cookie that `current_user` would. -/
theorem mentions_of_carries {env : Web.Env} {headers : Headers} (hnames : NamesWithin env)
    (hone : (headers.getlist "cookie".toList).length ≤ 1) (h : CarriesSession env headers) :
    mentionsSession headers = true := by
  obtain ⟨value, hvalue⟩ := h
  obtain ⟨header, hheader, hparsed⟩ := List.mem_flatMap.mp hvalue
  have hget : headers.get "cookie".toList = some header := by
    rw [get_eq_head?]
    cases hlist : headers.getlist "cookie".toList with
    | nil =>
      rw [hlist] at hheader
      cases hheader
    | cons first rest =>
      rw [hlist, List.length_cons] at hone
      obtain rfl := List.eq_nil_of_length_eq_zero (l := rest) (by omega)
      rw [hlist] at hheader
      rw [List.head?_cons, List.mem_singleton.mp hheader]
  unfold mentionsSession
  rw [hget]
  exact occurs_literal (by decide) (hnames header _ value hparsed)

theorem sessionToken_none {env : Web.Env} {headers : Headers} (h : ¬ CarriesSession env headers) :
    sessionToken env headers = none := by
  unfold sessionToken
  rw [Option.map_eq_none_iff, List.find?_eq_none]
  intro cookie hcookie hname
  obtain ⟨name, value⟩ := cookie
  obtain rfl : name = sessionCookie := eq_of_beq hname
  exact h ⟨value, List.mem_reverse.mp hcookie⟩

/-- With a session cookie, the middleware keeps the request from the router. -/
theorem respond_forged (hnames : NamesWithin site.web) (hallowed : site.allowedOrigins ≠ [])
    (hcross : CrossSite site r) (hcarries : CarriesSession site.web r.scope.headers) :
    site.respond r d = d := by
  by_cases hsafe : r.scope.method ∈ Web.safeMethods
  · exact respond_safe hsafe
  · by_contra hwrites
    obtain ⟨hpasses, -⟩ := respond_writes hwrites
    have hmention := mentions_of_carries hnames hcross.cookie hcarries
    rcases hpasses with hempty | hmethod | hunmentioned | hfrom
    · exact hallowed hempty
    · exact hsafe hmethod
    · rw [hmention] at hunmentioned
      cases hunmentioned
    · exact hcross.origin hfrom

/-- Without one, it is nobody's. -/
theorem respond_anonymous (hcross : CrossSite site r)
    (hnone : ¬ CarriesSession site.web r.scope.headers) (hwrites : site.respond r d ≠ d) :
    (site.route r).map Prod.fst = some .signIn := by
  have hcreds : (site.context r).creds = ⟨none, none, none⟩ := by
    show Credentials.mk (apiKeyScheme _) (bearerScheme _) (sessionToken _ _) = _
    rw [sessionToken_none hnone, apiKeyScheme, bearerScheme, hcross.noKey, hcross.noBearer]
    rfl
  obtain ⟨-, endpoint, params, request, hroute, hdecode, hstored⟩ := respond_writes hwrites
  rw [hroute, Option.map_some]
  by_contra hother
  refine hstored (serveWrite_nobody r.faults hcreds fun hsignIn => hother ?_)
  rw [← hsignIn, site.decoder.sound hdecode]

/-- **What another site can do.** A request it makes a browser send with a session cookie
has no effect, among whatever other requests; without one it can only sign in. -/
theorem cross_site_harmless (hnames : NamesWithin site.web) (hallowed : site.allowedOrigins ≠ [])
    (hcross : CrossSite site r) :
    (CarriesSession site.web r.scope.headers → ∀ d before after,
      site.respondAll d (before ++ r :: after) = site.respondAll d (before ++ after)) ∧
      (¬ CarriesSession site.web r.scope.headers → ∀ d, site.respond r d ≠ d →
        (site.route r).map Prod.fst = some .signIn) := by
  refine ⟨fun hcarries d before after => ?_, fun hnone d => respond_anonymous hcross hnone⟩
  unfold HttpSite.respondAll
  rw [List.foldl_append, List.foldl_append, List.foldl_cons,
    respond_forged hnames hallowed hcross hcarries]

/-! ## A forged logout -/

/-- One cookie to a header. -/
def oneCookie : Web.Env :=
  { Web.plainEnv with
    cookieParser := fun header =>
      [(header.takeWhile (· ≠ '='), (header.dropWhile (· ≠ '=')).drop 1)] }

/-- The parser of the example finds the names of its cookies in the header. -/
theorem oneCookie_names : NamesWithin oneCookie := by
  intro header name value h
  obtain ⟨rfl, -⟩ := Prod.mk.inj (List.mem_singleton.mp h)
  exact (List.takeWhile_prefix _).isInfix

/-- A decoder of logouts. -/
def logoutDecoder : Decoder where
  unread _ _ := none
  decode endpoint _ _ := if endpoint = .logout then some .logout else none
  sound h := by
    obtain ⟨rfl, h⟩ := Option.ite_none_right_eq_some.mp h
    obtain rfl := Option.some.inj h
    rfl

/-- A deployment that has one allowed origin. -/
def logoutSite : HttpSite :=
  ⟨Auth.sampleEnv, Content.sampleEnv, oneCookie, defaultRoutes, Web.siteOrigins, logoutDecoder⟩

/-- `POST /v1/auth/logout` with these headers. -/
def sampleLogout (headers : Headers) : HttpRequest :=
  ⟨⟨.http, "POST".toList, "/v1/auth/logout".toList, headers⟩, [], 0, Auth.drawA, 1, []⟩

/-- By the editor's key, and by a page of another site with the session cookie. -/
def keyLogout : HttpRequest := sampleLogout [("x-api-key".toList, Auth.drawA.token.secret)]

/-- What a page of another site can send. `null` is the origin of a page that has none of its own.
-/
def forgedLogout : HttpRequest :=
  sampleLogout [("cookie".toList, "sw_session=t".toList), ("origin".toList, "null".toList)]

/-- The forged logout leaves the run as it is without it. -/
theorem forged_logout_dropped :
    logoutSite.respondAll sampleInstallation.db [keyLogout, forgedLogout] =
      logoutSite.respondAll sampleInstallation.db [keyLogout] := by
  have hcross : CrossSite logoutSite forgedLogout :=
    ⟨rfl, by decide, by decide, by decide, by decide⟩
  have hcarries : CarriesSession logoutSite.web forgedLogout.scope.headers :=
    ⟨"t".toList, by decide⟩
  exact (cross_site_harmless oneCookie_names (by decide) hcross).1 hcarries _ [keyLogout] []

end SarkariWorld.Site
