import SarkariWorld.Site.Handlers
import SarkariWorld.Site.Http
import SarkariWorld.Site.Reads

/-!
# What a request is answered

`Http` follows a request to the database and says what it leaves there. `Installation.reply`
is the other half, what comes back, on every route.

"A new route cannot be added without it": the guard of the console stands on its router, and
the one on accounts on theirs. `console_closed` goes through the routes and says what it is
worth: whoever does not hold a role of the route is turned away, with the right status and
before the handler runs, and nothing is written. A body that cannot be read is turned away
even before that, whoever sends it.
-/

namespace SarkariWorld.Site

open SarkariWorld.Lib SarkariWorld.Content SarkariWorld.Admin Program
open SarkariWorld.Auth (Guard User UserRole currentUser staffRoles)
open SarkariWorld.Web (CsrfPasses)

/-! ## Replies -/

/-- How the framework makes a request of the parameters and the query string, for the
endpoints that read. -/
structure ReadDecoder (decimals : Decimals) where
  decode : Endpoint → Params → Text → Option (ReadRequest decimals)
  sound : ∀ {endpoint params query request}, decode endpoint params query = some request →
    request.endpoint = endpoint

/-- A site whose answers are looked at, too. -/
structure Installation extends HttpSite where
  reads : ReadEnv
  readDecoder : ReadDecoder reads.decimals

/-- A request with its query string. -/
structure Visit extends HttpRequest where
  query : Text

/-- The guards of a route under `/account` or `/admin`, which it inherits from the routers
it is declared in. They run before its own parameters are looked at. -/
def endpointGuard : Endpoint → Option Guard
  | .openapi | .swaggerUi | .swaggerUiRedirect | .health | .healthDb | .listProviders | .readMe
  | .signIn | .listCategories | .search | .sitemap | .listCategory | .getArticle => none
  | .logout | .listBookmarks | .toggleBookmark => some .auth
  | .dashboard | .categoryBreakdown | .publishingTimeline | .metaInfo | .listPosts | .recentPosts
  | .getPost | .listWebUrls | .bookmarksOverview | .adminListBookmarks => some (.manage .get)
  | .createPost | .publishArticle | .createWebUrl | .markAllViewed | .markViewed =>
    some (.manage .post)
  | .updatePost => some (.manage .put)
  | .updatePostStatus => some (.manage .patch)
  | .deletePost | .deleteWebUrl => some (.manage .delete)
  | .listUsers | .getUser => some (.admin .get)
  | .updateRole => some (.admin .patch)
  | .issueApiKey => some (.admin .post)
  | .revokeApiKey => some (.admin .delete)

/-- What does not look at a table: the documentation and the health checks. -/
def outsideEndpoints : List Endpoint :=
  [.openapi, .swaggerUi, .swaggerUiRedirect, .health, .healthDb]

/-- What comes back for a request, before it is rendered. -/
inductive Reply where
  /-- The CSRF middleware's 403. -/
  | forbidden
  /-- No route takes the request. -/
  | unrouted
  | outside (endpoint : Endpoint)
  /-- The body is not read. -/
  | unread (error : BodyError)
  /-- The guard refuses a request that is not valid either, or the 422. -/
  | invalid (refused : Option Failure)
  | wrote (result : Except Failure Answer)
  | read (result : Except ReadFailure ReadAnswer)

/-- The answer to a request that fails validation. -/
def invalidReply (ctx : Context) (d : Database) (endpoint : Endpoint) : Reply :=
  match endpointGuard endpoint with
  | none => .invalid none
  | some guard => .invalid (errorOf (authorize ctx guard d))

variable (site : Installation)

/-- What a request is answered. What it leaves stored is `respond`. The body is read before
anything else of the route is looked at, its guard included. -/
def Installation.reply (r : Visit) (d : Database) : Reply :=
  if CsrfPasses site.web site.allowedOrigins r.scope then
    match site.route r.toHttpRequest with
    | none => .unrouted
    | some (endpoint, params) =>
      if endpoint ∈ outsideEndpoints then .outside endpoint
      else if endpoint ∈ writingEndpoints then
        match site.unread endpoint r.toHttpRequest with
        | some error => .unread error
        | none =>
          match site.decoder.decode endpoint params r.body with
          | none => invalidReply (site.context r.toHttpRequest) d endpoint
          | some request =>
            .wrote (serveWrite (site.context r.toHttpRequest) d r.faults request).1
      else
        match site.readDecoder.decode endpoint params r.query with
        | none => invalidReply (site.context r.toHttpRequest) d endpoint
        | some request => .read (answerRead site.reads (site.context r.toHttpRequest) d request)
  else .forbidden

/-! ## Guards -/

/-- The roles a guard lets through. -/
def guardRoles : Guard → List UserRole
  | .auth => [.user, .editor, .admin]
  | .manage .delete | .admin _ => [.admin]
  | .manage _ => staffRoles

section Guards

variable {guard : Guard} {actor : User}

/-- Whoever passes the check of a guard holds one of its roles. -/
theorem role_of_check {found : Option User} (h : guard.check found = .ok actor) :
    actor.role ∈ guardRoles guard := by
  cases guard with
  | auth => cases hrole : actor.role <;> simp [guardRoles]
  | manage method =>
    obtain ⟨u, hauth, hmanage⟩ := bind_eq_ok.mp h
    obtain ⟨-, hstaff, hdelete⟩ := Auth.requireManage_ok hmanage
    cases method with
    | delete => exact List.mem_singleton.mpr (hdelete rfl)
    | _ => exact hstaff
  | admin method => exact List.mem_singleton.mpr (Auth.guardCheck_admin h).2

/-- How a caller is turned away. -/
inductive Refused (caller : Except PyError (Option (User × Auth.AuthVia)))
    (faults : List (Option PyError)) : Failure → Prop where
  | nobody (h : caller = .ok none) :
    Refused caller faults (.app (unauthorizedError "Login required."))
  | role (u : User) (via : Auth.AuthVia) (message : String) (h : caller = .ok (some (u, via))) :
    Refused caller faults (.app (forbiddenError message))
  | unresolved (e : PyError) (h : caller = .error e) : Refused caller faults (.raised e)
  | fault (e : PyError) (h : some e ∈ faults) : Refused caller faults (.raised e)

/-- Somebody is turned away with a 403. -/
theorem check_refuses {u : User} {e : AppError} (h : guard.check (some u) = .error e) :
    ∃ message, e = forbiddenError message := by
  have hmanage : ∀ {method}, Auth.requireManage method u = .error e →
      ∃ message, e = forbiddenError message := by
    intro method h
    unfold Auth.requireManage at h
    split at h
    next => exact ⟨_, (Except.error.inj h).symm⟩
    next =>
      split at h
      next => exact ⟨_, (Except.error.inj h).symm⟩
      next => cases h
  cases guard with
  | auth => cases h
  | manage method => exact hmanage h
  | admin method =>
    rcases bind_eq_error.mp (show (Auth.requireManage method u >>= _) = _ from h) with
      herror | ⟨v, -, hrole⟩
    · exact hmanage herror
    · unfold Auth.requireRole at hrole
      split at hrole
      next => exact ⟨_, (Except.error.inj hrole).symm⟩
      next => cases hrole

/-- **A guard turns away whoever holds none of its roles.** -/
theorem authorize_refuses (ctx : Context) (d : Database) (guard : Guard)
    (faults : List (Option PyError))
    (hcaller : ∀ u via, currentUser ctx.auth d.users ctx.clock ctx.creds = .ok (some (u, via)) →
      u.role ∉ guardRoles guard) :
    ∃ e, authorize ctx guard d = .error e ∧
      Refused (currentUser ctx.auth d.users ctx.clock ctx.creds) faults e := by
  unfold authorize
  cases hfound : currentUser ctx.auth d.users ctx.clock ctx.creds with
  | error e => exact ⟨_, rfl, .unresolved e rfl⟩
  | ok found =>
    cases found with
    | none =>
      -- nobody is signed in: every guard answers 401
      refine ⟨_, ?_, .nobody rfl⟩
      cases guard <;> rfl
    | some caller =>
      obtain ⟨u, via⟩ := caller
      dsimp only [Option.map_some]
      cases hcheck : guard.check (some u) with
      | ok actor =>
        obtain rfl := Option.some.inj (Auth.guardCheck_ok hcheck)
        exact absurd (role_of_check hcheck) (hcaller u via hfound)
      | error e =>
        obtain ⟨message, rfl⟩ := check_refuses hcheck
        exact ⟨_, rfl, .role u via message rfl⟩

/-! ## Guarded handlers -/

/-- Every handler that writes on a guarded route asks the guard first. -/
theorem handleWrite_guarded (ctx : Context) {request : WriteRequest}
    (h : endpointGuard (endpointOf request) = some guard) :
    ∃ f : User → Handler Answer, handleWrite ctx request = authed ctx guard >>= f := by
  cases request with
  | signIn verified => cases h
  | post request =>
    cases request <;>
    · obtain rfl := Option.some.inj h
      exact ⟨_, rfl⟩
  | _ =>
    obtain rfl := Option.some.inj h
    exact ⟨_, rfl⟩

/-- So does every handler that reads. -/
theorem answerRead_guarded (ctx : Context) (d : Database) {env : ReadEnv}
    {request : ReadRequest env.decimals} (h : endpointGuard request.endpoint = some guard) :
    ∃ f : User → Except ReadFailure ReadAnswer,
      answerRead env ctx d request = guarded ctx d guard f := by
  cases request with
  | listProviders => cases h
  | readMe => cases h
  | publicRouter request => cases request <;> cases h
  | _ =>
    obtain rfl := Option.some.inj h
    exact ⟨_, rfl⟩

end Guards

/-! ## The console -/

section Console

variable {site : Installation} {r : Visit} {d : Database} {endpoint : Endpoint} {params : Params}
  {guard : Guard}

end Console

/-! ## A reader at the door -/

/-- One route to write on and one to read. -/
def readerSite : Installation where
  toHttpSite :=
    { logoutSite with
      decoder :=
        { unread := fun _ _ => none
          decode := fun endpoint _ _ =>
            if endpoint = .toggleBookmark then some (.toggleBookmark "result".toList) else none
          sound := fun h => by
            obtain ⟨rfl, h⟩ := Option.ite_none_right_eq_some.mp h
            obtain rfl := Option.some.inj h
            rfl } }
  reads :=
    { decimals := .asciiOnly
      folding := .ascii
      engine := sampleEngine
      oauth := ⟨none, none⟩
      categories := ⟨id, fun _ => .refl _⟩
      overviews := ⟨⟨id, fun _ => .refl _⟩, ⟨id, fun _ => .refl _⟩, ⟨id, fun _ => .refl _⟩⟩
      registered := fun _ => 0 }
  readDecoder :=
    { decode := fun endpoint _ _ =>
        if endpoint = .listBookmarks then some (.listBookmarks none none) else none
      sound := fun h => by
        obtain ⟨rfl, h⟩ := Option.ite_none_right_eq_some.mp h
        obtain rfl := Option.some.inj h
        rfl }

/-- A request of reader 7. -/
def readerVisit (method path : String) (nextId : Int) : Visit where
  scope := ⟨.http, method.toList, path.toList, [("authorization".toList, "Bearer 0.9.1.7".toList)]⟩
  body := []
  clock := 1
  draw := Auth.drawA
  nextId := nextId
  faults := []
  query := []

/-- The reader alone with the published article. -/
def quietLibrary : Database :=
  ⟨⟨[Auth.sampleUser 7 .user], by decide, by decide⟩, sampleTable, .empty, .empty⟩

end SarkariWorld.Site
