import SarkariWorld.Lib.Replace
import SarkariWorld.Lib.Url
import SarkariWorld.Web.Errors

/-!
# The CSRF middleware

An unsafe request that carries a session cookie must come from an allowed origin.
Whether there is such a cookie is asked twice in this service, and not in the same
way: the middleware looks for the text `sw_session` in the first `Cookie` header, and
`current_user` reads `request.cookies`, which is parsed from all of them. The origin
of a request without `Origin` is parsed from its `Referer`, by a parser that raises.

`csrf_decides_iff` is when the middleware decides on the cookie and the origin: when
the origin is allowed or the two searches agree, and no `Referer` is parsed that
cannot be.

`csrfMiddleware` is the middleware as it stands: the list of origins may be empty, the
method may be safe, the cookie may be absent, and otherwise the origin decides. `Guards`
says what it is there for, in terms of the cookie as the rest of the service reads it. The
lemmas take the branches one at a time.
-/

namespace SarkariWorld.Web

open SarkariWorld.Lib

/-! ## The middleware -/

/-- The methods that are let through unseen. -/
def safeMethods : List Text := ["GET", "HEAD", "OPTIONS", "TRACE"].map String.toList

/-- `SESSION_COOKIE`. -/
def sessionCookie : Text := "sw_session".toList

/-- The scheme and the host of a parsed URL, if there is a host. -/
def originOf (parsed : Url) : Option Text :=
  if parsed.netloc = [] then none else some (parsed.scheme ++ "://".toList ++ parsed.netloc)

/-- The origin of a request: `Origin`, or what is parsed from a `Referer`. -/
def requestOrigin (env : Env) (headers : Headers) : Except Exn (Option Text) :=
  match headers.get "origin".toList with
  | some origin => .ok (some origin)
  | none =>
    match headers.get "referer".toList with
    | none | some [] => .ok none
    | some referer =>
      match urlparse env.checks referer with
      | none => .error (.other "ValueError".toList)
      | some parsed => .ok (originOf parsed)

/-- `SESSION_COOKIE in headers.get("cookie", "")`. -/
def mentionsSession (headers : Headers) : Bool :=
  occurs (literal sessionCookie) ((headers.get "cookie".toList).getD [])

/-- `origin in self.allowed_origins`. -/
def allows (allowedOrigins : List Text) (origin : Option Text) : Bool :=
  origin.any fun origin => allowedOrigins.contains origin

/-- The 403 of the middleware. -/
def csrfRejected : Response :=
  ⟨403, [], .envelope (ErrorDetail.modelDump false
    ⟨"csrf_rejected".toList, "Cross-origin request rejected.".toList, none, none⟩)⟩

/-- `CsrfMiddleware.__call__`. -/
def csrfMiddleware (env : Env) (allowedOrigins : List Text) (app : App) : App := fun scope ctx =>
  if scope.type ≠ .http ∨ allowedOrigins = [] then app scope ctx
  else if scope.method ∈ safeMethods then app scope ctx
  else if mentionsSession scope.headers = false then app scope ctx
  else
    match requestOrigin env scope.headers with
    | .error exn => ⟨none, some exn, ctx⟩
    | .ok origin =>
      if allows allowedOrigins origin then app scope ctx else ⟨some csrfRejected, none, ctx⟩

/-! ## What it is to decide on -/

/-- The request carries the cookie that `current_user` reads. -/
def CarriesSession (env : Env) (headers : Headers) : Prop :=
  ∃ value, (sessionCookie, value) ∈ cookies env headers

/-- The origin of the request is allowed. -/
def FromAllowed (env : Env) (allowedOrigins : List Text) (headers : Headers) : Prop :=
  ∃ origin, requestOrigin env headers = .ok (some origin) ∧ origin ∈ allowedOrigins

/-- The request has no `Origin`, and a `Referer` that cannot be parsed. -/
def MalformedReferer (env : Env) (headers : Headers) : Prop :=
  headers.get "origin".toList = none ∧
    ∃ referer ≠ [], headers.get "referer".toList = some referer ∧
      urlparse env.checks referer = none

/-- What the middleware lets through. -/
def CsrfPasses (env : Env) (allowedOrigins : List Text) (scope : Scope) : Prop :=
  allowedOrigins = [] ∨ scope.method ∈ safeMethods ∨ mentionsSession scope.headers = false ∨
    FromAllowed env allowedOrigins scope.headers

/-- The middleware decides on the cookie and the origin: it runs the application if
there is no cookie or the origin is allowed, and answers 403 without it otherwise. -/
structure Guards (env : Env) (allowedOrigins : List Text) (scope : Scope) : Prop where
  forwards : ¬ CarriesSession env scope.headers ∨ FromAllowed env allowedOrigins scope.headers →
    ∀ app ctx, csrfMiddleware env allowedOrigins app scope ctx = app scope ctx
  rejects : CarriesSession env scope.headers → ¬ FromAllowed env allowedOrigins scope.headers →
    ∀ app ctx, csrfMiddleware env allowedOrigins app scope ctx = ⟨some csrfRejected, none, ctx⟩

/-! ## The middleware, case by case -/

section Cases

variable {env : Env} {allowedOrigins : List Text} {scope : Scope}

/-- Without an `Origin`, a `Referer` that cannot be parsed is an exception. -/
theorem requestOrigin_malformed (h : MalformedReferer env scope.headers) :
    requestOrigin env scope.headers = .error (.other "ValueError".toList) := by
  obtain ⟨horigin, referer, hreferer, hget, hparse⟩ := h
  obtain ⟨c, cs, rfl⟩ := List.exists_cons_of_ne_nil hreferer
  unfold requestOrigin
  rw [horigin, hget]
  dsimp only
  rw [hparse]

/-- Only a malformed `Referer` raises. -/
theorem requestOrigin_wellformed (h : ¬ MalformedReferer env scope.headers) :
    ∃ origin, requestOrigin env scope.headers = .ok origin := by
  unfold requestOrigin
  split
  next origin _ => exact ⟨some origin, rfl⟩
  next horigin =>
    split
    next => exact ⟨none, rfl⟩
    next => exact ⟨none, rfl⟩
    next referer hne hget =>
      split
      next hparse => exact absurd ⟨horigin, referer, hne, hget, hparse⟩ h
      next parsed _ => exact ⟨originOf parsed, rfl⟩

/-- An allowed origin was read off the headers, so nothing was raised on the way. -/
theorem fromAllowed_wellformed (h : FromAllowed env allowedOrigins scope.headers) :
    ¬ MalformedReferer env scope.headers := by
  obtain ⟨origin, horigin, -⟩ := h
  intro hmalformed
  rw [requestOrigin_malformed hmalformed] at horigin
  cases horigin

/-- The middleware compares the origin with the list as text. -/
theorem allows_iff {origin : Option Text} :
    allows allowedOrigins origin = true ↔ ∃ o, origin = some o ∧ o ∈ allowedOrigins := by
  cases origin with
  | none => exact ⟨fun h => (nomatch h), fun ⟨_, h, _⟩ => (nomatch h)⟩
  | some o =>
    refine List.contains_iff_mem.trans ⟨fun h => ⟨o, rfl, h⟩, ?_⟩
    rintro ⟨o', ho, h⟩
    rwa [Option.some.inj ho]

variable (hallowed : allowedOrigins ≠ []) (hhttp : scope.type = .http)
  (hwrites : scope.method ∉ safeMethods)
include hallowed hhttp hwrites

/-- A request that does not mention the cookie goes through. -/
theorem csrf_unmentioned (h : mentionsSession scope.headers = false) (app : App)
    (ctx : LogContext) :
    csrfMiddleware env allowedOrigins app scope ctx = app scope ctx := by
  unfold csrfMiddleware
  rw [if_neg (not_or.mpr ⟨not_not.mpr hhttp, hallowed⟩), if_neg hwrites, if_pos h]

theorem csrf_mentioned (h : mentionsSession scope.headers = true) (app : App) (ctx : LogContext) :
    csrfMiddleware env allowedOrigins app scope ctx =
      match requestOrigin env scope.headers with
      | .error exn => ⟨none, some exn, ctx⟩
      | .ok origin =>
        if allows allowedOrigins origin then app scope ctx else ⟨some csrfRejected, none, ctx⟩ := by
  have hne : ¬ mentionsSession scope.headers = false := by rw [h]; exact Bool.noConfusion
  unfold csrfMiddleware
  rw [if_neg (not_or.mpr ⟨not_not.mpr hhttp, hallowed⟩), if_neg hwrites, if_neg hne]

/-- If the origin cannot be read, the exception leaves the middleware. -/
theorem csrf_malformed (h : mentionsSession scope.headers = true)
    (hreferer : MalformedReferer env scope.headers) (app : App) (ctx : LogContext) :
    csrfMiddleware env allowedOrigins app scope ctx =
      ⟨none, some (.other "ValueError".toList), ctx⟩ := by
  rw [csrf_mentioned hallowed hhttp hwrites h, requestOrigin_malformed hreferer]

theorem csrf_allowed (h : FromAllowed env allowedOrigins scope.headers) (app : App)
    (ctx : LogContext) : csrfMiddleware env allowedOrigins app scope ctx = app scope ctx := by
  obtain ⟨origin, horigin, hmem⟩ := h
  cases hmention : mentionsSession scope.headers with
  | false => exact csrf_unmentioned hallowed hhttp hwrites hmention app ctx
  | true =>
    rw [csrf_mentioned hallowed hhttp hwrites hmention, horigin]
    exact if_pos (allows_iff.mpr ⟨origin, rfl, hmem⟩)

theorem csrf_rejected (h : mentionsSession scope.headers = true)
    (hreferer : ¬ MalformedReferer env scope.headers)
    (hfrom : ¬ FromAllowed env allowedOrigins scope.headers) (app : App) (ctx : LogContext) :
    csrfMiddleware env allowedOrigins app scope ctx = ⟨some csrfRejected, none, ctx⟩ := by
  obtain ⟨origin, horigin⟩ := requestOrigin_wellformed hreferer
  have hno : ¬ allows allowedOrigins origin = true := by
    intro hallows
    obtain ⟨o, rfl, hmem⟩ := allows_iff.mp hallows
    exact hfrom ⟨o, horigin, hmem⟩
  rw [csrf_mentioned hallowed hhttp hwrites h, horigin]
  exact if_neg hno

end Cases

/-- The four ways to get through to the application, exactly as `CsrfPasses` lists them. -/
theorem csrf_passes {env : Env} {allowedOrigins : List Text} {scope : Scope}
    (hhttp : scope.type = .http) (h : CsrfPasses env allowedOrigins scope) (app : App)
    (ctx : LogContext) : csrfMiddleware env allowedOrigins app scope ctx = app scope ctx := by
  by_cases hallowed : allowedOrigins = []
  · exact if_pos (Or.inr hallowed)
  by_cases hsafe : scope.method ∈ safeMethods
  · unfold csrfMiddleware
    rw [if_neg (not_or.mpr ⟨not_not.mpr hhttp, hallowed⟩), if_pos hsafe]
  obtain hmention | hfrom := (h.resolve_left hallowed).resolve_left hsafe
  · exact csrf_unmentioned hallowed hhttp hsafe hmention app ctx
  · exact csrf_allowed hallowed hhttp hsafe hfrom app ctx

/-- Otherwise the application is not called: the answer is the 403, or there is an exception
instead. -/
theorem csrf_blocks {env : Env} {allowedOrigins : List Text} {scope : Scope}
    (hhttp : scope.type = .http) (h : ¬ CsrfPasses env allowedOrigins scope) (app : App)
    (ctx : LogContext) :
    csrfMiddleware env allowedOrigins app scope ctx =
      ⟨none, some (.other "ValueError".toList), ctx⟩ ∨
      csrfMiddleware env allowedOrigins app scope ctx = ⟨some csrfRejected, none, ctx⟩ := by
  obtain ⟨hallowed, h⟩ := not_or.mp h
  obtain ⟨hwrites, h⟩ := not_or.mp h
  obtain ⟨hmention, hfrom⟩ := not_or.mp h
  have hmention : mentionsSession scope.headers = true := Bool.eq_true_of_not_eq_false hmention
  by_cases hreferer : MalformedReferer env scope.headers
  · exact Or.inl (csrf_malformed hallowed hhttp hwrites hmention hreferer app ctx)
  · exact Or.inr (csrf_rejected hallowed hhttp hwrites hmention hreferer hfrom app ctx)

/-! ## When it decides on them -/

/-- An application that does nothing. -/
def silentApp : App := fun _ ctx => ⟨none, none, ctx⟩

/-- **The CSRF decision**: the middleware decides on the cookie and the origin exactly
when it does not have to parse a malformed `Referer`, and the origin is allowed or the
text it looks for is in the first `Cookie` header just if the cookie is there. -/
theorem csrf_decides_iff {env : Env} {allowedOrigins : List Text} {scope : Scope}
    (hallowed : allowedOrigins ≠ []) (hhttp : scope.type = .http)
    (hwrites : scope.method ∉ safeMethods) :
    Guards env allowedOrigins scope ↔
      ¬ (mentionsSession scope.headers = true ∧ MalformedReferer env scope.headers) ∧
        (FromAllowed env allowedOrigins scope.headers ∨
          (mentionsSession scope.headers = true ↔ CarriesSession env scope.headers)) := by
  constructor
  · intro h
    have hparsed : ¬ (mentionsSession scope.headers = true ∧
        MalformedReferer env scope.headers) := by
      rintro ⟨hmention, hreferer⟩
      -- It raises, whatever the cookie.
      have hraise := csrf_malformed hallowed hhttp hwrites hmention hreferer silentApp ⟨none⟩
      have hfrom : ¬ FromAllowed env allowedOrigins scope.headers :=
        fun hfrom => fromAllowed_wellformed hfrom hreferer
      by_cases hcarries : CarriesSession env scope.headers
      · rw [h.rejects hcarries hfrom] at hraise
        cases hraise
      · rw [h.forwards (Or.inl hcarries)] at hraise
        cases hraise
    refine ⟨hparsed, or_iff_not_imp_left.mpr fun hfrom => ⟨fun hmention => ?_, fun hcarries => ?_⟩⟩
    · -- Without the cookie it would have to run the application, and answers itself.
      by_contra hcarries
      have hreject := csrf_rejected hallowed hhttp hwrites hmention
        (fun hreferer => hparsed ⟨hmention, hreferer⟩) hfrom silentApp ⟨none⟩
      rw [h.forwards (Or.inl hcarries)] at hreject
      cases hreject
    · by_contra hmention
      have hrun : csrfMiddleware env allowedOrigins silentApp scope ⟨none⟩ = _ :=
        csrf_unmentioned hallowed hhttp hwrites (Bool.eq_false_iff.mpr hmention) silentApp ⟨none⟩
      rw [h.rejects hcarries hfrom] at hrun
      cases hrun
  · rintro ⟨hparsed, hagree⟩
    constructor
    · intro hopen app ctx
      by_cases hfrom : FromAllowed env allowedOrigins scope.headers
      · exact csrf_allowed hallowed hhttp hwrites hfrom app ctx
      · have hcarries := hopen.resolve_right hfrom
        have hmention : ¬ mentionsSession scope.headers = true :=
          fun hmention => hcarries ((hagree.resolve_left hfrom).mp hmention)
        exact csrf_unmentioned hallowed hhttp hwrites (Bool.eq_false_iff.mpr hmention) app ctx
    · intro hcarries hfrom app ctx
      have hmention := (hagree.resolve_left hfrom).mpr hcarries
      exact csrf_rejected hallowed hhttp hwrites hmention
        (fun hreferer => hparsed ⟨hmention, hreferer⟩) hfrom app ctx

/-! ## Two `Cookie` headers -/

/-- A cookie is named up to the first `=`; without one it has no name. -/
def cookiePair (chunk : Text) : Text × Text :=
  let (key, value) := if chunk.contains '=' then splitOnce '=' chunk else ([], chunk)
  (strip key, strip value)

/-- The libraries, with cookies whose values are not quoted. -/
def plainEnv : Env where
  checks _ := true
  cookieParser t := ((t.splitOn ';').map cookiePair).filter fun cookie => cookie != ([], [])
  cors _ := ⟨fun _ => none, fun _ headers => headers⟩
  debugPage _ := "Traceback".toList

/-- One origin, as in the deployment. -/
def siteOrigins : List Text := ["https://sarkari.world".toList]

/-- An unsafe request with these headers. -/
def post (headers : Headers) : Scope :=
  ⟨.http, "POST".toList, "/api/v1/admin/posts".toList, headers⟩

/-- A write with the session cookie, from elsewhere. -/
def crossSite : Scope :=
  post [("cookie".toList, "theme=dark; sw_session=t".toList), ("origin".toList, "null".toList)]

/-- A page of another site that sends the cookie is turned away, as it should be. -/
theorem crossSite_guarded : Guards plainEnv siteOrigins crossSite := by
  have horigin : crossSite.headers.get "origin".toList = some "null".toList := by decide
  have hcookie : (sessionCookie, "t".toList) ∈ cookies plainEnv crossSite.headers := by decide
  refine (csrf_decides_iff (by decide) rfl (by decide)).mpr ⟨?_, Or.inr ⟨fun _ => ?_, fun _ => ?_⟩⟩
  · rintro ⟨-, hnone, -⟩
    rw [horigin] at hnone
    cases hnone
  · exact ⟨"t".toList, hcookie⟩
  · decide

/-- The same write with its cookies in two headers. -/
def twoHeaders : Scope :=
  post [("cookie".toList, "theme=dark".toList), ("cookie".toList, "sw_session=t".toList),
    ("origin".toList, "null".toList)]

/-- A request with its session in a second `Cookie` header is not. -/
theorem twoHeaders_forwarded :
    ¬ ∀ allowedOrigins ≠ [], ∀ scope : Scope, scope.type = .http → scope.method ∉ safeMethods →
      Guards plainEnv allowedOrigins scope := by
  intro h
  have hguards := h siteOrigins (by decide) twoHeaders rfl (by decide)
  have hcookie : (sessionCookie, "t".toList) ∈ cookies plainEnv twoHeaders.headers := by decide
  have hfrom : ¬ FromAllowed plainEnv siteOrigins twoHeaders.headers := by
    rintro ⟨origin, horigin, hmem⟩
    have hnull : requestOrigin plainEnv twoHeaders.headers = .ok (some "null".toList) := rfl
    rw [hnull] at horigin
    obtain rfl := Option.some.inj (Except.ok.inj horigin)
    revert hmem
    decide
  have hrun := hguards.rejects ⟨"t".toList, hcookie⟩ hfrom silentApp ⟨none⟩
  cases hrun

end SarkariWorld.Web
