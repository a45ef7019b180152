import SarkariWorld.Web.Csrf

/-!
# Request ids

`RequestContextMiddleware` is the outermost layer that this service adds. It binds an
id for the request, labels the start of every response that passes through it, and
clears the context when the call is over, however it ends. The error handlers name the
id that is bound when they run; all of them run inside of it but the one for
`Exception`, which the framework runs around everything.

`traceable_iff` says which requests are answered with their id: all but those an
unhandled exception ends, and those the CSRF middleware turns away.

The layers are composed in the order of `create_app`, the first one outermost, and each
has one lemma that says when an answer that passes through it is named (`Named`). Putting
them together is what the theorem does. The endpoint is a parameter: whatever it answers,
raises or both.
-/

namespace SarkariWorld.Web

open SarkariWorld.Lib SarkariWorld.Content

/-! ## The layers -/

/-- The header a client may send an id in, and finds the id of the answer in. -/
def requestIdHeader : Text := "X-Request-ID".toList

/-- What an endpoint does. -/
inductive Outcome where
  | returns (statusCode : Nat) (headers : Headers) (content : Text)
  /-- It raises, and may have started its response. -/
  | raises (started : Option (Nat × Headers × Text)) (exn : Exn)

/-- An endpoint sees the scope, and the id in the log context. -/
abbrev Endpoint := Scope → LogContext → Outcome

/-- A response that is not an error envelope. -/
def page (answer : Nat × Headers × Text) : Response :=
  ⟨answer.1, answer.2.1, .content answer.2.2⟩

/-- `ExceptionMiddleware`: the registered handlers, around the router. What they could
handle is an error of its own once the response has been started. -/
def exceptionMiddleware (endpoint : Endpoint) : App := fun scope ctx =>
  match endpoint scope ctx with
  | .returns statusCode headers content => ⟨some (page (statusCode, headers, content)), none, ctx⟩
  | .raises (some answer) exn =>
    match handlerFor ctx exn with
    | some _ => ⟨some (page answer), some (.other "RuntimeError".toList), ctx⟩
    | none => ⟨some (page answer), some exn, ctx⟩
  | .raises none exn =>
    match handlerFor ctx exn with
    | some response => ⟨some response, none, ctx⟩
    | none => ⟨none, some exn, ctx⟩

/-- `CORSMiddleware`. -/
def corsMiddleware (cors : Cors) (app : App) : App := fun scope ctx =>
  if scope.type ≠ .http then app scope ctx
  else
    match cors.preflight scope with
    | some answer => ⟨some (page answer), none, ctx⟩
    | none =>
      let run := app scope ctx
      { run with response := run.response.map fun response =>
          { response with headers := cors.decorate scope response.headers } }

/-- `Headers(scope=scope).get(REQUEST_ID_HEADER) or uuid4().hex`. -/
def requestId (uuid : Text) (scope : Scope) : Text :=
  match scope.headers.get requestIdHeader with
  | none | some [] => uuid
  | some id => id

/-- `RequestContextMiddleware`. -/
def requestContextMiddleware (uuid : Text) (app : App) : App := fun scope ctx =>
  if scope.type ≠ .http then app scope ctx
  else
    let run := app scope (.bind (requestId uuid scope))
    { response := run.response.map fun response =>
        { response with headers := response.headers.append requestIdHeader (requestId uuid scope) }
      raised := run.raised
      context := .clear }

/-- `ServerErrorMiddleware`: it answers for an exception that reaches it, unless a
response has been started, and raises it again for the server to log. -/
def serverErrorMiddleware (env : Env) (debug : Bool) (app : App) : App := fun scope ctx =>
  let run := app scope ctx
  if scope.type ≠ .http then run
  else
    match run.raised with
    | none => run
    | some exn =>
      let answer :=
        if debug then page (500, [], env.debugPage exn) else unhandledHandler run.context
      { run with response := run.response.or (some answer) }

/-! ## The application -/

/-- The settings the layers are built from. -/
structure Settings where
  debug : Bool
  corsOrigins : List Text
  adminCorsOrigins : List Text

/-- `sorted({*config.cors_origins, *config.admin_cors_origins})`. -/
def Settings.allowedOrigins (config : Settings) : List Text :=
  (config.corsOrigins ++ config.adminCorsOrigins).eraseDups.mergeSort fun a b => decide (a ≤ b)

/-- `setup_middleware`; what is added last is outermost. -/
def setupMiddleware (env : Env) (config : Settings) (uuid : Text) (app : App) : App :=
  let guarded := csrfMiddleware env config.allowedOrigins app
  let shared :=
    if config.allowedOrigins = [] then guarded
    else corsMiddleware (env.cors config.allowedOrigins) guarded
  requestContextMiddleware uuid shared

/-- `create_app`, for one request: the id it would be given is `uuid`. -/
def createApp (env : Env) (config : Settings) (uuid : Text) (endpoint : Endpoint) : App :=
  serverErrorMiddleware env config.debug
    (setupMiddleware env config uuid (exceptionMiddleware endpoint))

/-! ## Traceable -/

/-- The response is labelled with the id, and names it if it is an error envelope. -/
def Traceable (id : Text) (response : Response) : Prop :=
  id ∈ response.headers.getlist requestIdHeader ∧
    ∀ envelope, response.body = .envelope envelope → envelopeRequestId envelope = some (.str id)

/-- An exception no handler is registered for, before the response was started. -/
def Unhandled (outcome : Outcome) : Prop := ∃ name, outcome = .raises none (.other name)

/-- The request is answered below the layer that labels the response, by something
that knows its id: as a preflight request, or by the endpoint and the handlers. -/
def AnsweredInside (env : Env) (config : Settings) (uuid : Text) (endpoint : Endpoint)
    (scope : Scope) : Prop :=
  (config.allowedOrigins ≠ [] ∧
      ((env.cors config.allowedOrigins).preflight scope).isSome = true) ∨
    CsrfPasses env config.allowedOrigins scope ∧
      ¬ Unhandled (endpoint scope (.bind (requestId uuid scope)))

/-- What a layer must hand to the one that labels: a response, which names the id if
it is an error envelope. -/
def Named (id : Text) (run : Run) : Prop :=
  ∃ response, run.response = some response ∧
    ∀ envelope, response.body = .envelope envelope → envelopeRequestId envelope = some (.str id)

section Layers

variable {env : Env} {config : Settings} {uuid id : Text} {endpoint : Endpoint} {app : App}
  {scope : Scope}

/-- An answer of an endpoint carries no id in its body, so there is nothing to compare. -/
theorem page_named (id : Text) (answer : Nat × Headers × Text) (raised : Option Exn)
    (ctx : LogContext) : Named id ⟨some (page answer), raised, ctx⟩ :=
  ⟨page answer, rfl, fun _ henvelope => nomatch henvelope⟩

/-- The handlers inside read the id that is bound. -/
theorem handlerFor_named {exn : Exn} {response : Response}
    (h : handlerFor (.bind id) exn = some response) : Named id ⟨some response, none, .bind id⟩ := by
  refine ⟨response, rfl, fun envelope henvelope => ?_⟩
  cases exn with
  | app error =>
    obtain rfl := Option.some.inj h
    exact errorResponse_requestId henvelope
  | http statusCode detail =>
    obtain rfl := Option.some.inj h
    exact errorResponse_requestId henvelope
  | validation errors =>
    obtain rfl := Option.some.inj h
    exact errorResponse_requestId henvelope
  | other name => cases h

/-- The framework's handler for the known exceptions runs inside and names the bound id; only an
unhandled exception passes it by. -/
theorem exceptionMiddleware_named :
    Named id (exceptionMiddleware endpoint scope (.bind id)) ↔
      ¬ Unhandled (endpoint scope (.bind id)) := by
  unfold exceptionMiddleware
  cases endpoint scope (.bind id) with
  | returns statusCode headers content =>
    exact iff_of_true (page_named _ _ _ _) fun ⟨_, h⟩ => nomatch h
  | raises started exn =>
    cases started with
    -- the response has begun: its first part already has the id
    | some answer =>
      refine iff_of_true ?_ fun ⟨_, h⟩ => nomatch h
      dsimp only
      split <;> exact page_named _ _ _ _
    | none =>
      dsimp only
      split
      -- a registered handler answers, and the page of every handler is named
      next response hresponse =>
        refine iff_of_true (handlerFor_named hresponse) ?_
        rintro ⟨name, h⟩
        injection h with _ h
        subst h
        cases hresponse
      -- no handler: the exception goes on to the server's own page, outside the middleware
      next hresponse =>
        cases exn with
        | other name =>
          refine iff_of_false ?_ fun h => h ⟨name, rfl⟩
          rintro ⟨response, h, -⟩
          cases h
        | app error => cases hresponse
        | http statusCode detail => cases hresponse
        | validation errors => cases hresponse

/-- What passes the CSRF middleware is named if the rest is; its own refusal has no id in it. -/
theorem csrfMiddleware_named {allowedOrigins : List Text} (hhttp : scope.type = .http)
    (ctx : LogContext) : Named id (csrfMiddleware env allowedOrigins app scope ctx) ↔
      CsrfPasses env allowedOrigins scope ∧ Named id (app scope ctx) := by
  by_cases hpass : CsrfPasses env allowedOrigins scope
  · rw [csrf_passes hhttp hpass]
    exact (and_iff_right hpass).symm
  · refine iff_of_false ?_ fun h => hpass h.1
    rintro ⟨response, hresponse, hbody⟩
    obtain hraise | hreject := csrf_blocks hhttp hpass app ctx
    · rw [hraise] at hresponse
      cases hresponse
    · -- Its envelope has a null where the id should be.
      rw [hreject] at hresponse
      obtain rfl := Option.some.inj hresponse
      have hnull := hbody _ rfl
      rw [envelopeRequestId_modelDump] at hnull
      cases hnull

/-- A preflight is answered here, without a body to name. -/
theorem corsMiddleware_named {cors : Cors} (hhttp : scope.type = .http) (ctx : LogContext) :
    Named id (corsMiddleware cors app scope ctx) ↔
      (cors.preflight scope).isSome = true ∨ Named id (app scope ctx) := by
  unfold corsMiddleware
  rw [if_neg (not_not.mpr hhttp)]
  split
  next answer hanswer =>
    rw [hanswer]
    exact iff_of_true (page_named _ _ _ _) (Or.inl rfl)
  next hnone =>
    rw [hnone, Option.isSome_none, Bool.false_eq_true, false_or]
    constructor
    · rintro ⟨response, hresponse, hbody⟩
      obtain ⟨inner, hinner, rfl⟩ := Option.map_eq_some_iff.mp hresponse
      exact ⟨inner, hinner, hbody⟩
    · rintro ⟨response, hresponse, hbody⟩
      exact ⟨_, congrArg (Option.map _) hresponse, hbody⟩

/-- A response that is labelled with the id is traceable if its body, where it names an id, names
this one. -/
theorem label_traceable {response : Response} :
    Traceable id { response with headers := response.headers.append requestIdHeader id } ↔
      ∀ envelope, response.body = .envelope envelope →
        envelopeRequestId envelope = some (.str id) := by
  refine and_iff_right ?_
  rw [Headers.append, Headers.getlist, List.append_eq, List.filter_append, List.map_append]
  refine List.mem_append_right _ (List.mem_map.mpr
    ⟨(requestIdHeader.map Char.toLower, id), List.mem_filter.mpr ⟨?_, ?_⟩, rfl⟩)
  · exact List.mem_singleton.mpr rfl
  · exact beq_self_eq_true _

/-- The answer to an exception that left the layer that labels. -/
theorem unlabelled {response : Response} (h : response.headers = []) : ¬ Traceable id response := by
  rintro ⟨hlabel, -⟩
  rw [h] at hlabel
  cases hlabel

/-- The two outermost layers. -/
theorem traceable_named (hhttp : scope.type = .http) (debug : Bool) (ctx : LogContext) :
    (∃ response, (serverErrorMiddleware env debug (requestContextMiddleware uuid app) scope
        ctx).response = some response ∧ Traceable (requestId uuid scope) response) ↔
      Named (requestId uuid scope) (app scope (.bind (requestId uuid scope))) := by
  unfold serverErrorMiddleware requestContextMiddleware Named
  dsimp only
  rw [if_neg (not_not.mpr hhttp), if_neg (not_not.mpr hhttp)]
  generalize app scope (.bind (requestId uuid scope)) = run
  obtain ⟨response, raised, inner⟩ := run
  cases response with
  | some response =>
    -- Whether it raised or not, the response had been started.
    cases raised with
    | none =>
      simp only [Option.map_some, Option.some.injEq, exists_eq_left']
      exact label_traceable
    | some exn =>
      simp only [Option.map_some, Option.or_some, Option.some.injEq, exists_eq_left']
      exact label_traceable
  | none =>
    refine iff_of_false ?_ fun ⟨_, h, _⟩ => nomatch h
    rintro ⟨response, hresponse, htrace⟩
    cases raised with
    | none => cases hresponse
    | some exn =>
      -- The context has been cleared, and nothing labels what the outermost layer sends.
      obtain rfl := Option.some.inj hresponse
      refine unlabelled ?_ htrace
      cases debug <;> rfl

end Layers

/-- **Every answered request is traceable** if it is answered below the layer that
labels, and no other is. -/
theorem traceable_iff {env : Env} {config : Settings} {uuid : Text} {endpoint : Endpoint}
    {scope : Scope} (hhttp : scope.type = .http) (ctx : LogContext) :
    (∃ response, (createApp env config uuid endpoint scope ctx).response = some response ∧
        Traceable (requestId uuid scope) response) ↔
      AnsweredInside env config uuid endpoint scope := by
  have hcsrf : Named (requestId uuid scope) (csrfMiddleware env config.allowedOrigins
      (exceptionMiddleware endpoint) scope (.bind (requestId uuid scope))) ↔
      CsrfPasses env config.allowedOrigins scope ∧
        ¬ Unhandled (endpoint scope (.bind (requestId uuid scope))) :=
    (csrfMiddleware_named hhttp _).trans (and_congr_right fun _ => exceptionMiddleware_named)
  refine (traceable_named hhttp config.debug ctx).trans ?_
  unfold AnsweredInside
  by_cases hallowed : config.allowedOrigins = []
  · rw [if_pos hallowed, hcsrf]
    exact (or_iff_right fun h => h.1 hallowed).symm
  · rw [if_neg hallowed, corsMiddleware_named hhttp, hcsrf]
    exact or_congr_left (and_iff_right hallowed).symm

/-! ## Two endpoints -/

/-- No origins are configured. -/
def localSettings : Settings := ⟨false, [], []⟩

/-- `GET /health`. -/
def health : Scope := ⟨.http, "GET".toList, "/health".toList, []⟩

/-- An endpoint that finds nothing. -/
def missing : Endpoint := fun _ _ => .raises none (.app (notFoundError "Article not found"))

/-- A 404 is answered with the id of its request, in the header and in the body. -/
theorem missing_traceable : ∃ response,
    (createApp plainEnv localSettings "7f3a".toList missing health ⟨none⟩).response =
      some response ∧
      Traceable "7f3a".toList response := by
  refine (traceable_iff rfl ⟨none⟩).mpr (Or.inr ⟨Or.inr (Or.inl (by decide)), ?_⟩)
  rintro ⟨name, h⟩
  cases h

/-- An endpoint with a bug. -/
def broken : Endpoint := fun _ _ => .raises none (.other "KeyError".toList)

/-- An endpoint that raises what no handler knows is answered outside of the middleware, and the
answer has no header. -/
theorem broken_untraceable : ¬ ∀ (endpoint : Endpoint) (scope : Scope), scope.type = .http →
    ∃ response, (createApp plainEnv localSettings "7f3a".toList endpoint scope
      ⟨none⟩).response = some response ∧ Traceable (requestId "7f3a".toList scope) response := by
  intro h
  have hnone : localSettings.allowedOrigins = [] := by
    rw [Settings.allowedOrigins]
    exact List.mergeSort_nil
  have hnamed := (traceable_named rfl localSettings.debug ⟨none⟩).mp (h broken health rfl)
  rw [if_pos hnone] at hnamed
  have hinside := ((csrfMiddleware_named rfl _).mp hnamed).2
  exact exceptionMiddleware_named.mp hinside ⟨"KeyError".toList, rfl⟩

end SarkariWorld.Web
