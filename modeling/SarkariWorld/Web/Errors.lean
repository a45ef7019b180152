import SarkariWorld.Web.Asgi

/-!
# Error envelopes

Every error body is one `ErrorResponse`. The handlers build it in `_error_response`,
with the id that is bound when they run and without the keys that have no value; the
CSRF middleware builds its own, with neither.

The handlers differ in the status, the code and the message, and one of them adds the
fields that failed. `model_dump` with `exclude_none` drops the keys without a value; the
middleware's own envelope keeps them, so that its `request_id` is there and is null.

An envelope is a JSON value and not a text, so nothing here depends on how it is printed.
Its key `request_id` is what `Web.Tracing` looks for (`envelopeRequestId`).
-/

namespace SarkariWorld.Web

open SarkariWorld.Lib SarkariWorld.Content

/-- One entry of `details`. -/
structure FieldError where
  path : Text
  message : Text

/-- What stands under `error`. -/
structure ErrorDetail where
  code : Text
  message : Text
  requestId : Option Text
  details : Option (List FieldError)

/-- A key of a dump; `exclude_none` leaves it out if it has no value. -/
def dumpKey (excludeNone : Bool) (key : String) : Option Json → List (Text × Json)
  | some value => [(key.toList, value)]
  | none => if excludeNone then [] else [(key.toList, .null)]

/-- An entry as JSON. -/
def FieldError.modelDump (field : FieldError) : Json :=
  .dict [("path".toList, .str field.path), ("message".toList, .str field.message)]

/-- `ErrorResponse(error=detail).model_dump()`. -/
def ErrorDetail.modelDump (excludeNone : Bool) (detail : ErrorDetail) : Json :=
  .dict [("error".toList, .dict
    (("code".toList, .str detail.code) :: ("message".toList, .str detail.message) ::
      (dumpKey excludeNone "request_id" (detail.requestId.map .str) ++
        dumpKey excludeNone "details"
          (detail.details.map fun details => .list (details.map FieldError.modelDump)))))]

/-- `value[key]`. -/
def lookup (key : String) : Json → Option Json
  | .dict entries => (entries.find? fun entry => entry.1 == key.toList).map Prod.snd
  | _ => none

/-- `error.request_id` of an envelope. -/
def envelopeRequestId (envelope : Json) : Option Json :=
  (lookup "error" envelope).bind (lookup "request_id")

/-- `_error_response`. -/
def errorResponse (ctx : LogContext) (statusCode : Nat) (code message : Text)
    (details : Option (List FieldError)) : Response :=
  ⟨statusCode, [],
    .envelope (ErrorDetail.modelDump true ⟨code, message, ctx.getRequestId, details⟩)⟩

/-! ## The handlers -/

/-- The service's own errors, which carry their status. -/
def appErrorHandler (ctx : LogContext) (exc : AppError) : Response :=
  errorResponse ctx exc.statusCode exc.code.toList exc.message.toList none

/-- The framework's errors: a route that is not there, a method it does not take. -/
def httpErrorHandler (ctx : LogContext) (statusCode : Nat) (detail : Text) : Response :=
  errorResponse ctx statusCode "http_error".toList detail none

/-- `".".join(str(part) for part in loc[1:]) or "body"`. -/
def fieldPath (loc : List Text) : Text :=
  let path := [('.' : Char)].intercalate (loc.drop 1)
  if path = [] then "body".toList else path

/-- Parameters and bodies that do not validate. -/
def validationErrorHandler (ctx : LogContext) (errors : List (List Text × Text)) : Response :=
  errorResponse ctx 422 "validation_error".toList "Request validation failed".toList
    (some (errors.map fun error => ⟨fieldPath error.1, error.2⟩))

/-- Everything else. The exception is not named in the answer. -/
def unhandledHandler (ctx : LogContext) : Response :=
  errorResponse ctx 500 "internal_error".toList "Internal server error".toList none

/-- The response of the handler that is registered for an exception, apart from the
one for `Exception` itself. -/
def handlerFor (ctx : LogContext) : Exn → Option Response
  | .app error => some (appErrorHandler ctx error)
  | .http statusCode detail => some (httpErrorHandler ctx statusCode detail)
  | .validation errors => some (validationErrorHandler ctx errors)
  | .other _ => none

/-! ## The id in an envelope -/

/-- The id in an envelope is the one it was built with; without one, the key is dropped or is null.
-/
theorem envelopeRequestId_modelDump (excludeNone : Bool) (detail : ErrorDetail) :
    envelopeRequestId (detail.modelDump excludeNone) =
      (detail.requestId.map Json.str).or (if excludeNone then none else some .null) := by
  obtain ⟨code, message, requestId, details⟩ := detail
  cases requestId with
  | some id => rfl
  | none =>
    cases excludeNone with
    | false => rfl
    | true => cases details <;> rfl

/-- What the handlers answer names the bound id, and no id if none is bound. -/
theorem errorResponse_requestId {ctx : LogContext} {statusCode : Nat} {code message : Text}
    {details : Option (List FieldError)} {envelope : Json}
    (h : (errorResponse ctx statusCode code message details).body = .envelope envelope) :
    envelopeRequestId envelope = ctx.requestId.map .str := by
  obtain rfl := Body.envelope.inj h
  rw [envelopeRequestId_modelDump, if_pos rfl, Option.or_none]
  rfl

end SarkariWorld.Web
