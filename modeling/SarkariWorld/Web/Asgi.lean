import SarkariWorld.Content.Payload
import SarkariWorld.Errors
import SarkariWorld.Lib.Text

/-!
# ASGI applications

A request passes through layers that each wrap the next one. A layer sees the scope
of the request, calls what it wraps or answers itself, and may change the start of
the response on its way out. What it can end in is a response, an exception, or both,
if the exception came after the response had been started.

The log context is the one variable the layers share: `RequestContextMiddleware`
binds the request id there and the error handlers read it.

Of the protocol there is left what the layers look at. Headers are in the order they came,
with their names in lower case, and a response has the headers that the layers give it;
those that the framework derives from the body are left out. A body is an error envelope
or the answer of an endpoint, and no layer looks into the latter.
-/

namespace SarkariWorld.Web

open SarkariWorld.Lib SarkariWorld.Content

/-- The kinds of connection a server may ask an application to handle. -/
inductive ScopeType where
  | http
  | websocket
  | lifespan
  deriving DecidableEq, Repr

/-- Header names and values, in the order they came; the names in lower case. -/
abbrev Headers := List (Text × Text)

/-- What is known of a request before its body is read. -/
structure Scope where
  type : ScopeType
  method : Text
  path : Text
  headers : Headers

/-- `Headers.get`: the first header of that name. -/
def Headers.get (headers : Headers) (key : Text) : Option Text :=
  (headers.find? fun header => header.1 == key.map Char.toLower).map Prod.snd

/-- `Headers.getlist`. -/
def Headers.getlist (headers : Headers) (key : Text) : List Text :=
  (headers.filter fun header => header.1 == key.map Char.toLower).map Prod.snd

/-- `MutableHeaders.append`. -/
def Headers.append (headers : Headers) (key value : Text) : Headers :=
  List.append headers [(key.map Char.toLower, value)]

/-- The body of a response, as far as a layer may look into it. -/
inductive Body where
  /-- An `ErrorResponse`, dumped. -/
  | envelope (content : Json)
  /-- What an endpoint or the framework answered. -/
  | content (content : Text)

/-- A response with the headers the layers give it. Those the framework derives from
the body, its length and its type, are left out. -/
structure Response where
  statusCode : Nat
  headers : Headers
  body : Body

/-- What the handlers tell apart. -/
inductive Exn where
  | app (error : AppError)
  /-- `HTTPException`. -/
  | http (statusCode : Nat) (detail : Text)
  /-- `RequestValidationError`, with the `loc` and the `msg` of each error. -/
  | validation (errors : List (List Text × Text))
  /-- An exception of another class. -/
  | other (name : Text)

/-- The values bound for one task, of which only the id is read again. -/
structure LogContext where
  requestId : Option Text

/-- `clear_request_context`. -/
def LogContext.clear : LogContext := ⟨none⟩

/-- `bind_request_context`. -/
def LogContext.bind (requestId : Text) : LogContext := ⟨some requestId⟩

/-- `get_request_id`. -/
def LogContext.getRequestId (ctx : LogContext) : Option Text := ctx.requestId

/-- One call of an application. -/
structure Run where
  /-- The response that was started. -/
  response : Option Response
  raised : Option Exn
  context : LogContext

/-- An application, as its caller sees it. -/
abbrev App := Scope → LogContext → Run

/-- The CORS middleware: what it answers to a preflight request, and the headers it
gives the response to any other. -/
structure Cors where
  preflight : Scope → Option (Nat × Headers × Text)
  decorate : Scope → Headers → Headers

/-- The libraries. -/
structure Env where
  /-- The checks of `urlsplit` on a network location. -/
  checks : Text → Bool
  /-- `cookie_parser`: the names and values of one `Cookie` header. -/
  cookieParser : Text → List (Text × Text)
  /-- `CORSMiddleware`, for a list of origins. -/
  cors : List Text → Cors
  /-- The traceback page of the debug mode. -/
  debugPage : Exn → Text

/-- `request.cookies`: the cookies of all `Cookie` headers. -/
def cookies (env : Env) (headers : Headers) : List (Text × Text) :=
  (headers.getlist "cookie".toList).flatMap env.cookieParser

end SarkariWorld.Web
