/-!
# Errors

`PyError` is what the libraries raise; `AppError` is what the service raises on
purpose, with the status, code and message its error envelope carries. A
request ends badly in one of the two: an `AppError` becomes its own response,
anything else a 500.

The exceptions of the libraries that matter here are listed by name. What is caught where
it is raised (a token that cannot be decoded, an `id` that is no number, a credential
Google refuses) is not among them: these leave the handler. The messages of an `AppError`
are the source's texts.
-/

namespace SarkariWorld

/-- The exceptions of the libraries, as far as the service can meet one. -/
inductive PyError where
  /-- `ValueError`, from bcrypt or `int`. -/
  | valueError
  /-- `MultipleResultsFound`, from `scalar_one_or_none`. -/
  | multipleResultsFound
  /-- `IntegrityError`: a unique index refused the row at commit. -/
  | integrityError
  /-- `DataError`: a value does not fit its column. -/
  | dataError
  /-- `StaleDataError`: an `UPDATE` found no row to write. -/
  | staleDataError
  /-- `InvalidRequestError`: a refresh found no row to read. -/
  | invalidRequestError
  /-- `OperationalError`: the database did not answer. -/
  | operationalError
  deriving DecidableEq, Repr

/-- An error the service raises itself. -/
structure AppError where
  statusCode : Nat
  code : String
  message : String
  deriving DecidableEq, Repr

def notFoundError (message : String) : AppError := ⟨404, "not_found", message⟩
def validationError (message : String) : AppError := ⟨422, "validation_error", message⟩
def conflictError (message : String) : AppError := ⟨409, "conflict", message⟩
def unauthorizedError (message : String) : AppError := ⟨401, "unauthorized", message⟩
def forbiddenError (message : String) : AppError := ⟨403, "forbidden", message⟩

/-- How a request fails. -/
inductive Failure where
  | app (error : AppError)
  | raised (error : PyError)
  deriving DecidableEq, Repr

end SarkariWorld
