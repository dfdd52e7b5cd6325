import SecretForge.Json.Read
import SecretForge.Trace

/-!
# Secret stores

A store takes one operation at a time and ends its session when it is told to.  What it does with an
operation is its own affair; that it refuses one, and why, is data.
-/

namespace SecretForge

inductive ServerErrorKind where
  | notFound
  | alreadyExists
  | aborted
  | conflict
  | permissionDenied
  | forbidden
  | unauthenticated
  | invalidArgument
  | resourceExhausted
  | internalServerError
  | serviceUnavailable
  | deadlineExceeded
  deriving DecidableEq, Repr

/-- The number by which the server's protocol reports a kind of refusal. -/
def ServerErrorKind.code : ServerErrorKind → Nat
  | .notFound => 404
  | .alreadyExists => 409
  | .aborted => 409
  | .conflict => 409
  | .permissionDenied => 403
  | .forbidden => 403
  | .unauthenticated => 401
  | .invalidArgument => 400
  | .resourceExhausted => 429
  | .internalServerError => 500
  | .serviceUnavailable => 503
  | .deadlineExceeded => 504

structure ServerError where
  kind : ServerErrorKind
  detail : String
  deriving DecidableEq, Repr

def ServerError.message (e : ServerError) : String := s!"{e.kind.code} {e.detail}"

/-- Why a stored version is no document. -/
inductive DocumentFault where
  /-- Its bytes are no text. -/
  | encoding (fault : Text.Utf8.Fault)
  /-- Its text is no JSON. -/
  | notJson (text : String) (fault : Json.Fault)
  /-- It is JSON, but no object. -/
  | noObject
  deriving DecidableEq, Repr

/-- The report of a version that is no document, after the name of its item. -/
def DocumentFault.message : DocumentFault → String
  | .encoding fault => s!" does not hold a JSON item document: {fault.message}"
  | .notJson text fault => s!" does not hold a JSON item document: {fault.message text}"
  | .noObject => " does not hold a JSON item document"

/-- Why a store refuses an operation. -/
inductive StoreFailure where
  /-- The store refuses every request of this name. -/
  | rejected (call : String)
  /-- The output was closed before. -/
  | closed
  /-- The name of the item cannot be the name of a secret. -/
  | invalidName (item : String)
  | readRefused (item : String) (error : ServerError)
  | createRefused (item : String) (error : ServerError)
  | addRefused (item : String) (error : ServerError)
  | noDocument (item : String) (fault : DocumentFault)
  /-- The section of the document that the value belongs to is a list. -/
  | listSection
  /-- The section of the document that the value belongs to is a scalar of the named kind. -/
  | scalarSection (kind : String)
  /-- A refusal by the server that was not foreseen. -/
  | unforeseen (error : ServerError)
  /-- A fault of the program that talks to the server. -/
  | broken (detail : String)
  /-- A fault of the system. -/
  | system (detail : String)
  deriving DecidableEq, Repr

def StoreFailure.message : StoreFailure → String
  | .rejected call => s!"{call} rejected"
  | .closed => "I/O operation on closed file"
  | .invalidName item =>
    s!"Invalid item name '{item}': Secret Manager allows only "
      ++ "letters, numbers, underscores (_) and hyphens (-)"
  | .readRefused item error => s!"failed to read secret {item}: {error.message}"
  | .createRefused item error => s!"failed to create secret {item}: {error.message}"
  | .addRefused item error => s!"failed to add version to secret {item}: {error.message}"
  | .noDocument item fault => s!"secret {item}{fault.message}"
  | .listSection => "list indices must be integers or slices, not str"
  | .scalarSection kind => s!"'{kind}' object does not support item assignment"
  | .unforeseen error => error.message
  | .broken detail => detail
  | .system detail => detail

/-- A secret store with sessions whose state is in `σ`. -/
structure Store (σ : Type) where
  apply : Operation → Act σ (Stop StoreFailure) Unit
  logout : Act σ (Stop StoreFailure) Unit

/-- A store that works on a part of a larger state. -/
def Store.within {σ τ : Type} (part : τ → σ) (put : σ → τ → τ) (store : Store σ) : Store τ where
  apply op := (store.apply op).within part put
  logout := store.logout.within part put

end SecretForge
