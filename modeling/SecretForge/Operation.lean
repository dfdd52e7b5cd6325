import SecretForge.Text.Utf8

/-!
# Store operations

What the tool asks of a secret store: to set one value of one item.  Values that a command produces
are bytes; notes are a text, because they are taken from the config as they stand.
-/

namespace SecretForge

inductive Assignment where
  | field (name : String) (value : List UInt8)
  | attachment (name : String) (value : List UInt8)
  | password (value : List UInt8)
  | notes (text : String)
  deriving DecidableEq, Repr

/-- A request to set one value of an item. -/
structure Operation where
  item : String
  assignment : Assignment
  deriving DecidableEq, Repr

namespace Assignment

/-- The name of the request that carries the assignment. -/
def call : Assignment → String
  | .field _ _ => "set_field"
  | .attachment _ _ => "set_attachment"
  | .password _ => "set_password"
  | .notes _ => "set_notes"

/-- The text that the assignment makes a secret.  Notes are no secret. -/
def secret? : Assignment → Option String
  | .field _ value => some (Text.Utf8.decodeReplacing value)
  | .attachment _ value => some (Text.Utf8.decodeReplacing value)
  | .password value => some (Text.Utf8.decodeReplacing value)
  | .notes _ => none

end Assignment

end SecretForge
