import SecretForge.Json
import SecretForge.Value

/-!
# JSON values as configuration values

A JSON value has the text that the same value has in a configuration.  It can be looked into as it is,
or be turned into a tree of values, where half of a surrogate pair becomes the replacement character.
-/

namespace SecretForge.Json

open SecretForge.Number SecretForge.Text

mutual

def quoted : Json → Except IntegerFault String
  | .null => Scalar.null.quoted
  | .bool b => (Scalar.bool b).quoted
  | .int i => (Scalar.int i).quoted
  | .float x => (Scalar.float x).quoted
  | .text s => .ok (Quoted.codePoints s)
  | .list items => do Layer.text (.list (← quotedAll items))
  | .object entries => do Layer.text (.map (← quotedEntries entries))

def quotedAll : List Json → Except IntegerFault (List String)
  | [] => .ok []
  | v :: vs => return (← quoted v) :: (← quotedAll vs)

/-- The quoted texts of the keys and values of entries in order. -/
def quotedEntries : List (CodePoints × Json) → Except IntegerFault (List (String × String))
  | [] => .ok []
  | (k, v) :: es => return (Quoted.codePoints k, ← quoted v) :: (← quotedEntries es)

end

def layer : Json → Layer Json
  | .null => .scalar .null
  | .bool b => .scalar (.bool b)
  | .int i => .scalar (.int i)
  | .float x => .scalar (.float x)
  | .text s => .scalar (.text (ofCodePoints s))
  | .list items => .list items
  | .object entries => .map (entries.map fun e => (.text e.1, e.2))

instance : Layered Json := ⟨layer, quoted⟩

mutual

def toValue : Json → Value
  | .null => .null
  | .bool b => .scalar (.bool b)
  | .int i => .scalar (.int i)
  | .float x => .scalar (.float x)
  | .text s => .text (ofCodePoints s)
  | .list items => .list (toValues items)
  | .object entries => .map (toEntries entries)

def toValues : List Json → List Value
  | [] => []
  | v :: vs => v.toValue :: toValues vs

/-- `toValue` for every entry of an object. -/
def toEntries : List (CodePoints × Json) → List (Value × Value)
  | [] => []
  | (k, v) :: es => (.text (ofCodePoints k), v.toValue) :: toEntries es

end

end SecretForge.Json
