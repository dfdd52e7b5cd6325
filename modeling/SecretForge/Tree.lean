import SecretForge.Json
import SecretForge.Value

/-!
# Trees of texts

The shape that templates and recorded operations are written in: texts, lists, and mappings with texts
as keys.  A tree is a configuration value and a JSON value alike.
-/

namespace SecretForge

inductive Tree where
  | text (s : String)
  | list (items : List Tree)
  | map (entries : List (String × Tree))

namespace Tree

mutual

def toValue : Tree → Value
  | .text s => .text s
  | .list ts => .list (toValues ts)
  | .map es => .map (toEntries es)

def toValues : List Tree → List Value
  | [] => []
  | t :: ts => toValue t :: toValues ts

def toEntries : List (String × Tree) → List (Value × Value)
  | [] => []
  | (k, t) :: es => (.text k, toValue t) :: toEntries es

end

mutual

def toJson : Tree → Json
  | .text s => .ofString s
  | .list ts => .list (toJsons ts)
  | .map es => .object (toJsonEntries es)

def toJsons : List Tree → List Json
  | [] => []
  | t :: ts => toJson t :: toJsons ts

def toJsonEntries : List (String × Tree) → List (CodePoints × Json)
  | [] => []
  | (k, t) :: es => (codePoints k, toJson t) :: toJsonEntries es

end

end Tree

end SecretForge
