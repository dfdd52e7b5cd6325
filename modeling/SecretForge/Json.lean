import SecretForge.Number.Double

/-!
# JSON values

The documents that the secret store keeps and the key file of a service account.  Texts are sequences
of code points rather than characters, because an escape may name half of a surrogate pair alone, and
such a text has to survive being read and written again.  The entries of an object are in order and
have distinct keys.
-/

namespace SecretForge

/-- A text as its code points, surrogates included. -/
abbrev CodePoints := List Nat

inductive Json where
  | null
  | bool (b : Bool)
  | int (i : Int)
  | float (x : Number.Double)
  | text (s : CodePoints)
  | list (items : List Json)
  | object (entries : List (CodePoints × Json))
  deriving Inhabited

def codePoints (s : String) : CodePoints := s.toList.map Char.toNat

/-- The text of code points; a lone surrogate is shown by the replacement character. -/
def ofCodePoints (s : CodePoints) : String :=
  String.ofList (s.map fun n =>
    if 0xD800 ≤ n && n ≤ 0xDFFF then Char.ofNat 0xFFFD else Char.ofNat n)

namespace Json

def ofString (s : String) : Json := .text (codePoints s)

/-- The value under a key of an object's entries. -/
def find? (key : CodePoints) : List (CodePoints × Json) → Option Json
  | [] => none
  | (k, v) :: es => if k = key then some v else find? key es

/-- The entries with a value put under a key: a key that is there keeps its place. -/
def put (key : CodePoints) (v : Json) : List (CodePoints × Json) → List (CodePoints × Json)
  | [] => [(key, v)]
  | (k, w) :: es => if k = key then (k, v) :: es else (k, w) :: put key v es

/-- The entries with a value put under a key unless the key is there. -/
def putNew (key : CodePoints) (v : Json) (es : List (CodePoints × Json)) :
    List (CodePoints × Json) :=
  if (find? key es).isSome then es else put key v es

end Json

end SecretForge
