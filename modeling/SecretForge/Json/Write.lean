import SecretForge.Json
import SecretForge.Number.Shortest

/-!
# Writing JSON

A value on one line, in ASCII: every other character is escaped by its UTF-16 units.  A stored
document has the entries of each object in the order of their keys.
-/

namespace SecretForge.Json

open SecretForge.Number SecretForge.Text

def escapeUnit (n : Nat) : List Char := '\\' :: 'u' :: hexDigits hexChar 4 n

/-- One code point inside a text. -/
def escapeCode (n : Nat) : List Char :=
  if n = 0x22 then ['\\', '"']
  else if n = 0x5C then ['\\', '\\']
  else if n = 0x0A then ['\\', 'n']
  else if n = 0x0D then ['\\', 'r']
  else if n = 0x09 then ['\\', 't']
  else if n = 0x0C then ['\\', 'f']
  else if n = 0x08 then ['\\', 'b']
  else if 0x20 ≤ n && n ≤ 0x7E then [Char.ofNat n]
  else if n < 0x10000 then escapeUnit n
  else
    escapeUnit (0xD800 + (n - 0x10000) / 0x400) ++ escapeUnit (0xDC00 + (n - 0x10000) % 0x400)

def writeText (s : CodePoints) : List Char := '"' :: s.flatMap escapeCode ++ ['"']

def commaSeparated : List (List Char) → List Char
  | [] => []
  | [p] => p
  | p :: ps => p ++ ',' :: ' ' :: commaSeparated ps

mutual

def write : Json → List Char
  | .null => ['n', 'u', 'l', 'l']
  | .bool true => ['t', 'r', 'u', 'e']
  | .bool false => ['f', 'a', 'l', 's', 'e']
  | .int i => if i < 0 then '-' :: decimalDigits i.natAbs else decimalDigits i.natAbs
  | .float x => (Double.documentLayout.render x).toList
  | .text s => writeText s
  | .list items => '[' :: commaSeparated (writeItems items) ++ [']']
  | .object es => '\x7b' :: commaSeparated (writeEntries es) ++ ['\x7d']

def writeItems : List Json → List (List Char)
  | [] => []
  | v :: vs => write v :: writeItems vs

def writeEntries : List (CodePoints × Json) → List (List Char)
  | [] => []
  | (k, v) :: es => (writeText k ++ ':' :: ' ' :: write v) :: writeEntries es

end

def render (v : Json) : String := String.ofList v.write

/-- Whether one key comes before another: the first code point that differs decides. -/
def keyBefore : CodePoints → CodePoints → Bool
  | [], [] => false
  | [], _ :: _ => true
  | _ :: _, [] => false
  | a :: as, b :: bs => a < b || (a = b && keyBefore as bs)

/-- An entry put in front of the first one with a greater key. -/
def insertSorted (e : CodePoints × Json) : List (CodePoints × Json) → List (CodePoints × Json)
  | [] => [e]
  | e' :: es => if keyBefore e'.1 e.1 then e' :: insertSorted e es else e :: e' :: es

mutual

/-- The value with the entries of every object in the order of their keys. -/
def sorted : Json → Json
  | .list items => .list (sortedItems items)
  | .object es => .object (sortedEntries es)
  | v => v

def sortedItems : List Json → List Json
  | [] => []
  | v :: vs => sorted v :: sortedItems vs

/-- The entries in the order of their keys, and so inside each value. -/
def sortedEntries : List (CodePoints × Json) → List (CodePoints × Json)
  | [] => []
  | (k, v) :: es => insertSorted (k, sorted v) (sortedEntries es)

end

/-- The text of a value with the entries of every object in the order of their keys. -/
def renderSorted (v : Json) : String := v.sorted.render

end SecretForge.Json
