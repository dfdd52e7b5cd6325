import SecretForge.Calendar
import SecretForge.Number.Integer
import SecretForge.Number.Shortest
import SecretForge.Text.Quoted

/-!
# Scalars

The values without parts that a configuration can hold, and their text.  A scalar has a *plain* text,
which is what an item template takes over, and a *quoted* text, which shows it exactly.

* `Scalar.sameKey` says which scalars are one key of a mapping.
-/

namespace SecretForge

open SecretForge.Calendar SecretForge.Number SecretForge.Text

inductive Scalar where
  | null
  | bool (b : Bool)
  | int (i : Int)
  | float (x : Double)
  | text (s : String)
  | bytes (bs : List UInt8)
  | date (d : Date)
  | timestamp (t : Timestamp)
  deriving DecidableEq, Repr, Inhabited

namespace Scalar

def kind : Scalar → String
  | .null => "NoneType"
  | .bool _ => "bool"
  | .int _ => "int"
  | .float _ => "float"
  | .text _ => "str"
  | .bytes _ => "bytes"
  | .date _ => "date"
  | .timestamp _ => "datetime"

/-- Whether a scalar counts as absent: no value, false, zero, or empty. -/
def isEmpty : Scalar → Bool
  | .null => true
  | .bool b => !b
  | .int i => i == 0
  | .float x => x.isZero
  | .text s => s.isEmpty
  | .bytes bs => bs.isEmpty
  | .date _ => false
  | .timestamp _ => false

/-- The number that a scalar stands for as a key: booleans are the numbers 0 and 1. -/
def asInt? : Scalar → Option Int
  | .bool b => some (if b then 1 else 0)
  | .int i => some i
  | .float x => x.toInt?
  | _ => none

/-- Whether two scalars are the same key.  Numbers are compared by value across booleans, whole
numbers and doubles, and timestamps by the moment they name. -/
def sameKey : Scalar → Scalar → Bool
  | .null, .null => true
  | .text s, .text t => s == t
  | .bytes a, .bytes b => a == b
  | .date a, .date b => a == b
  | .timestamp a, .timestamp b => a.same b
  | .float x, .float y => x.same y
  | a, b =>
    match a.asInt?, b.asInt? with
    | some i, some j => i == j
    | _, _ => false

/-- The quoted text of a scalar: what shows it exactly. -/
def quoted : Scalar → Except IntegerFault String
  | .null => .ok "None"
  | .bool b => .ok (if b then "True" else "False")
  | .int i => writeInteger i
  | .float x => .ok (Double.plainLayout.render x)
  | .text s => .ok (Quoted.text s)
  | .bytes bs => .ok (Quoted.bytes bs)
  | .date d => .ok d.literal
  | .timestamp t => .ok t.literal

/-- The plain text of a scalar: the characters of a text, date and time in ordinary notation, and
otherwise the quoted text. -/
def plain : Scalar → Except IntegerFault String
  | .text s => .ok s
  | .date d => .ok d.render
  | .timestamp t => .ok t.render
  | v => v.quoted

end Scalar

end SecretForge
