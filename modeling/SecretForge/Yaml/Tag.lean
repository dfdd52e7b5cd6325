import SecretForge.Text.Search
import SecretForge.Yaml.Cursor

/-!
# Types of YAML nodes

A node has a type, which a tag names or which follows from its form: a collection is a sequence or a
mapping, a quoted scalar a text, and a plain scalar whatever its characters look like (a truth value,
a number, a timestamp, nothing at all, or else a text).
-/

namespace SecretForge.Yaml

/-- The type of a node. -/
inductive Tag where
  | null
  | bool
  | int
  | float
  | binary
  | timestamp
  | text
  | sequence
  | mapping
  | set
  | orderedMap
  | pairs
  /-- The key that merges other mappings into its own. -/
  | merge
  /-- The key whose value stands for its mapping. -/
  | default
  /-- A type that has no values. -/
  | unknown
  deriving DecidableEq, Repr

namespace Tag

/-- What a tag of the standard types starts with. -/
def standard : String := "tag:yaml.org,2002:"

/-- The type that a full tag names. -/
def ofName (name : String) : Tag :=
  match Text.stripStart? standard.toList name.toList with
  | none => .unknown
  | some cs =>
    match String.ofList cs with
    | "null" => .null
    | "bool" => .bool
    | "int" => .int
    | "float" => .float
    | "binary" => .binary
    | "timestamp" => .timestamp
    | "str" => .text
    | "seq" => .sequence
    | "map" => .mapping
    | "set" => .set
    | "omap" => .orderedMap
    | "pairs" => .pairs
    | "merge" => .merge
    | "value" => .default
    | _ => .unknown

/-! ### The forms of plain scalars -/

def isBinaryChar (c : Char) : Bool := c = '0' || c = '1' || c = '_'

def isOctalChar (c : Char) : Bool := ('0' ≤ c && c ≤ '7') || c = '_'

def isDecimalChar (c : Char) : Bool := c.isDigit || c = '_'

/-- A hexadecimal digit or an underscore. -/
def isHexChar (c : Char) : Bool :=
  isDecimalChar c || ('a' ≤ c && c ≤ 'f') || ('A' ≤ c && c ≤ 'F')

/-- Whether the characters are not empty and all of the class `p`. -/
def nonEmptyRun (p : Char → Bool) (cs : List Char) : Bool := !cs.isEmpty && cs.all p

def dropSign : List Char → List Char
  | '-' :: cs => cs
  | '+' :: cs => cs
  | cs => cs

/-- Whether the characters are a number below sixty of one or two digits. -/
def isSixtieth : List Char → Bool
  | [c] => c.isDigit
  | [c, d] => '0' ≤ c && c ≤ '5' && d.isDigit
  | _ => false

/-- Whether the characters are a leading number and at least one more part below sixty, divided by
colons. -/
def isSexagesimal (leadOk : List Char → Bool) (cs : List Char) : Bool :=
  match Text.splitOnChar ':' cs with
  | lead :: part :: parts => leadOk lead && (part :: parts).all isSixtieth
  | _ => false

/-- Digits and underscores that start with a digit from `first` on. -/
def startsWithDigit (first : Char) : List Char → Bool
  | c :: cs => first ≤ c && c ≤ '9' && cs.all isDecimalChar
  | [] => false

/-- Whether plain characters are a whole number: binary, octal, decimal, hexadecimal or sexagesimal,
with an optional sign. -/
def isInteger (cs : List Char) : Bool :=
  let body := dropSign cs
  (match body with
    | '0' :: 'b' :: ds => nonEmptyRun isBinaryChar ds
    | '0' :: 'x' :: ds => nonEmptyRun isHexChar ds
    | ['0'] => true
    | '0' :: ds => ds.all isOctalChar
    | _ => startsWithDigit '1' body)
  || isSexagesimal (startsWithDigit '1') body

/-- Whether the characters are an exponent with a sign, or nothing. -/
def isExponent : List Char → Bool
  | [] => true
  | e :: s :: ds => (e = 'e' || e = 'E') && (s = '-' || s = '+') && nonEmptyRun Char.isDigit ds
  | _ => false

/-- Whether plain characters are a decimal number: with a point, and a sign before the exponent; or
sexagesimal with a point; or a name of infinity or of no number. -/
def isDecimal (cs : List Char) : Bool :=
  let body := dropSign cs
  let (whole, rest) := body.span (· ≠ '.')
  let name := String.ofList body
  (match rest with
    | '.' :: after =>
      let (_, tail) := after.span isDecimalChar
      (startsWithDigit '0' whole && isExponent tail)
        || (whole.isEmpty && body.length == cs.length && startsWithDigit '0' (after.take 1)
          && isExponent tail)
        || (isSexagesimal (startsWithDigit '0') whole && tail.isEmpty)
    | _ => false)
  || name = ".inf" || name = ".Inf" || name = ".INF"
  || (body.length == cs.length && (name = ".nan" || name = ".NaN" || name = ".NAN"))

def isTruthValue (cs : List Char) : Bool :=
  ["yes", "Yes", "YES", "no", "No", "NO", "true", "True", "TRUE", "false", "False", "FALSE",
    "on", "On", "ON", "off", "Off", "OFF"].contains (String.ofList cs)

/-- Whether plain characters stand for no value. -/
def isNothing (cs : List Char) : Bool := ["", "~", "null", "Null", "NULL"].contains (String.ofList cs)

end Tag

/-- The parts of a timestamp as they are written; `time` is missing for a date alone. -/
structure Moment where
  year : List Char
  month : List Char
  day : List Char
  time : Option (List Char × List Char × List Char × List Char)
  /-- The sign, the hours and the minutes of an offset; a zero offset may be written `Z`. -/
  zone : Option (Option (Char × List Char × List Char))
  deriving Repr

namespace Moment

def oneOrTwo? : List Char → Option (List Char × List Char)
  | a :: b :: cs =>
    if a.isDigit then some (if b.isDigit then ([a, b], cs) else ([a], b :: cs)) else none
  | [a] => if a.isDigit then some ([a], []) else none
  | [] => none

def two? : List Char → Option (List Char × List Char)
  | a :: b :: cs => if a.isDigit && b.isDigit then some ([a, b], cs) else none
  | _ => none

/-- A character that must stand here, and the rest. -/
def expect? (c : Char) : List Char → Option (List Char)
  | d :: cs => if c = d then some cs else none
  | [] => none

/-- An offset after optional blanks, or nothing, up to the end. -/
def zone? (cs : List Char) : Option (Option (Option (Char × List Char × List Char))) :=
  match cs, cs.dropWhile fun c => c = ' ' || c = '\t' with
  | [], _ => some none
  | _, ['Z'] => some (some none)
  | _, s :: rest =>
    if s = '-' || s = '+' then do
      let (h, rest) ← oneOrTwo? rest
      match rest with
      | [] => some (some (some (s, h, [])))
      | _ =>
        let rest ← expect? ':' rest
        match ← two? rest with
        | (m, []) => some (some (some (s, h, m)))
        | _ => none
    else none
  | _, [] => none

/-- The parts of a timestamp, if the characters are one. -/
def ofChars? (cs : List Char) : Option Moment := do
  let (y₁, cs) ← two? cs
  let (y₂, cs) ← two? cs
  let cs ← expect? '-' cs
  let (month, cs) ← oneOrTwo? cs
  let cs ← expect? '-' cs
  let (day, cs) ← oneOrTwo? cs
  if cs.isEmpty then return ⟨y₁ ++ y₂, month, day, none, none⟩
  let cs ← match cs with
    | 'T' :: cs => some cs
    | 't' :: cs => some cs
    | c :: cs =>
      if c = ' ' || c = '\t' then some (cs.dropWhile fun c => c = ' ' || c = '\t') else none
    | [] => none
  let (hour, cs) ← oneOrTwo? cs
  let cs ← expect? ':' cs
  let (minute, cs) ← two? cs
  let cs ← expect? ':' cs
  let (second, cs) ← two? cs
  let (fraction, cs) := match cs with
    | '.' :: cs => cs.span Char.isDigit
    | cs => ([], cs)
  let zone ← zone? cs
  return ⟨y₁ ++ y₂, month, day, some (hour, minute, second, fraction), zone⟩

end Moment

namespace Tag

/-- Whether plain characters are a timestamp: a date alone has two digits each for month and day. -/
def isTimestamp (cs : List Char) : Bool :=
  match Moment.ofChars? cs with
  | some m => m.time.isSome || (m.month.length == 2 && m.day.length == 2)
  | none => false

/-- The characters that a form is recognised in: one line break at the end does not count. -/
def significant (cs : List Char) : List Char :=
  if cs.getLast? = some '\n' then cs.dropLast else cs

/-- The type of a plain scalar, from its characters. -/
def ofPlain (text : String) : Tag :=
  let cs := significant text.toList
  if text.isEmpty then .null
  else if cs.isEmpty then .text
  else if isTruthValue cs then .bool
  else if isDecimal cs then .float
  else if isInteger cs then .int
  else if cs = ['<', '<'] then .merge
  else if isNothing cs then .null
  else if isTimestamp cs then .timestamp
  else if cs = ['='] then .default
  else if cs = ['!'] || cs = ['&'] || cs = ['*'] then .unknown
  else .text

end Tag

end SecretForge.Yaml
