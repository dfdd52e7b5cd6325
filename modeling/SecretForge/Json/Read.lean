import SecretForge.Json
import SecretForge.Number.DoubleText
import SecretForge.Text.Digit
import SecretForge.Text.Search

/-!
# Reading JSON

One value with nothing but blanks around it.  A fault is reported with the offset at which reading
stopped, and with the line and column of that offset.  The names of infinity and of no number count as
numbers, a number with a point or an exponent is a double, and of several entries with one key the
last one counts.
-/

namespace SecretForge.Json

open SecretForge.Number SecretForge.Text

inductive Problem where
  | value
  | propertyName
  | colon
  | comma
  | unterminated
  | controlCharacter
  | escape
  | unitEscape
  | extraData
  | byteOrderMark
  deriving DecidableEq, Repr

/-- Why a text is no JSON value: a problem at an offset, or a number that cannot be converted. -/
inductive Fault where
  | syntaxAt (problem : Problem) (offset : Nat)
  | number (fault : IntegerFault)
  deriving DecidableEq, Repr

def Problem.message : Problem → String
  | .value => "Expecting value"
  | .propertyName => "Expecting property name enclosed in double quotes"
  | .colon => "Expecting ':' delimiter"
  | .comma => "Expecting ',' delimiter"
  | .unterminated => "Unterminated string starting at"
  | .controlCharacter => "Invalid control character at"
  | .escape => "Invalid \\escape"
  | .unitEscape => "Invalid \\uXXXX escape"
  | .extraData => "Extra data"
  | .byteOrderMark => "Unexpected UTF-8 BOM (decode using utf-8-sig)"

/-- The line of an offset, counted from one, and the column in it. -/
def position (text : List Char) (offset : Nat) : Nat × Nat :=
  let before := text.take offset
  ((before.filter (· = '\n')).length + 1, (before.reverse.takeWhile (· ≠ '\n')).length + 1)

def Fault.message (text : String) : Fault → String
  | .syntaxAt problem offset =>
    let (line, column) := position text.toList offset
    s!"{problem.message}: line {line} column {column} (char {offset})"
  | .number fault => fault.message

/-- What is still unread, and the offset reached. -/
structure Place where
  rest : List Char
  offset : Nat

namespace Place

/-- The place `k` characters further on. -/
def skip (k : Nat) (p : Place) : Place := ⟨p.rest.drop k, p.offset + k⟩

def skipBlanks (p : Place) : Place :=
  p.skip (p.rest.takeWhile fun c => c = ' ' || c = '\t' || c = '\n' || c = '\r').length

def fail {α : Type} (p : Place) (problem : Problem) : Except Fault α :=
  .error (.syntaxAt problem p.offset)

end Place

/-- The number that four hexadecimal digits write. -/
def unit? (cs : List Char) : Option Nat :=
  if cs.length = 4 then cs.foldlM (fun n c => (hexDigit? c).map (n * 16 + ·)) 0 else none

/-- The code point of a one-letter escape. -/
def escapeOf? (c : Char) : Option Nat :=
  match c with
  | '"' => some 0x22
  | '\\' => some 0x5C
  | '/' => some 0x2F
  | 'b' => some 0x08
  | 'f' => some 0x0C
  | 'n' => some 0x0A
  | 'r' => some 0x0D
  | 't' => some 0x09
  | _ => none

/-- A unit escape, from its letter: the code point and the place after it.  A high surrogate takes the
low one that an escape right after it names; the text must go on after the escape. -/
def readUnit (p : Place) : Except Fault (Nat × Place) :=
  match unit? ((p.rest.drop 1).take 4), p.rest.drop 5 with
  | some hi, '\\' :: 'u' :: more =>
    if 0xD800 ≤ hi && hi ≤ 0xDBFF && 4 < more.length then
      match unit? (more.take 4) with
      | none => (p.skip 6).fail .unitEscape
      | some lo =>
        if 0xDC00 ≤ lo && lo ≤ 0xDFFF then
          .ok (0x10000 + (hi - 0xD800) * 0x400 + (lo - 0xDC00), p.skip 11)
        else .ok (hi, p.skip 5)
    else .ok (hi, p.skip 5)
  | some n, _ :: _ => .ok (n, p.skip 5)
  | _, _ => p.fail .unitEscape

/-- The code points of a text up to its closing quote; `start` is the offset of the opening one. -/
def readText (start : Nat) : Nat → Place → Except Fault (CodePoints × Place)
  | 0, p => p.fail .unterminated
  | fuel + 1, p =>
    match p.rest with
    | [] => .error (.syntaxAt .unterminated start)
    | '"' :: _ => .ok ([], p.skip 1)
    | ['\\'] => .error (.syntaxAt .unterminated start)
    | '\\' :: 'u' :: _ => do
      let (n, next) ← readUnit (p.skip 1)
      let (more, last) ← readText start fuel next
      return (n :: more, last)
    | '\\' :: c :: _ =>
      match escapeOf? c with
      | none => p.fail .escape
      | some n => (readText start fuel (p.skip 2)).map fun (more, last) => (n :: more, last)
    | c :: _ =>
      if c.toNat < 0x20 then p.fail .controlCharacter
      else (readText start fuel (p.skip 1)).map fun (more, last) => (c.toNat :: more, last)

def digitsHere (cs : List Char) : List Char := cs.takeWhile Char.isDigit

/-- A fraction at the start of a text: the digits after the point. -/
def fractionHere : List Char → List Char
  | '.' :: cs => digitsHere cs
  | _ => []

/-- An exponent at the start of a text: the characters it takes and its value. -/
def exponentHere? : List Char → Option (Nat × Int)
  | e :: cs =>
    if e = 'e' || e = 'E' then
      let (negative, ds) := takeSign cs
      let signs := cs.length - ds.length
      let digits := digitsHere ds
      if digits.isEmpty then none
      else
        let n : Int := ofDigits 10 (digits.map fun d => d.toNat - 48)
        some (1 + signs + digits.length, if negative then -n else n)
    else none
  | [] => none

/-- A number: a whole number without a needless zero in front, then an optional fraction and an
optional exponent. -/
def readNumber (p : Place) : Except Fault (Json × Place) :=
  let negative := p.rest.head? = some '-'
  let body := if negative then p.rest.drop 1 else p.rest
  let whole := match body with
    | '0' :: _ => ['0']
    | _ => digitsHere body
  if whole.isEmpty then p.fail .value
  else
    let rest := body.drop whole.length
    let fraction := fractionHere rest
    let rest := if fraction.isEmpty then rest else rest.drop (fraction.length + 1)
    let exponent := exponentHere? rest
    let taken := (if negative then 1 else 0) + whole.length
      + (if fraction.isEmpty then 0 else fraction.length + 1)
      + (match exponent with | some (n, _) => n | none => 0)
    let next := p.skip taken
    let value := ofDigits 10 ((whole ++ fraction).map fun d => d.toNat - 48)
    if fraction.isEmpty && exponent.isNone then
      if digitLimit < whole.length then .error (.number (.numeralTooLong whole.length))
      else .ok (.int (if negative then -(value : Int) else value), next)
    else
      let e : Int := match exponent with | some (_, e) => e | none => 0
      .ok (.float (Double.ofDecimal negative value (e - fraction.length)), next)

/-- The values that are written as words. -/
def wordHere? (cs : List Char) : Option (Json × Nat) :=
  let words : List (String × Json) := [("null", .null), ("true", .bool true),
    ("false", .bool false), ("NaN", .float .nan), ("Infinity", .float (.infinite false)),
    ("-Infinity", .float (.infinite true))]
  (words.find? fun w => startsWith w.1.toList cs).map fun w => (w.2, w.1.length)

mutual

def readValue : Nat → Place → Except Fault (Json × Place)
  | 0, p => p.fail .value
  | fuel + 1, p =>
    match p.rest with
    | '"' :: _ =>
      (readText p.offset (p.rest.length + 1) (p.skip 1)).map fun (s, next) => (.text s, next)
    | '[' :: _ =>
      let q := (p.skip 1).skipBlanks
      match q.rest with
      | ']' :: _ => .ok (.list [], q.skip 1)
      | _ => (readItems fuel q).map fun (vs, next) => (.list vs, next)
    | '\x7b' :: _ =>
      let q := (p.skip 1).skipBlanks
      match q.rest with
      | '\x7d' :: _ => .ok (.object [], q.skip 1)
      | _ => (readEntries fuel [] q).map fun (es, next) => (.object es, next)
    | cs =>
      match wordHere? cs with
      | some (v, n) => .ok (v, p.skip n)
      | none => readNumber p

/-- The members of a list, up to its end. -/
def readItems : Nat → Place → Except Fault (List Json × Place)
  | 0, p => p.fail .value
  | fuel + 1, p => do
    let (v, q) ← readValue fuel p
    let q := q.skipBlanks
    match q.rest with
    | ']' :: _ => return ([v], q.skip 1)
    | ',' :: _ =>
      let (vs, last) ← readItems fuel (q.skip 1).skipBlanks
      return (v :: vs, last)
    | _ => q.fail .comma

/-- The entries of an object after those in `done`, up to its end. -/
def readEntries : Nat → List (CodePoints × Json) → Place →
    Except Fault (List (CodePoints × Json) × Place)
  | 0, _, p => p.fail .value
  | fuel + 1, done, p => do
    if p.rest.head? ≠ some '"' then p.fail .propertyName
    else
      let (k, q) ← readText p.offset (p.rest.length + 1) (p.skip 1)
      let q := q.skipBlanks
      if q.rest.head? ≠ some ':' then q.fail .colon
      else
        let (v, q) ← readValue fuel (q.skip 1).skipBlanks
        let q := q.skipBlanks
        let done := put k v done
        match q.rest with
        | '\x7d' :: _ => return (done, q.skip 1)
        | ',' :: _ => readEntries fuel done (q.skip 1).skipBlanks
        | _ => q.fail .comma

end

def parse (text : String) : Except Fault Json := do
  let cs := text.toList
  if cs.head? = some (Char.ofNat 0xFEFF) then throw (.syntaxAt .byteOrderMark 0)
  let (v, p) ← readValue (2 * cs.length + 2) (Place.mk cs 0).skipBlanks
  let p := p.skipBlanks
  if p.rest.isEmpty then return v else p.fail .extraData

end SecretForge.Json
