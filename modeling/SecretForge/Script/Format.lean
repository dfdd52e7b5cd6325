import SecretForge.Number.Places
import SecretForge.Script.Quote
import SecretForge.Script.Word

/-!
# The command language: formatted output

A format is written as it stands, except for escapes and for directives; a directive takes an argument
and writes it as text, as a number or as a character.  The format is used again as long as there are
arguments left.  An argument that is no number counts as the number it begins with, and is reported.

* `escape` reads one escape.
* `Directive` is how one argument is written.
* `printed` is what a format and its arguments come to.
-/

namespace SecretForge.Script

open SecretForge.Text SecretForge.Number

/-! ### Escapes -/

inductive Escape where
  | text (o : Octets)
  /-- The output ends here. -/
  | stop
  /-- The escape lacks its digits. -/
  | lacking (mark : Char)
  deriving DecidableEq, Repr

/-- The escape after a backslash, with the text after it.  In an argument a zero may stand before the
octal digits, `\c` ends the output, and a quote is not an escape. -/
def escape (inArgument : Bool) : Octets → Escape × Octets
  | [] => (.text ['\\'], [])
  | c :: cs =>
    if c = 'x' then
      match leadingValue 16 2 cs with
      | (_, 0) => (.lacking 'x', c :: cs)
      | (v, k) => (.text [Char.ofNat v], cs.drop k)
    else if c = 'u' || c = 'U' then
      match leadingValue 16 (if c = 'u' then 4 else 8) cs with
      | (_, 0) => (.lacking c, c :: cs)
      | (v, k) => (.text (encodeNumber v), cs.drop k)
    else if '0' ≤ c && c ≤ '7' then
      let (v, k) := leadingValue 8 (if inArgument && c = '0' then 4 else 3) (c :: cs)
      (.text [Char.ofNat (v % 256)], (c :: cs).drop k)
    else if c = 'c' && inArgument then (.stop, cs)
    else if (c = '\'' || c = '"' || c = '?') && !inArgument then (.text [c], cs)
    else match escapeLetter? c with
      | some d => (.text [d], cs)
      | none => (.text ['\\', c], cs)

/-- The text of an argument with its escapes replaced, whether the output ends with it, and the digits
that are lacking. -/
def unescape : Nat → Octets → Octets × Bool × List Char
  | 0, _ => ([], false, [])
  | _, [] => ([], false, [])
  | n + 1, '\\' :: cs =>
    match escape true cs with
    | (.text o, rest) =>
      let (t, stops, lacking) := unescape n rest
      (o ++ t, stops, lacking)
    | (.stop, _) => ([], true, [])
    | (.lacking mark, rest) =>
      let (t, stops, lacking) := unescape n rest
      ('\\' :: t, stops, mark :: lacking)
  | n + 1, c :: cs =>
    let (t, stops, lacking) := unescape n cs
    (c :: t, stops, lacking)

/-! ### Directives -/

structure Directive where
  left : Bool := false
  plus : Bool := false
  blank : Bool := false
  alternate : Bool := false
  zero : Bool := false
  width : Nat := 0
  precision : Option Nat := none
  deriving DecidableEq, Repr

namespace Directive

def fit (d : Directive) (o : Octets) : Octets :=
  let fill := List.replicate (d.width - o.length) ' '
  if d.left then o ++ fill else fill ++ o

def cut (d : Directive) (o : Octets) : Octets :=
  match d.precision with
  | some p => o.take p
  | none => o

/-- A number from its lead and its digits, brought to the width. -/
def number (d : Directive) (padsZero : Bool) (lead digits : Octets) : Octets :=
  if d.zero && !d.left && padsZero then
    lead ++ List.replicate (d.width - lead.length - digits.length) '0' ++ digits
  else d.fit (lead ++ digits)

def sign (d : Directive) (negative : Bool) : Octets :=
  if negative then ['-'] else if d.plus then ['+'] else if d.blank then [' '] else []

/-- Digits brought to the precision; the number zero has none at precision zero. -/
def digits (d : Directive) (base n : Nat) : Octets :=
  let ds := if n = 0 && d.precision = some 0 then [] else Nat.toDigits base n
  List.replicate (d.precision.getD 0 - ds.length) '0' ++ ds

def signed (d : Directive) (i : Int) : Octets :=
  d.number d.precision.isNone (d.sign (i < 0)) (d.digits 10 i.natAbs)

/-- A whole number without a sign. -/
def unsigned (d : Directive) (conversion : Char) (i : Int) : Octets :=
  let n := (i % Nat.pow 2 64).toNat
  match conversion with
  | 'o' =>
    let ds := d.digits 8 n
    d.number d.precision.isNone [] (if d.alternate && ds.head? ≠ some '0' then '0' :: ds else ds)
  | 'x' => d.number d.precision.isNone (if d.alternate && n ≠ 0 then ['0', 'x'] else []) (d.digits 16 n)
  | 'X' =>
    d.number d.precision.isNone (if d.alternate && n ≠ 0 then ['0', 'X'] else [])
      ((d.digits 16 n).map Char.toUpper)
  | _ => d.number d.precision.isNone [] (d.digits 10 n)

def decimals (d : Directive) (conversion : Char) (negative : Bool) (num den : Nat) : Octets :=
  let form : Places.Form := ⟨d.precision.getD 6, d.alternate⟩
  let ds := match conversion with
    | 'f' | 'F' => Places.fixed form num den
    | 'e' => Places.scientific form num den
    | 'E' => (Places.scientific form num den).map Char.toUpper
    | 'G' => (Places.general form num den).map Char.toUpper
    | _ => Places.general form num den
  d.number true (d.sign negative) ds

end Directive

/-! ### Arguments as numbers -/

/-- A number read from the start of an argument, and whether the whole argument was read and the number
was in range. -/
structure Reading (α : Type) where
  value : α
  isWhole : Bool := true
  inRange : Bool := true

def quotedCode (cs : Octets) : Int :=
  match Octets.characters cs with
  | [] => 0
  | c :: _ =>
    match (Octets.toString c).toList with
    | d :: _ => d.toNat
    | [] => 0

def isSpace (c : Char) : Bool := c = ' ' || (9 ≤ c.toNat && c.toNat ≤ 13)

/-- A sign in front of a number, and the rest. -/
def takeSign : Octets → Bool × Octets
  | '-' :: cs => (true, cs)
  | '+' :: cs => (false, cs)
  | cs => (false, cs)

/-- An argument as a whole number: decimal, octal after a zero, hexadecimal after `0x`, or the code of a
character after a quote. -/
def readWhole (o : Octets) : Reading Int :=
  match o with
  | '\'' :: cs => { value := quotedCode cs }
  | '"' :: cs => { value := quotedCode cs }
  | _ =>
    let (negative, cs) := takeSign (o.dropWhile isSpace)
    let (base, ds) : Nat × Octets := match cs with
      | '0' :: 'x' :: d :: rest => if (hexDigit? d).isSome then (16, d :: rest) else (8, cs)
      | '0' :: 'X' :: d :: rest => if (hexDigit? d).isSome then (16, d :: rest) else (8, cs)
      | '0' :: _ => (8, cs)
      | _ => (10, cs)
    let (n, k) := leadingValue base ds.length ds
    let i : Int := if negative then -(n : Int) else n
    let isWhole := (ds.drop k).isEmpty && (0 < k || o.isEmpty)
    if Nat.pow 2 63 ≤ i then { value := (Nat.pow 2 63 : Int) - 1, isWhole, inRange := false }
    else if i < -(Nat.pow 2 63 : Int) then { value := -(Nat.pow 2 63 : Int), isWhole, inRange := false }
    else { value := i, isWhole }

/-- A number with decimals: a quotient with a sign, or something beyond all numbers. -/
inductive Quantity where
  | quotient (negative : Bool) (num den : Nat)
  | infinite (negative : Bool)
  | nan
  deriving DecidableEq, Repr

/-- A quotient rounded to a mantissa of 64 bits. -/
def roundExtended (num den : Nat) : Nat × Nat :=
  if num = 0 then (0, 1)
  else
    let guess : Int := (num.log2 : Int) - (den.log2 : Int) - 63
    let (n, d) := Double.scaled num den guess
    let e := if n < d * Nat.pow 2 63 then guess - 1 else guess
    let (n, d) := Double.scaled num den e
    let m := Double.roundHalfEven n d
    if 0 ≤ e then (m * Nat.pow 2 e.toNat, 1) else (m, Nat.pow 2 (-e).toNat)

def readDecimals (o : Octets) : Reading Quantity :=
  match o with
  | '\'' :: cs => { value := .quotient false (quotedCode cs).toNat 1 }
  | '"' :: cs => { value := .quotient false (quotedCode cs).toNat 1 }
  | _ =>
    let (negative, cs) := takeSign (o.dropWhile isSpace)
    let lower := cs.map Char.toLower
    if lower.take 8 = "infinity".toList then
      { value := .infinite negative, isWhole := cs.length = 8 }
    else if lower.take 3 = "inf".toList then { value := .infinite negative, isWhole := cs.length = 3 }
    else if lower.take 3 = "nan".toList then { value := .nan, isWhole := cs.length = 3 }
    else
      let whole := cs.takeWhile Char.isDigit
      let after := cs.drop whole.length
      let (places, after) : Octets × Octets := match after with
        | '.' :: rest => (rest.takeWhile Char.isDigit, rest.dropWhile Char.isDigit)
        | rest => ([], rest)
      let digits := whole ++ places
      if digits.isEmpty then { value := .quotient negative 0 1, isWhole := o.isEmpty }
      else
        let (exponent, after) : Int × Octets := match after with
          | e :: rest =>
            if e = 'e' || e = 'E' then
              let (minus, ds) := takeSign rest
              let (v, k) := leadingValue 10 ds.length ds
              if k = 0 then (0, e :: rest)
              else (if minus then -(v : Int) else v, ds.drop k)
            else (0, e :: rest)
          | [] => (0, [])
        let n := (leadingValue 10 digits.length digits).1
        let e := max (-5000) (min 5000 exponent) - places.length
        let (num, den) := if 0 ≤ e then roundExtended (n * Nat.pow 10 e.toNat) 1
          else roundExtended n (Nat.pow 10 (-e).toNat)
        { value := .quotient negative num den, isWhole := after.isEmpty }

/-! ### Times -/

def dayNames : List String :=
  ["Sunday", "Monday", "Tuesday", "Wednesday", "Thursday", "Friday", "Saturday"]

def monthNames : List String :=
  ["January", "February", "March", "April", "May", "June", "July", "August", "September", "October",
    "November", "December"]

/-- The year, month and day of a day counted from the first of January 1970. -/
def civil (days : Int) : Int × Nat × Nat :=
  let z := days + 719468
  let era := z.fdiv 146097
  let doe := (z - era * 146097).toNat
  let yoe := (doe - doe / 1460 + doe / 36524 - doe / 146096) / 365
  let doy := doe - (365 * yoe + yoe / 4 - yoe / 100)
  let mp := (5 * doy + 2) / 153
  let day := doy - (153 * mp + 2) / 5 + 1
  let month := if mp < 10 then mp + 3 else mp - 9
  let year : Int := yoe + era * 400 + (if month ≤ 2 then 1 else 0)
  (year, month, day)

def yearDay (days : Int) (year : Int) : Nat :=
  let y := year - 1
  (days - (365 * (year - 1970) + (y.fdiv 4 - y.fdiv 100 + y.fdiv 400)
    - (((1969 : Int).fdiv 4) - ((1969 : Int).fdiv 100) + ((1969 : Int).fdiv 400)))).toNat

/-- A moment, in seconds from the start of 1970, written by a format in universal time. -/
def timeText (seconds : Int) : Nat → Octets → Octets
  | 0, _ => []
  | _, [] => []
  | n + 1, '%' :: c :: cs =>
    let days := seconds.fdiv 86400
    let rest := (seconds.fmod 86400).toNat
    let (year, month, day) := civil days
    let (h, m, s) := (rest / 3600, rest / 60 % 60, rest % 60)
    let weekday := ((days + 4).fmod 7).toNat
    let two (k : Nat) : Octets := (padded 2 k).toList
    let spaced (k : Nat) : Octets := if k < 10 then ' ' :: decimalDigits k else decimalDigits k
    let yearText : Octets := if year < 0 then '-' :: decimalDigits year.natAbs
      else decimalDigits year.natAbs
    let again (f : String) : Octets := timeText seconds n f.toList
    let h12 := if h % 12 = 0 then 12 else h % 12
    let o : Octets := match c with
      | 'Y' => yearText
      | 'C' => two (year.natAbs / 100)
      | 'y' => two (year.natAbs % 100)
      | 'm' => two month
      | 'd' => two day
      | 'e' => spaced day
      | 'H' => two h
      | 'I' => two h12
      | 'k' => spaced h
      | 'l' => spaced h12
      | 'M' => two m
      | 'S' => two s
      | 'N' => "000000000".toList
      | 's' => if seconds < 0 then '-' :: decimalDigits seconds.natAbs else decimalDigits seconds.natAbs
      | 'j' => (padded 3 (yearDay days year + 1)).toList
      | 'u' => decimalDigits (if weekday = 0 then 7 else weekday)
      | 'w' => decimalDigits weekday
      | 'a' => (dayNames.getD weekday "").toList.take 3
      | 'A' => (dayNames.getD weekday "").toList
      | 'b' | 'h' => (monthNames.getD (month - 1) "").toList.take 3
      | 'B' => (monthNames.getD (month - 1) "").toList
      | 'p' => if h < 12 then ['A', 'M'] else ['P', 'M']
      | 'P' => if h < 12 then ['a', 'm'] else ['p', 'm']
      | 'Z' => ['U', 'T', 'C']
      | 'z' => "+0000".toList
      | 'n' => ['\n']
      | 't' => ['\t']
      | '%' => ['%']
      | 'U' => two ((yearDay days year + 7 - weekday) / 7)
      | 'W' => two ((yearDay days year + 7 - (weekday + 6) % 7) / 7)
      | 'F' => again "%Y-%m-%d"
      | 'T' | 'X' => again "%H:%M:%S"
      | 'R' => again "%H:%M"
      | 'D' | 'x' => again "%m/%d/%y"
      | 'r' => again "%I:%M:%S %p"
      | 'c' => again "%a %b %e %H:%M:%S %Y"
      | _ => ['%', c]
    o ++ timeText seconds n cs
  | n + 1, c :: cs => c :: timeText seconds n cs

/-! ### Formats -/

inductive PrintedPart where
  | output (o : Octets)
  | report (o : Octets)
  deriving DecidableEq, Repr

/-- What has been written, and what there is to report.  Lines are written when they are complete, so
that a report stands after the lines before it. -/
structure Printed where
  /-- The lines written and the reports, in order. -/
  parts : List PrintedPart := []
  /-- What is written after them. -/
  output : Octets := []
  failed : Bool := false
  /-- Whether nothing more is to be written. -/
  stops : Bool := false
  /-- Whether the format took an argument. -/
  takes : Bool := false
  args : List Octets := []
  /-- The variables that take the number of octets written so far. -/
  counts : List (Octets × Nat) := []

namespace Printed

def write (p : Printed) (o : Octets) : Printed := { p with output := p.output ++ o }

def report (p : Printed) (s : Octets) (failed : Bool) : Printed :=
  let line := (p.output.reverse.takeWhile (· ≠ '\n')).reverse
  { p with
    parts := p.parts ++ [.output (p.output.take (p.output.length - line.length)), .report s]
    output := line, failed := p.failed || failed }

/-- The lines and the reports in order. -/
def allParts (p : Printed) : List PrintedPart := p.parts ++ [.output p.output]

def text (p : Printed) : Octets := p.allParts.flatMap fun
  | .output o => o
  | .report _ => []

def next (p : Printed) : Option Octets × Printed :=
  (p.args.head?, { p with args := p.args.drop 1, takes := true })

def noted {α : Type} (p : Printed) (arg : Octets) (r : Reading α) : Printed :=
  let p := if r.isWhole then p else p.report (arg ++ ": invalid number".toList) true
  if r.inRange then p
  else p.report ("warning: ".toList ++ arg ++ ": Numerical result out of range".toList) false

/-- The next argument as a whole number; a missing one is zero. -/
def nextWhole (p : Printed) : Int × Printed :=
  match p.next with
  | (none, p) => (0, p)
  | (some arg, p) =>
    let r := readWhole arg
    (r.value, p.noted arg r)

end Printed

/-- A number of a directive: digits or the next argument. -/
def directiveNumber (p : Printed) (cs : Octets) : Int × Printed × Octets :=
  match cs with
  | '*' :: rest =>
    let (v, p) := p.nextWhole
    (v, p, rest)
  | _ =>
    let (v, k) := leadingValue 10 cs.length cs
    (v, p, cs.drop k)

def writeArgument (d : Directive) (conversion : Char) (p : Printed) : Printed :=
  match conversion with
  | 's' =>
    let (arg, p) := p.next
    p.write (d.fit (d.cut (arg.getD [])))
  | 'c' =>
    let (arg, p) := p.next
    p.write (d.fit [((arg.getD []).head?).getD (Char.ofNat 0)])
  | 'b' =>
    let (arg, p) := p.next
    let arg := arg.getD []
    let (o, stops, lacking) := unescape (arg.length + 1) arg
    let p := lacking.foldl (fun p mark =>
      p.report ((if mark = 'x' then "missing hex digit for \\".toList
        else "missing unicode digit for \\".toList) ++ [mark]) false) p
    { p.write (d.fit (d.cut o)) with stops := p.stops || stops }
  | 'q' | 'Q' =>
    let (arg, p) := p.next
    p.write (d.fit (d.cut (backslashQuoted (arg.getD []))))
  | 'd' | 'i' =>
    let (v, p) := p.nextWhole
    p.write (d.signed v)
  | 'o' | 'u' | 'x' | 'X' =>
    let (v, p) := p.nextWhole
    p.write (d.unsigned conversion v)
  | 'n' =>
    let (arg, p) := p.next
    { p with counts := p.counts ++ [(arg.getD [], p.text.length)] }
  | _ =>
    let (arg, p) := p.next
    let r : Reading Quantity := match arg with
      | some arg => readDecimals arg
      | none => { value := .quotient false 0 1 }
    let p := p.noted (arg.getD []) r
    let word (s : String) : Octets := if conversion.isUpper then s.toList.map Char.toUpper else s.toList
    match r.value with
    | .quotient negative num den => p.write (d.decimals conversion negative num den)
    | .infinite negative => p.write (d.fit (d.sign negative ++ word "inf"))
    | .nan => p.write (d.fit (d.sign false ++ word "nan"))

def conversions : List Char :=
  ['s', 'c', 'b', 'q', 'Q', 'd', 'i', 'o', 'u', 'x', 'X', 'n', 'e', 'E', 'f', 'F', 'g', 'G', 'a', 'A']

/-- The directive after its mark, written, and the text after it. -/
def writeDirective (p : Printed) (cs : Octets) : Printed × Octets :=
  let isFlag (c : Char) := c = '-' || c = '+' || c = ' ' || c = '#' || c = '0' || c = '\''
  let flags := cs.takeWhile isFlag
  let (width, p, after) := directiveNumber p (cs.drop flags.length)
  let (precision, p, after) : Option Int × Printed × Octets := match after with
    | '.' :: rest =>
      let (v, p, rest) := directiveNumber p rest
      (some v, p, rest)
    | rest => (none, p, rest)
  let d : Directive := {
    left := flags.contains '-' || width < 0
    plus := flags.contains '+'
    blank := flags.contains ' '
    alternate := flags.contains '#'
    zero := flags.contains '0'
    width := width.natAbs
    precision := precision.bind fun v => if v < 0 then none else some v.toNat }
  let isSize (c : Char) := c = 'h' || c = 'l' || c = 'L' || c = 'j' || c = 'z' || c = 't'
  let start := cs.take (cs.length - after.length)
  match after.dropWhile isSize with
  | [] =>
    let sizes := after
    let p := p.report ('\x60' :: '%' :: start ++ sizes ++ "': missing format character".toList) true
    ({ p with stops := true }, [])
  | '(' :: rest =>
    let format := rest.takeWhile (· ≠ ')')
    match rest.drop format.length with
    | ')' :: 'T' :: rest =>
      let (v, p) := p.nextWhole
      (p.write (d.fit (d.cut (timeText v (format.length * 8 + 64) format))), rest)
    | _ => (p.write ('%' :: '(' :: rest), [])
  | c :: rest =>
    if conversions.contains c then (writeArgument d c p, rest)
    else
      let p := p.report ('\x60' :: c :: "': invalid format character".toList) true
      ({ p with stops := true }, [])

def printOnce : Nat → Octets → Printed → Printed
  | 0, _, p => p
  | _, [], p => p
  | n + 1, '\\' :: cs, p =>
    match escape false cs with
    | (.text o, rest) => printOnce n rest (p.write o)
    | (.stop, _) => p
    | (.lacking mark, rest) =>
      let lead := if mark = 'x' then "missing hex digit for \\".toList
        else "missing unicode digit for \\".toList
      printOnce n rest ((p.report (lead ++ [mark]) false).write ['\\'])
  | n + 1, '%' :: '%' :: cs, p => printOnce n cs (p.write ['%'])
  | n + 1, '%' :: cs, p =>
    let (p, rest) := writeDirective p cs
    if p.stops then p else printOnce n rest p
  | n + 1, c :: cs, p => printOnce n cs (p.write [c])

/-- The format used as long as it takes arguments that are left. -/
def printAll (format : Octets) : Nat → Printed → Printed
  | 0, p => p
  | n + 1, p =>
    let p := printOnce (format.length + 1) format { p with takes := false }
    if p.stops || p.args.isEmpty || !p.takes then p else printAll format n p

def printed (format : Octets) (args : List Octets) : Printed :=
  printAll format (args.length + 1) { args }

end SecretForge.Script
