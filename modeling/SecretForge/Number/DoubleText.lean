import SecretForge.Number.Double
import SecretForge.Number.Integer

/-!
# Reading doubles

A double is written as an optional sign and either a decimal numeral with optional point and
exponent, or one of the names for infinity and for no number; blanks may stand around it.
-/

namespace SecretForge.Number

open SecretForge.Text

/-- The decimal digits at the start of a text, of any script, and what follows them. -/
def spanDigits : List Char → List Nat × List Char
  | [] => ([], [])
  | c :: cs =>
    match digitOf? 10 c with
    | none => ([], c :: cs)
    | some d => let (ds, rest) := spanDigits cs; (d :: ds, rest)

/-- The exponent at the end of a numeral, zero when there is none. -/
def readExponent? : List Char → Option Int
  | [] => some 0
  | c :: cs =>
    if c = 'e' || c = 'E' then
      let (negative, rest) := takeSign cs
      match spanDigits rest with
      | ([], _) => none
      | (ds, []) => some (if negative then -(ofDigits 10 ds : Int) else ofDigits 10 ds)
      | _ => none
    else none

/-- An unsigned decimal numeral with at least one digit: its digits as a whole number, and the power
of ten of the last one. -/
def readUnsigned? (cs : List Char) : Option (Nat × Int) :=
  let (whole, rest) := spanDigits cs
  let (part, rest) := match rest with
    | '.' :: rest' => spanDigits rest'
    | _ => ([], rest)
  if whole.isEmpty && part.isEmpty then none
  else (readExponent? rest).map fun e => (ofDigits 10 (whole ++ part), e - part.length)

/-- The double that a text writes; `none` when it is no numeral and no name of a special value. -/
def readDouble? (text : String) : Option Double :=
  let (negative, cs) := takeSign (trimNumeral text.toList)
  let name := cs.map Char.toLower
  if name = ['i', 'n', 'f'] || name = ['i', 'n', 'f', 'i', 'n', 'i', 't', 'y'] then
    some (.infinite negative)
  else if name = ['n', 'a', 'n'] then some .nan
  else (readUnsigned? cs).map fun (d, e) => Double.ofDecimal negative d e

end SecretForge.Number
