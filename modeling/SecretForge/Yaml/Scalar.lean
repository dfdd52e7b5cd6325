import SecretForge.Number.DoubleText
import SecretForge.Scalar
import SecretForge.Text.Base64
import SecretForge.Text.Lower
import SecretForge.Yaml.Tag
import SecretForge.Yaml.Fault

/-!
# The values of YAML scalars

What the text of a scalar means under each type.  A type that a tag names is imposed on any text, so
every conversion can fail.
-/

namespace SecretForge.Yaml

open SecretForge.Calendar SecretForge.Number SecretForge.Text

/-- The characters of a number: underscores do not count. -/
def numberChars (text : String) : List Char := text.toList.filter (· ≠ '_')

def signedChars (cs : List Char) : Except Fault (Bool × List Char) :=
  match cs with
  | [] => .error .emptyNumber
  | _ => .ok (takeSign cs)

/-- A whole number written to a base. -/
def integerOf (base : Nat) (cs : List Char) : Except Fault Int :=
  (readInteger base (String.ofList cs)).mapError .integer

/-- The parts of a sexagesimal number combined, most significant first. -/
def sexagesimal (parts : List Int) : Int := parts.foldl (fun acc p => acc * 60 + p) 0

/-- A whole number: `0b` binary, `0x` hexadecimal, otherwise octal after a zero, sexagesimal with
colons, or decimal. -/
def wholeNumber (text : String) : Except Fault Int := do
  let (negative, cs) ← signedChars (numberChars text)
  let magnitude ← match cs with
    | [] => .error .emptyNumber
    | ['0'] => .ok 0
    | '0' :: 'b' :: ds => integerOf 2 ds
    | '0' :: 'x' :: ds => integerOf 16 ds
    | '0' :: _ => integerOf 8 cs
    | _ =>
      if cs.contains ':' then
        (splitOnChar ':' cs).mapM (integerOf 10) |>.map sexagesimal
      else integerOf 10 cs
  return if negative then -magnitude else magnitude

/-- A numeral of a decimal number. -/
def doubleOf (cs : List Char) : Except Fault Double :=
  let text := String.ofList cs
  match readDouble? text with
  | some x => .ok x
  | none => .error (.double text)

/-- The sum of the parts of a sexagesimal number, least significant first, where `scale` is the weight
of the next part.  A weight beyond every double is a fault. -/
def weighted : Double → Nat → List Double → Except Fault Double
  | sum, _, [] => .ok sum
  | sum, scale, x :: xs =>
    match Double.ofInt scale with
    | .infinite _ => .error .weightTooLarge
    | weight => weighted (sum.add (x.mul weight)) (scale * 60) xs

/-- A decimal number, without regard to case: `.inf`, `.nan`, sexagesimal with colons, or a numeral. -/
def decimalNumber (text : String) : Except Fault Double := do
  let (negative, cs) ← signedChars (lowerFrom [] (numberChars text))
  let name := String.ofList cs
  if name = ".nan" then return .nan
  let magnitude ←
    if name = ".inf" then .ok (.infinite false)
    else if cs.contains ':' then do
      let parts ← (splitOnChar ':' cs).mapM doubleOf
      weighted (.zero false) 1 parts.reverse
    else doubleOf cs
  return if negative then magnitude.neg else magnitude

/-- Whether a decimal number is written by the name `.nan`.  There is one object for all of these, while
a numeral that happens to be no number gives a new one each time. -/
def namesNan (text : String) : Bool :=
  match signedChars (lowerFrom [] (numberChars text)) with
  | .ok (_, cs) => String.ofList cs = ".nan"
  | .error _ => false

def truthValue (text : String) : Except Fault Bool :=
  let name := lower text
  if ["yes", "true", "on"].contains name then .ok true
  else if ["no", "false", "off"].contains name then .ok false
  else .error (.unknownTruthValue name)

/-- The value of decimal digits. -/
def number (ds : List Char) : Nat := ofDigits 10 (ds.map fun d => d.toNat - 48)

/-- The microseconds of a fraction: its first six digits, padded with zeros. -/
def microseconds (ds : List Char) : Nat :=
  let six := ds.take 6
  number (six ++ List.replicate (6 - six.length) '0')

def offsetMinutes : Option (Option (Char × List Char × List Char)) → Option Int
  | none => none
  | some none => some 0
  | some (some (sign, h, m)) =>
    let minutes : Int := (number h * 60 + number m : Nat)
    some (if sign = '-' then -minutes else minutes)

/-- A date, or a timestamp when a time of day is written. -/
def moment (text : String) : Except Fault Scalar :=
  match Moment.ofChars? (Tag.significant text.toList) with
  | none => .error .notATimestamp
  | some m =>
    let (y, mo, d) := (number m.year, number m.month, number m.day)
    match m.time with
    | none => (Date.make y mo d).map Scalar.date |>.mapError .outOfRange
    | some (h, min, s, fraction) =>
      (Timestamp.make y mo d (number h) (number min) (number s) (microseconds fraction)
        (offsetMinutes m.zone)).map Scalar.timestamp |>.mapError .outOfRange

/-- Bytes in base 64, written in ASCII. -/
def binary (text : String) : Except Fault Scalar :=
  if text.toList.any fun c => 127 < c.toNat then .error .malformed
  else match Base64.decode text with
    | some bs => .ok (.bytes bs)
    | none => .error .malformed

/-- The value of a scalar of a type; the types of collections and the unknown one have none. -/
def scalarValue (tag : Tag) (text : String) : Except Fault Scalar :=
  match tag with
  | .null => .ok .null
  | .bool => (truthValue text).map .bool
  | .int => (wholeNumber text).map .int
  | .float => (decimalNumber text).map .float
  | .binary => binary text
  | .timestamp => moment text
  | .text => .ok (.text text)
  | _ => .error .malformed

end SecretForge.Yaml
