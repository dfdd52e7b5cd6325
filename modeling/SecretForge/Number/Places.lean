import SecretForge.Number.Double
import SecretForge.Text.Digit

/-!
# Doubles at a given number of places

A double can be written with a fixed number of decimals, with one digit before the point and an
exponent, or in whichever of the two suits its size.  The digits are those of the exact value, rounded
once; a tie goes to the even digit.
-/

namespace SecretForge.Number.Places

open SecretForge.Text

/-- How a double is to be written: the number of places, and whether a point that nothing follows and
zeros at the end are kept. -/
structure Form where
  places : Nat
  keepsPoint : Bool
  deriving DecidableEq, Repr

/-- Digits with the last `places` of them after a point. -/
def withPoint (form : Form) (ds : List Char) : List Char :=
  let whole := ds.take (ds.length - form.places)
  let decimals := ds.drop (ds.length - form.places)
  whole ++ (if form.places = 0 && !form.keepsPoint then [] else ['.']) ++ decimals

/-- `num / den` with a fixed number of decimals. -/
def fixed (form : Form) (num den : Nat) : List Char :=
  let ds := decimalDigits (Double.roundHalfEven (num * Nat.pow 10 form.places) den)
  withPoint form (List.replicate (form.places + 1 - ds.length) '0' ++ ds)

/-- `num / (den * 10 ^ k)` rounded to a whole number. -/
def roundAt (num den : Nat) (k : Int) : Nat :=
  if 0 ≤ k then Double.roundHalfEven num (den * Nat.pow 10 k.toNat)
  else Double.roundHalfEven (num * Nat.pow 10 (-k).toNat) den

/-- The power of ten of the first digit of a positive quotient. -/
def leadingPower (num den : Nat) : Int :=
  let k : Int := (decimalDigits num).length - (decimalDigits den).length
  let reaches := if 0 ≤ k then den * Nat.pow 10 k.toNat ≤ num else den ≤ num * Nat.pow 10 (-k).toNat
  if reaches then k else k - 1

/-- The digits of a quotient with `places` of them after the first, and the power of ten of the
first. -/
def scientificDigits (places num den : Nat) : Nat × Int :=
  if num = 0 then (0, 0)
  else
    let k := leadingPower num den
    let m := roundAt num den (k - places)
    if m = Nat.pow 10 (places + 1) then (m / 10, k + 1) else (m, k)

/-- An exponent: its sign and at least two digits. -/
def exponent (k : Int) : List Char :=
  'e' :: (if k < 0 then '-' else '+') :: (padded 2 k.natAbs).toList

/-- `num / den` with one digit before the point and an exponent. -/
def scientific (form : Form) (num den : Nat) : List Char :=
  let (m, k) := scientificDigits form.places num den
  let ds := decimalDigits m
  withPoint form (List.replicate (form.places + 1 - ds.length) '0' ++ ds) ++ exponent k

/-- Decimals without the zeros at their end, and without a point that nothing follows. -/
def stripDecimals (cs : List Char) : List Char :=
  if cs.contains '.' then
    let rest := cs.reverse.dropWhile (· = '0')
    (match rest with
      | '.' :: rest => rest
      | rest => rest).reverse
  else cs

/-- A bound on the digits of the exact value of a double. -/
def digitBound : Nat := 800

/-- `num / den` with a given number of digits in all, in whichever form suits its size.  Where zeros at
the end are not kept, more digits than a double has change nothing. -/
def general (form : Form) (num den : Nat) : List Char :=
  let digits := max (if form.keepsPoint then form.places else min form.places digitBound) 1
  let (m, k) := scientificDigits (digits - 1) num den
  let tidy (cs : List Char) : List Char := if form.keepsPoint then cs else stripDecimals cs
  if -4 ≤ k && k < digits then
    tidy (fixed { form with places := ((digits : Int) - 1 - k).toNat } num den)
  else
    let ds := decimalDigits m
    let form := { form with places := digits - 1 }
    tidy (withPoint form (List.replicate (digits - ds.length) '0' ++ ds)) ++ exponent k

def write (rule : Form → Nat → Nat → List Char) (form : Form) (x : Double) : List Char :=
  match x with
  | .nan => ['n', 'a', 'n']
  | .infinite s => (if s then ['-'] else []) ++ ['i', 'n', 'f']
  | x@(.finite s _ _) =>
    match x.toQuotient with
    | some (_, num, den) => (if s then ['-'] else []) ++ rule form num den
    | none => []

end SecretForge.Number.Places
