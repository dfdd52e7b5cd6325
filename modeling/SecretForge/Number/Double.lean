/-!
# Double-precision numbers

A number of the double format as a sign, a whole mantissa and a power of two, so that rounding, exact
comparison and printing are arithmetic on whole numbers.  `Double.round` takes any quotient to the
nearest double, a tie going to the even mantissa.
-/

namespace SecretForge.Number

/-- A double: `mantissa * 2 ^ exponent` with a sign, an infinity, or no number at all.  A finite
double is kept in one form: the mantissa has 53 bits unless the exponent is the least one. -/
inductive Double where
  | finite (negative : Bool) (mantissa : Nat) (exponent : Int)
  | infinite (negative : Bool)
  | nan
  deriving DecidableEq, Repr

namespace Double

def leastExponent : Int := -1074

def greatestExponent : Int := 971

def zero (negative : Bool) : Double := .finite negative 0 leastExponent

/-- `num / (den * 2 ^ e)` as a quotient of whole numbers. -/
def scaled (num den : Nat) (e : Int) : Nat × Nat :=
  if 0 ≤ e then (num, den * Nat.pow 2 e.toNat) else (num * Nat.pow 2 (-e).toNat, den)

/-- A quotient rounded to the nearest whole number, a tie to the even one. -/
def roundHalfEven (num den : Nat) : Nat :=
  let q := num / den
  let r := num % den
  if 2 * r < den then q
  else if den < 2 * r then q + 1
  else if q % 2 = 0 then q else q + 1

/-- The exponent at which `num / den` has a mantissa of 53 bits, or the least one. -/
def exponentFor (num den : Nat) : Int :=
  let guess : Int := (num.log2 : Int) - (den.log2 : Int) - 52
  let (n, d) := scaled num den guess
  let e := if n < d * Nat.pow 2 52 then guess - 1 else guess
  max e leastExponent

/-- The double nearest to `num / den` with the given sign, for a positive `den`. -/
def round (negative : Bool) (num den : Nat) : Double :=
  if num = 0 then zero negative
  else
    let e := exponentFor num den
    let (n, d) := scaled num den e
    let m := roundHalfEven n d
    let (m, e) := if m = Nat.pow 2 53 then (Nat.pow 2 52, e + 1) else (m, e)
    if greatestExponent < e then .infinite negative else .finite negative m e

/-- The double nearest to `digits * 10 ^ exponent`.  An exponent out of all proportion is decided by
the number of digits alone. -/
def ofDecimal (negative : Bool) (digits : Nat) (exponent : Int) : Double :=
  if digits = 0 then zero negative
  else
    let magnitude := exponent + ((Nat.toDigits 10 digits).length : Int)
    if 400 < magnitude then .infinite negative
    else if magnitude < -400 then zero negative
    else if 0 ≤ exponent then round negative (digits * Nat.pow 10 exponent.toNat) 1
    else round negative digits (Nat.pow 10 (-exponent).toNat)

/-- The double nearest to a whole number. -/
def ofInt (i : Int) : Double := round (i < 0) i.natAbs 1

/-- A finite double as a whole number over a power of two: sign and value. -/
def toQuotient : Double → Option (Bool × Nat × Nat)
  | .finite s m e =>
    some (if 0 ≤ e then (s, m * Nat.pow 2 e.toNat, 1) else (s, m, Nat.pow 2 (-e).toNat))
  | _ => none

def neg : Double → Double
  | .finite s m e => .finite (!s) m e
  | .infinite s => .infinite (!s)
  | .nan => .nan

/-- The signed numerator of a quotient. -/
def signed (s : Bool) (n : Nat) : Int := if s then -(n : Int) else n

/-- The sum, rounded to the nearest double.  A sum of zero is positive unless both terms are negative
zeros. -/
def add : Double → Double → Double
  | .nan, _ => .nan
  | _, .nan => .nan
  | .infinite s, .infinite t => if s = t then .infinite s else .nan
  | .infinite s, _ => .infinite s
  | _, .infinite t => .infinite t
  | x@(.finite s _ _), y@(.finite t _ _) =>
    match x.toQuotient, y.toQuotient with
    | some (_, n, d), some (_, n', d') =>
      let sum := signed s (n * d') + signed t (n' * d)
      if sum = 0 then zero (s && t) else round (sum < 0) sum.natAbs (d * d')
    | _, _ => .nan

/-- The product, rounded to the nearest double. -/
def mul : Double → Double → Double
  | .nan, _ => .nan
  | _, .nan => .nan
  | .infinite s, .infinite t => .infinite (s != t)
  | .infinite s, .finite t m _ => if m = 0 then .nan else .infinite (s != t)
  | .finite s m _, .infinite t => if m = 0 then .nan else .infinite (s != t)
  | x@(.finite s _ _), y@(.finite t _ _) =>
    match x.toQuotient, y.toQuotient with
    | some (_, n, d), some (_, n', d') => round (s != t) (n * n') (d * d')
    | _, _ => .nan

def isZero : Double → Bool
  | .finite _ m _ => m == 0
  | _ => false

/-- The whole number that a double equals, if any. -/
def toInt? (x : Double) : Option Int :=
  match x.toQuotient with
  | some (s, n, d) => if n % d = 0 then some (signed s (n / d)) else none
  | none => none

/-- Equality of numbers: the zeros are equal, and what is no number equals nothing. -/
def same : Double → Double → Bool
  | .nan, _ => false
  | _, .nan => false
  | x, y => x == y || (x.isZero && y.isZero)

end Double

end SecretForge.Number
