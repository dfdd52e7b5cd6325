import SecretForge.Number.Double
import SecretForge.Text.Digit

/-!
# The shortest decimal text of a double

A double is written with the fewest decimal digits that read back as the same double, and of those
with the digits nearest to its exact value.  For one digit, two digits and so on, the two neighbours
of the value on the decimal grid of that many digits are tested against the interval of numbers that
round to the double; the first grid with a hit wins.
-/

namespace SecretForge.Number

open SecretForge.Text

namespace Double

/-- The numbers that round to `m * 2 ^ e`, as whole numerators `low`, `value`, `high` over one common
denominator.  The ends belong to the interval exactly when the mantissa is even. -/
structure Interval where
  low : Nat
  value : Nat
  high : Nat
  den : Nat
  closed : Bool

/-- The rounding interval of a finite non-zero double.  Below a power of two the spacing is halved,
so the lower end is nearer there. -/
def interval (m : Nat) (e : Int) : Interval :=
  let binary := m == Nat.pow 2 52 && leastExponent < e
  let low := if binary then 4 * m - 1 else 4 * m - 2
  if 0 ≤ e then
    let k := Nat.pow 2 e.toNat
    ⟨low * k, 4 * m * k, (4 * m + 2) * k, 4, m % 2 == 0⟩
  else ⟨low, 4 * m, 4 * m + 2, 4 * Nat.pow 2 (-e).toNat, m % 2 == 0⟩

/-- Whether `n * 10 ^ k` lies in the interval. -/
def Interval.contains (i : Interval) (n : Nat) (k : Int) : Bool :=
  let (lhs, scale) :=
    if 0 ≤ k then (n * Nat.pow 10 k.toNat * i.den, 1) else (n * i.den, Nat.pow 10 (-k).toNat)
  if i.closed then i.low * scale ≤ lhs && lhs ≤ i.high * scale
  else i.low * scale < lhs && lhs < i.high * scale

/-- The distance of `n * 10 ^ k` from the value, in units common to all `n` for one `k`. -/
def Interval.distance (i : Interval) (n : Nat) (k : Int) : Nat :=
  let (lhs, rhs) :=
    if 0 ≤ k then (n * Nat.pow 10 k.toNat * i.den, i.value)
    else (n * i.den, i.value * Nat.pow 10 (-k).toNat)
  (lhs - rhs) + (rhs - lhs)

/-- The value rounded down to the grid of step `10 ^ k`. -/
def Interval.below (i : Interval) (k : Int) : Nat :=
  if 0 ≤ k then i.value / (i.den * Nat.pow 10 k.toNat) else i.value * Nat.pow 10 (-k).toNat / i.den

/-- The nearest of the value's two neighbours on the grid of step `10 ^ k` that lies in the
interval; of two equally near the even one. -/
def Interval.onGrid (i : Interval) (k : Int) : Option Nat :=
  let a := i.below k
  match i.contains a k, i.contains (a + 1) k with
  | true, true =>
    let da := i.distance a k
    let db := i.distance (a + 1) k
    if da < db then some a else if db < da then some (a + 1)
    else if a % 2 = 0 then some a else some (a + 1)
  | true, false => some a
  | false, true => some (a + 1)
  | false, false => none

/-- The position of the first digit: the `p` with `10 ^ (p - 1) ≤ value < 10 ^ p`, searched from a
guess that is at most a few too low. -/
def Interval.point (i : Interval) : Nat → Int → Int
  | 0, p => p
  | fuel + 1, p => if i.below p = 0 then p else i.point fuel (p + 1)

/-- The digits on the first of the grids of `n`, `n + 1`, … digits that meets the interval, and the
power of ten of the last digit. -/
def Interval.search (i : Interval) (p : Int) : Nat → Nat → Nat × Int
  | 0, _ => (i.below (p - 17), p - 17)
  | fuel + 1, n =>
    match i.onGrid (p - n) with
    | some d => (d, p - n)
    | none => i.search p fuel (n + 1)

/-- The digits of a number without the zeros at the end, and the power of ten of the last one. -/
def stripZeros : Nat → Nat → Int → Nat × Int
  | 0, d, k => (d, k)
  | fuel + 1, d, k => if d ≠ 0 ∧ d % 10 = 0 then stripZeros fuel (d / 10) (k + 1) else (d, k)

/-- The shortest digits of a finite non-zero double: digits `d` and exponent `k` of `d * 10 ^ k`. -/
def shortest (m : Nat) (e : Int) : Nat × Int :=
  let i := interval m e
  let guess : Int := ((m.log2 : Int) + e) * 30103 / 100000 - 1
  let p := i.point 8 guess
  let (d, k) := i.search p 17 1
  stripZeros 20 d k

/-- How the text of a double is laid out: the exponents of ten that are written positionally, and the
texts of the values that are no finite number. -/
structure Layout where
  firstPositional : Int
  lastPositional : Int
  infinity : String
  noNumber : String

/-- Digits and exponent as text: positional with at least one digit after the point, or one digit
before the point and an exponent of at least two digits. -/
def Layout.write (l : Layout) (d : Nat) (k : Int) : String :=
  let ds := decimalDigits d
  let point := k + ds.length
  let text :=
    if l.firstPositional ≤ point && point ≤ l.lastPositional then
      if point ≤ 0 then '0' :: '.' :: List.replicate (-point).toNat '0' ++ ds
      else if ds.length ≤ point.toNat then
        ds ++ List.replicate (point.toNat - ds.length) '0' ++ ['.', '0']
      else ds.take point.toNat ++ '.' :: ds.drop point.toNat
    else
      let x := point - 1
      let mantissa := match ds with
        | [] => ['0']
        | [c] => [c]
        | c :: cs => c :: '.' :: cs
      mantissa ++ 'e' :: (if x < 0 then '-' else '+') :: (padded 2 x.natAbs).toList
  String.ofList text

def Layout.render (l : Layout) : Double → String
  | .nan => l.noNumber
  | .infinite s => (if s then "-" else "") ++ l.infinity
  | .finite s m e =>
    let body := if m = 0 then "0.0" else let (d, k) := shortest m e; l.write d k
    (if s then "-" else "") ++ body

/-- The layout of values shown in configs and messages: positional from `0.0001` to below `10 ^ 16`. -/
def plainLayout : Layout := ⟨-3, 16, "inf", "nan"⟩

/-- The layout of numbers in stored documents, which spells out the values that are no number. -/
def documentLayout : Layout := ⟨-3, 16, "Infinity", "NaN"⟩

end Double

end SecretForge.Number
