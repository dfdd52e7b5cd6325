import Mathlib.Algebra.Order.Field.Power
import Mathlib.Data.Rat.Cast.Order
import Mathlib.Tactic.FieldSimp
import Mathlib.Tactic.Linarith
import Mathlib.Tactic.NormNum
import Mathlib.Tactic.Positivity
import Mathlib.Tactic.Qify
import Mathlib.Tactic.Ring
import SecretForge.Number.Shortest

/-!
# The shortest digits of a double name it

The search for the digits of a double works on whole numerators over one denominator.  Here its parts are
given their meaning as rational numbers, which shows that the search cannot run out: the numbers that
round to a double are spaced more widely than the decimals of seventeen digits near it.

* `InForm` — mantissa and exponent as every finite double has them.
* `RoundsTo` — the numbers that round to a double; `contains_iff` says that the search tests for them.
* `RoundsTo.unique` — no number rounds to two doubles.
* **`roundsTo_shortest`** — the shortest digits of a double round to it.
-/

namespace SecretForge.Number.Double

/-- Mantissa and exponent of a finite double: 53 bits unless the exponent is the least one. -/
structure InForm (m : Nat) (e : Int) : Prop where
  lt : m < 2 ^ 53
  full : 2 ^ 52 ≤ m ∨ e = leastExponent
  least : leastExponent ≤ e
  greatest : e ≤ greatestExponent

/-- How far below the double the numbers reach that round to it, in units of its last bit: half a unit,
but only a quarter where the next lower double is nearer. -/
def gapBelow (m : Nat) (e : Int) : ℚ := if m = 2 ^ 52 ∧ leastExponent < e then 1 / 4 else 1 / 2

/-- The number rounds to `m * 2 ^ e`: it lies less than the gap away, or just at the end of the gap and
the mantissa is even. -/
def RoundsTo (m : Nat) (e : Int) (x : ℚ) : Prop :=
  ((m - gapBelow m e) * 2 ^ e < x ∨ m % 2 = 0 ∧ (m - gapBelow m e) * 2 ^ e = x)
    ∧ (x < (m + 1 / 2) * 2 ^ e ∨ m % 2 = 0 ∧ x = (m + 1 / 2) * 2 ^ e)

section

variable {m m' : Nat} {e e' : Int} {x : ℚ}

theorem two_zpow_pos (e : Int) : (0 : ℚ) < 2 ^ e := zpow_pos (by norm_num) e

theorem ten_zpow_pos (k : Int) : (0 : ℚ) < 10 ^ k := zpow_pos (by norm_num) k

theorem gapBelow_le (m : Nat) (e : Int) : gapBelow m e ≤ 1 / 2 := by
  rw [gapBelow]
  split <;> norm_num

theorem gapBelow_pos (m : Nat) (e : Int) : 0 < gapBelow m e := by
  rw [gapBelow]
  split <;> norm_num

/-! ### No number rounds to two doubles -/

theorem RoundsTo.le (h : RoundsTo m e x) : x ≤ (m + 1 / 2) * 2 ^ e :=
  h.2.elim le_of_lt fun h => h.2.le

theorem RoundsTo.ge (h : RoundsTo m e x) : (m - gapBelow m e) * 2 ^ e ≤ x :=
  h.1.elim le_of_lt fun h => h.2.le

theorem RoundsTo.lt (h : RoundsTo m e x) (hodd : m % 2 = 1) : x < (m + 1 / 2) * 2 ^ e :=
  h.2.resolve_right fun h => by omega

theorem RoundsTo.gt (h : RoundsTo m e x) (hodd : m % 2 = 1) : (m - gapBelow m e) * 2 ^ e < x :=
  h.1.resolve_right fun h => by omega

/-- What rounds to a double lies below what rounds to the next one with the same exponent. -/
theorem not_roundsTo_of_lt (hm : m < m') (h : RoundsTo m e x) : ¬ RoundsTo m' e x := by
  intro h'
  have hp := two_zpow_pos e
  have hgap := gapBelow_le m' e
  have hstep : (m : ℚ) + 1 ≤ m' := by exact_mod_cast hm
  have hbelow : ((m : ℚ) + 1 / 2) * 2 ^ e ≤ (m' - gapBelow m' e) * 2 ^ e :=
    mul_le_mul_of_nonneg_right (by linarith) hp.le
  rcases Nat.mod_two_eq_zero_or_one m with heven | hodd
  · rcases Nat.mod_two_eq_zero_or_one m' with heven' | hodd'
    · -- two even mantissas are two units apart
      have hstep : (m : ℚ) + 2 ≤ m' := by exact_mod_cast (show m + 2 ≤ m' by omega)
      have hbelow : ((m : ℚ) + 1 / 2) * 2 ^ e < (m' - gapBelow m' e) * 2 ^ e :=
        mul_lt_mul_of_pos_right (by linarith) hp
      exact absurd (h.le.trans_lt hbelow) (not_lt.mpr h'.ge)
    · exact absurd (h.le.trans hbelow) (not_le.mpr (h'.gt hodd'))
  · exact absurd ((h.lt hodd).trans_le hbelow) (not_lt.mpr h'.ge)

/-- What rounds to a double lies below what rounds to a double with a greater exponent. -/
theorem not_roundsTo_of_exponent_lt (hf : InForm m e) (hf' : InForm m' e') (he : e < e')
    (h : RoundsTo m e x) : ¬ RoundsTo m' e' x := by
  intro h'
  have hp := two_zpow_pos e
  have hleast : leastExponent < e' := hf.least.trans_lt he
  have hfull : 2 ^ 52 ≤ m' := hf'.full.resolve_right hleast.ne'
  have hpow : 2 * (2 : ℚ) ^ e ≤ 2 ^ e' := by
    rw [← zpow_one_add₀ (by norm_num)]
    exact zpow_le_zpow_right₀ (by norm_num) (by omega)
  have hmantissa : (2 : ℚ) ^ 52 - 1 / 4 ≤ m' - gapBelow m' e' := by
    rw [gapBelow]
    split
    · next hm =>
      rw [hm.1]
      norm_num
    · next hm =>
      have hstep : (2 : ℚ) ^ 52 + 1 ≤ m' := by
        exact_mod_cast show 2 ^ 52 + 1 ≤ m' from
          Nat.lt_of_le_of_ne hfull fun heq => hm ⟨heq.symm, hleast⟩
      linarith
  have hbelow : ((2 : ℚ) ^ 53 - 1 / 2) * 2 ^ e ≤ (m' - gapBelow m' e') * 2 ^ e' :=
    calc ((2 : ℚ) ^ 53 - 1 / 2) * 2 ^ e = (2 ^ 52 - 1 / 4) * (2 * 2 ^ e) := by ring
      _ ≤ (m' - gapBelow m' e') * 2 ^ e' := mul_le_mul hmantissa hpow (by positivity)
          (le_trans (by norm_num) hmantissa)
  rcases Nat.mod_two_eq_zero_or_one m with heven | hodd
  · have hlt : (m : ℚ) + 2 ≤ 2 ^ 53 := by
      exact_mod_cast show m + 2 ≤ 2 ^ 53 by have := hf.lt; omega
    have habove : ((m : ℚ) + 1 / 2) * 2 ^ e < (2 ^ 53 - 1 / 2) * 2 ^ e :=
      mul_lt_mul_of_pos_right (by linarith) hp
    exact absurd (h.le.trans_lt (habove.trans_le hbelow)) (not_lt.mpr h'.ge)
  · have hlt : (m : ℚ) + 1 ≤ 2 ^ 53 := by exact_mod_cast hf.lt
    have habove : ((m : ℚ) + 1 / 2) * 2 ^ e ≤ (2 ^ 53 - 1 / 2) * 2 ^ e :=
      mul_le_mul_of_nonneg_right (by linarith) hp.le
    exact absurd ((h.lt hodd).trans_le (habove.trans hbelow)) (not_lt.mpr h'.ge)

/-- **No number rounds to two doubles.** -/
theorem RoundsTo.unique (hf : InForm m e) (hf' : InForm m' e') (h : RoundsTo m e x)
    (h' : RoundsTo m' e' x) : m = m' ∧ e = e' := by
  obtain he | rfl | he := lt_trichotomy e e'
  · exact absurd h' (not_roundsTo_of_exponent_lt hf hf' he h)
  · obtain hm | rfl | hm := lt_trichotomy m m'
    · exact absurd h' (not_roundsTo_of_lt hm h)
    · exact ⟨rfl, rfl⟩
    · exact absurd h (not_roundsTo_of_lt hm h')
  · exact absurd h (not_roundsTo_of_exponent_lt hf' hf he h')

/-! ### The interval that the search tests -/

theorem zpow_toNat {k : Int} (b : ℚ) (hk : 0 ≤ k) : b ^ k.toNat = b ^ k := by
  rw [← zpow_natCast, Int.toNat_of_nonneg hk]

theorem zpow_neg_toNat {k : Int} (b : ℚ) (hk : ¬ 0 ≤ k) : b ^ (-k).toNat = (b ^ k)⁻¹ := by
  rw [zpow_toNat b (by omega), zpow_neg]

theorem interval_den_pos (m : Nat) (e : Int) : 0 < (interval m e).den := by
  rw [interval]
  split
  · exact Nat.succ_pos 3
  · exact Nat.mul_pos (by decide) (Nat.pow_pos (by decide))

theorem interval_value (m : Nat) (e : Int) :
    ((interval m e).value : ℚ) = m * 2 ^ e * (interval m e).den := by
  have hp := two_zpow_pos e
  rw [interval]
  split
  · next he =>
    push_cast [Nat.pow_eq, zpow_toNat 2 he]
    ring
  · next he =>
    push_cast [Nat.pow_eq, zpow_neg_toNat 2 he]
    field_simp

theorem interval_high (m : Nat) (e : Int) :
    ((interval m e).high : ℚ) = (m + 1 / 2) * 2 ^ e * (interval m e).den := by
  have hp := two_zpow_pos e
  rw [interval]
  split
  · next he =>
    push_cast [Nat.pow_eq, zpow_toNat 2 he]
    ring
  · next he =>
    push_cast [Nat.pow_eq, zpow_neg_toNat 2 he]
    field_simp
    ring

theorem interval_low (hm : 0 < m) (e : Int) :
    ((interval m e).low : ℚ) = (m - gapBelow m e) * 2 ^ e * (interval m e).den := by
  have hp := two_zpow_pos e
  have hlow : (((if m == Nat.pow 2 52 && leastExponent < e then 4 * m - 1 else 4 * m - 2 : Nat)) : ℚ)
      = 4 * (m - gapBelow m e) := by
    rw [gapBelow]
    by_cases h : m = 2 ^ 52 ∧ leastExponent < e
    · rw [if_pos h, if_pos (by simpa using h), Nat.cast_sub (by omega)]
      push_cast
      ring
    · rw [if_neg h, if_neg (by simpa using h), Nat.cast_sub (by omega)]
      push_cast
      ring
  rw [interval]
  split
  · next he =>
    rw [Nat.cast_mul, hlow]
    push_cast [Nat.pow_eq, zpow_toNat 2 he]
    ring
  · next he =>
    rw [hlow]
    push_cast [Nat.pow_eq, zpow_neg_toNat 2 he]
    field_simp

/-- The test of a decimal, with numerators over the denominator of the interval. -/
theorem Interval.contains_iff (i : Interval) (n : Nat) (k : Int) :
    i.contains n k = true
      ↔ ((i.low : ℚ) < n * 10 ^ k * i.den ∨ i.closed = true ∧ (i.low : ℚ) = n * 10 ^ k * i.den)
        ∧ ((n * 10 ^ k * i.den : ℚ) < i.high ∨ i.closed = true ∧ (n * 10 ^ k * i.den : ℚ) = i.high) := by
  -- both sides of the test are scaled by one positive number
  obtain ⟨lhs, scale, hscale, hlhs, hcontains⟩ : ∃ lhs scale : Nat, 0 < scale
      ∧ (n * 10 ^ k * i.den : ℚ) * scale = lhs
      ∧ i.contains n k = if i.closed then i.low * scale ≤ lhs && lhs ≤ i.high * scale
          else i.low * scale < lhs && lhs < i.high * scale := by
    by_cases hk : 0 ≤ k
    · refine ⟨n * Nat.pow 10 k.toNat * i.den, 1, Nat.one_pos, ?_, ?_⟩
      · push_cast [Nat.pow_eq, zpow_toNat 10 hk]
        ring
      · rw [Interval.contains, if_pos hk]
    · refine ⟨n * i.den, Nat.pow 10 (-k).toNat, Nat.pow_pos (by decide), ?_, ?_⟩
      · have hp := ten_zpow_pos k
        push_cast [Nat.pow_eq, zpow_neg_toNat 10 hk]
        field_simp
      · rw [Interval.contains, if_neg hk]
  have hpos : (0 : ℚ) < scale := by exact_mod_cast hscale
  rw [hcontains, ← mul_lt_mul_iff_left₀ hpos (b := (i.low : ℚ)), ← mul_left_inj' hpos.ne' (a := (i.low : ℚ)),
    ← mul_lt_mul_iff_left₀ hpos (c := (i.high : ℚ)), ← mul_left_inj' hpos.ne' (b := (i.high : ℚ)), hlhs]
  norm_cast
  cases i.closed with
  | true => simp [le_iff_lt_or_eq]
  | false => simp

/-- The search tests for the numbers that round to the double. -/
theorem contains_iff (hm : 0 < m) (e : Int) (n : Nat) (k : Int) :
    (interval m e).contains n k = true ↔ RoundsTo m e (n * 10 ^ k) := by
  have hden : (0 : ℚ) < (interval m e).den := by exact_mod_cast interval_den_pos m e
  have hclosed : (interval m e).closed = true ↔ m % 2 = 0 := by
    rw [interval]
    split <;> simp
  rw [Interval.contains_iff, interval_low hm, interval_high, hclosed, mul_lt_mul_iff_left₀ hden,
    mul_lt_mul_iff_left₀ hden, mul_left_inj' hden.ne', mul_left_inj' hden.ne', RoundsTo]

/-- The value lies between its two neighbours on a grid. -/
theorem Interval.below_spec (i : Interval) (hden : 0 < i.den) (k : Int) :
    (i.below k * 10 ^ k * i.den : ℚ) ≤ i.value
      ∧ (i.value : ℚ) < (i.below k + 1 : Nat) * 10 ^ k * i.den := by
  obtain ⟨s, t, hs, ht, hstep, hbelow⟩ : ∃ s t : Nat, (0 : ℚ) < s ∧ 0 < t ∧ (t : ℚ) = 10 ^ k * s
      ∧ i.below k = i.value * s / (i.den * t) := by
    have hp := ten_zpow_pos k
    by_cases hk : 0 ≤ k
    · refine ⟨1, Nat.pow 10 k.toNat, by norm_num, Nat.pow_pos (by decide), ?_, ?_⟩
      · push_cast [Nat.pow_eq, zpow_toNat 10 hk]
        ring
      · rw [Interval.below, if_pos hk, Nat.mul_one]
    · refine ⟨Nat.pow 10 (-k).toNat, 1, ?_, Nat.one_pos, ?_, ?_⟩
      · exact_mod_cast Nat.pow_pos (show 0 < 10 by decide)
      · push_cast [Nat.pow_eq, zpow_neg_toNat 10 hk]
        field_simp
      · rw [Interval.below, if_neg hk, Nat.mul_one]
  have hle := Nat.div_mul_le_self (i.value * s) (i.den * t)
  have hlt := Nat.lt_mul_div_succ (i.value * s) (Nat.mul_pos hden ht)
  rw [← hbelow] at hle hlt
  qify at hle hlt
  rw [hstep] at hle hlt
  constructor
  · exact le_of_mul_le_mul_right (by linarith) hs
  · exact lt_of_mul_lt_mul_right (by push_cast; linarith) hs.le

/-! ### The search -/

/-- What the search takes from a grid is in the interval, and it takes nothing only where both neighbours
of the value are outside. -/
theorem Interval.onGrid_spec (i : Interval) (k : Int) :
    (∀ n, i.onGrid k = some n → i.contains n k = true)
      ∧ (i.onGrid k = none → i.contains (i.below k) k = false ∧ i.contains (i.below k + 1) k = false) := by
  rw [Interval.onGrid]
  dsimp only
  split
  · next hbelow habove =>
    refine ⟨fun n h => ?_, fun h => ?_⟩
    · split_ifs at h <;> cases h <;> assumption
    · split_ifs at h
  · next hbelow _ => exact ⟨fun n h => Option.some.inj h ▸ hbelow, nofun⟩
  · next _ habove => exact ⟨fun n h => Option.some.inj h ▸ habove, nofun⟩
  · next hbelow habove => exact ⟨nofun, fun _ => ⟨hbelow, habove⟩⟩

/-- **Seventeen digits suffice.**  A grid of seventeen digits is finer than the spacing of doubles, so one
of the two neighbours of the value rounds to the double. -/
theorem onGrid_seventeen (hf : InForm m e) (hm : 0 < m) {p : Int} (hp : (10 : ℚ) ^ (p - 1) ≤ m * 2 ^ e) :
    (interval m e).onGrid (p - 17) ≠ none := by
  intro hnone
  obtain ⟨hbelow, habove⟩ := (Interval.onGrid_spec _ _).2 hnone
  rw [← Bool.not_eq_true, contains_iff hm] at hbelow habove
  have hden : (0 : ℚ) < (interval m e).den := by exact_mod_cast interval_den_pos m e
  obtain ⟨hle, hlt⟩ := (interval m e).below_spec (interval_den_pos m e) (p - 17)
  rw [interval_value] at hle hlt
  replace hle := le_of_mul_le_mul_right hle hden
  replace hlt := lt_of_mul_lt_mul_right hlt hden.le
  have hu := two_zpow_pos e
  have hg := ten_zpow_pos (p - 17)
  have hgrid : (10 : ℚ) ^ (p - 17) * 10 ^ 16 ≤ m * 2 ^ e := by
    rw [← zpow_natCast, ← zpow_add₀ (by norm_num)]
    exact (congrArg _ (by push_cast; ring)).trans_le hp
  generalize (interval m e).below (p - 17) = a at *
  push_cast at hlt habove
  -- both neighbours are outside on their own sides, so the grid is wider than the interval
  have hlow : (a : ℚ) * 10 ^ (p - 17) ≤ (m - gapBelow m e) * 2 ^ e := by
    by_contra hlow
    exact hbelow ⟨.inl (not_le.mp hlow), .inl (by linarith)⟩
  have hhigh : ((m : ℚ) + 1 / 2) * 2 ^ e ≤ (a + 1) * 10 ^ (p - 17) := by
    by_contra hhigh
    have := mul_pos (gapBelow_pos m e) hu
    exact habove ⟨.inl (by linarith), .inl (not_le.mp hhigh)⟩
  have hwide : (1 / 2 + gapBelow m e) * 2 ^ e ≤ 10 ^ (p - 17) := by linarith
  have hnarrow : m < (1 / 2 + gapBelow m e) * 10 ^ 16 := by
    rw [gapBelow]
    split
    · next h => rw [h.1]; norm_num
    · have := hf.lt
      qify at this
      linarith
  have hlarge : (m : ℚ) * 2 ^ e < (1 / 2 + gapBelow m e) * 10 ^ 16 * 2 ^ e :=
    mul_lt_mul_of_pos_right hnarrow hu
  linarith

/-- The search starts at a power of ten below the value if it is told to. -/
theorem le_of_point (m : Nat) (e : Int) (fuel : Nat) {p : Int} (hp : (10 : ℚ) ^ (p - 1) ≤ m * 2 ^ e) :
    (10 : ℚ) ^ ((interval m e).point fuel p - 1) ≤ m * 2 ^ e := by
  induction fuel generalizing p with
  | zero => exact hp
  | succ fuel ih =>
    rw [Interval.point]
    split
    · exact hp
    · next hbelow =>
      have hden : (0 : ℚ) < (interval m e).den := by exact_mod_cast interval_den_pos m e
      have hle := ((interval m e).below_spec (interval_den_pos m e) p).1
      rw [interval_value] at hle
      have hone : (1 : ℚ) ≤ (interval m e).below p := by exact_mod_cast Nat.one_le_iff_ne_zero.mpr hbelow
      refine ih ?_
      rw [add_sub_cancel_right]
      exact (le_mul_of_one_le_left (ten_zpow_pos p).le hone).trans (le_of_mul_le_mul_right hle hden)

/-- A search that meets the interval on some grid ends with a number in the interval. -/
theorem Interval.contains_search (i : Interval) (p : Int) {fuel n j : Nat} (hn : n ≤ j) (hj : j < n + fuel)
    (h : i.onGrid (p - j) ≠ none) :
    i.contains (i.search p fuel n).1 (i.search p fuel n).2 = true := by
  induction fuel generalizing n with
  | zero => omega
  | succ fuel ih =>
    rw [Interval.search]
    split
    · next d hd => exact (i.onGrid_spec _).1 d hd
    · next hnone =>
      have hne : n ≠ j := fun heq => h (heq ▸ hnone)
      exact ih (by omega) (by omega)

/-- Without the zeros at their end, digits name the same number. -/
theorem stripZeros_value (fuel d : Nat) (k : Int) :
    ((stripZeros fuel d k).1 * 10 ^ (stripZeros fuel d k).2 : ℚ) = d * 10 ^ k := by
  induction fuel generalizing d k with
  | zero => rfl
  | succ fuel ih =>
    rw [stripZeros]
    split
    · next h =>
      rw [ih, zpow_add_one₀ (by norm_num)]
      have hd : ((d / 10 : Nat) : ℚ) * 10 = d := by exact_mod_cast Nat.div_mul_cancel (Nat.dvd_of_mod_eq_zero h.2)
      rw [← hd]
      ring
    · rfl

/-! ### Where the search starts -/

theorem guess_le_of_nonneg : ∀ n < 1024, 10 ^ (n * 30103 / 100000) ≤ 100 * 2 ^ n := by decide +kernel

theorem guess_le_of_neg : ∀ n < 1075, 2 ^ n ≤ 100 * 10 ^ ((n * 30103 + 99999) / 100000) := by
  decide +kernel

/-- A power of two within the range of doubles is at least the power of ten that is guessed from it. -/
theorem guess_le {b : Int} (hb : -1075 < b) (hb' : b < 1024) :
    (10 : ℚ) ^ (b * 30103 / 100000 - 2) ≤ 2 ^ b := by
  rw [zpow_sub₀ (by norm_num)]
  by_cases h : 0 ≤ b
  · obtain ⟨n, rfl⟩ := Int.eq_ofNat_of_zero_le h
    have hle := guess_le_of_nonneg n (by omega)
    qify at hle
    rw [show (n : Int) * 30103 / 100000 = (n * 30103 / 100000 : Nat) by omega, zpow_natCast, zpow_natCast,
      div_le_iff₀ (by norm_num)]
    norm_num
    linarith
  · obtain ⟨n, rfl⟩ : ∃ n : Nat, b = -(n : Int) := ⟨b.natAbs, by omega⟩
    have hle := guess_le_of_neg n (by omega)
    qify at hle
    rw [show -(n : Int) * 30103 / 100000 = -((n * 30103 + 99999) / 100000 : Nat) by omega, zpow_neg,
      zpow_neg, zpow_natCast, zpow_natCast, div_le_iff₀ (by norm_num)]
    field_simp
    norm_num
    linarith

/-- **The shortest digits of a double round to it.** -/
theorem roundsTo_shortest (hf : InForm m e) (hm : 0 < m) :
    RoundsTo m e ((shortest m e).1 * 10 ^ (shortest m e).2) := by
  have hlog : (2 : ℚ) ^ m.log2 ≤ m := by exact_mod_cast Nat.log2_self_le hm.ne'
  have hlog' : m.log2 < 53 := (Nat.log2_lt hm.ne').mpr hf.lt
  have hguess : (10 : ℚ) ^ (((m.log2 : Int) + e) * 30103 / 100000 - 1 - 1) ≤ m * 2 ^ e := by
    have hleast : -1074 ≤ e := hf.least
    have hgreatest : e ≤ 971 := hf.greatest
    calc (10 : ℚ) ^ (((m.log2 : Int) + e) * 30103 / 100000 - 1 - 1)
        = 10 ^ (((m.log2 : Int) + e) * 30103 / 100000 - 2) := congrArg _ (by ring)
      _ ≤ 2 ^ ((m.log2 : Int) + e) := guess_le (by omega) (by omega)
      _ = 2 ^ m.log2 * 2 ^ e := by rw [zpow_add₀ (by norm_num), zpow_natCast]
      _ ≤ m * 2 ^ e := mul_le_mul_of_nonneg_right hlog (two_zpow_pos e).le
  rw [shortest]
  dsimp only
  rw [stripZeros_value, ← contains_iff hm]
  exact Interval.contains_search _ _ (by decide) (by decide)
    (onGrid_seventeen hf hm (le_of_point m e 8 hguess))

end

end SecretForge.Number.Double
