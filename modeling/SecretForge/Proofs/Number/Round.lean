import SecretForge.Number.DoubleText
import SecretForge.Proofs.Number.Numeral

/-!
# Every double is kept in one form

Rounding chooses the exponent at which the quotient has 53 bits, from the numbers of bits of its two
sides, and gives the carry of a mantissa that is rounded up to the next power of two to the exponent.  So
everything that rounding, arithmetic and reading give has the form that the search for shortest digits
relies on.

* `exponentFor_spec` — the quotient is below `2 ^ 53` units, and at least `2 ^ 52` of them unless the
  exponent is the least one.
* **`proper_round`**, `proper_ofDecimal`, `proper_add` — what is rounded is in form.
-/

namespace SecretForge.Number.Double

section

variable {num den : Nat}

theorem scaled_den_pos (num : Nat) (hden : 0 < den) (e : Int) : 0 < (scaled num den e).2 := by
  rw [scaled]
  split
  · exact Nat.mul_pos hden (Nat.pow_pos (by decide))
  · exact hden

theorem scaled_eq (num : Nat) (hden : 0 < den) (e : Int) :
    ((scaled num den e).1 : ℚ) / (scaled num den e).2 = num / den / 2 ^ e := by
  have hp := two_zpow_pos e
  have hd : (0 : ℚ) < den := by exact_mod_cast hden
  rw [scaled]
  split
  · next he =>
    push_cast [Nat.pow_eq, zpow_toNat 2 he]
    rw [div_div]
  · next he =>
    push_cast [Nat.pow_eq, zpow_neg_toNat 2 he]
    field_simp

/-- A quotient rounded to a whole number is the whole number below it or the next one. -/
theorem roundHalfEven_eq (num den : Nat) :
    roundHalfEven num den = num / den ∨ roundHalfEven num den = num / den + 1 := by
  rw [roundHalfEven]
  split_ifs <;> simp

/-- The first exponent that is tried, from the bits of both sides, is right or one too great. -/
theorem guess_spec (hnum : 0 < num) (hden : 0 < den) :
    (2 ^ 51 : ℚ) < num / den / 2 ^ ((num.log2 : Int) - den.log2 - 52)
      ∧ (num / den / 2 ^ ((num.log2 : Int) - den.log2 - 52) : ℚ) < 2 ^ 53 := by
  have hd : (0 : ℚ) < den := by exact_mod_cast hden
  have hnumlog : (2 : ℚ) ^ num.log2 ≤ num := by exact_mod_cast Nat.log2_self_le hnum.ne'
  have hnumlog' : (num : ℚ) < 2 ^ (num.log2 + 1) := by exact_mod_cast Nat.lt_log2_self
  have hdenlog : (2 : ℚ) ^ den.log2 ≤ den := by exact_mod_cast Nat.log2_self_le hden.ne'
  have hdenlog' : (den : ℚ) < 2 ^ (den.log2 + 1) := by exact_mod_cast Nat.lt_log2_self
  have hpow : (2 : ℚ) ^ 52 * 2 ^ ((num.log2 : Int) - den.log2 - 52) * 2 ^ den.log2 = 2 ^ num.log2 := by
    rw [← zpow_natCast, ← zpow_natCast, ← zpow_natCast, ← zpow_add₀ (by norm_num), ← zpow_add₀ (by norm_num)]
    exact congrArg _ (by push_cast; ring)
  have hp := two_zpow_pos ((num.log2 : Int) - den.log2 - 52)
  generalize (2 : ℚ) ^ ((num.log2 : Int) - den.log2 - 52) = u at hpow hp ⊢
  rw [lt_div_iff₀ hp, lt_div_iff₀ hd, div_lt_iff₀ hp, div_lt_iff₀ hd]
  constructor
  · calc (2 : ℚ) ^ 51 * u * den < 2 ^ 51 * u * 2 ^ (den.log2 + 1) :=
          mul_lt_mul_of_pos_left hdenlog' (by positivity)
      _ = 2 ^ 52 * u * 2 ^ den.log2 := by ring
      _ ≤ num := hpow.trans_le hnumlog
  · calc (num : ℚ) < 2 ^ (num.log2 + 1) := hnumlog'
      _ = 2 ^ 53 * u * 2 ^ den.log2 := by rw [pow_succ, ← hpow]; ring
      _ ≤ 2 ^ 53 * u * den := mul_le_mul_of_nonneg_left hdenlog (by positivity)

/-- **The exponent that is chosen** leaves a quotient of 53 bits, or is the least one. -/
theorem exponentFor_spec (hnum : 0 < num) (hden : 0 < den) :
    (num / den / 2 ^ exponentFor num den : ℚ) < 2 ^ 53
      ∧ ((2 ^ 52 : ℚ) ≤ num / den / 2 ^ exponentFor num den ∨ exponentFor num den = leastExponent)
      ∧ leastExponent ≤ exponentFor num den := by
  have hq : (0 : ℚ) < num / den := div_pos (by exact_mod_cast hnum) (by exact_mod_cast hden)
  obtain ⟨e, he, hlow, hhigh⟩ : ∃ e, exponentFor num den = max e leastExponent
      ∧ (2 ^ 52 : ℚ) ≤ num / den / 2 ^ e ∧ (num / den / 2 ^ e : ℚ) < 2 ^ 53 := by
    obtain ⟨hlow, hhigh⟩ := guess_spec hnum hden
    obtain ⟨guess, hguess⟩ : ∃ guess : Int, (num.log2 : Int) - den.log2 - 52 = guess := ⟨_, rfl⟩
    rw [hguess] at hlow hhigh
    refine ⟨if (scaled num den guess).1 < (scaled num den guess).2 * Nat.pow 2 52 then guess - 1
      else guess, by rw [← hguess]; rfl, ?_⟩
    have hsmall : (scaled num den guess).1 < (scaled num den guess).2 * Nat.pow 2 52
        ↔ (num / den / 2 ^ guess : ℚ) < 2 ^ 52 := by
      rw [← scaled_eq num hden, div_lt_iff₀ (by exact_mod_cast scaled_den_pos num hden guess), mul_comm]
      exact_mod_cast Iff.rfl
    split
    · next h =>
      rw [hsmall] at h
      have hhalf : (num / den / 2 ^ (guess - 1) : ℚ) = num / den / 2 ^ guess * 2 := by
        rw [zpow_sub_one₀ (by norm_num)]
        field_simp
      rw [hhalf]
      constructor <;> linarith
    · next h =>
      rw [hsmall] at h
      exact ⟨not_lt.mp h, hhigh⟩
  rw [he]
  rcases le_total leastExponent e with hle | hle
  · rw [max_eq_left hle]
    exact ⟨hhigh, .inl hlow, hle⟩
  · rw [max_eq_right hle]
    refine ⟨lt_of_le_of_lt ?_ hhigh, .inr rfl, le_rfl⟩
    exact div_le_div_of_nonneg_left hq.le (two_zpow_pos e) (zpow_le_zpow_right₀ (by norm_num) hle)

theorem proper_zero (s : Bool) : (zero s).Proper :=
  ⟨by decide, .inr rfl, le_rfl, by decide⟩

/-- **What is rounded is in form.** -/
theorem proper_round (s : Bool) (num : Nat) (hden : 0 < den) : (round s num den).Proper := by
  by_cases hnum : num = 0
  · rw [round, if_pos hnum]
    exact proper_zero s
  · obtain ⟨hlt, hfull, hleast⟩ := exponentFor_spec (Nat.pos_of_ne_zero hnum) hden
    obtain ⟨e, he⟩ : ∃ e, exponentFor num den = e := ⟨_, rfl⟩
    obtain ⟨n, d, hscaled⟩ : ∃ n d, scaled num den e = (n, d) := ⟨_, _, rfl⟩
    rw [he] at hlt hfull hleast
    have heq := scaled_eq num hden e
    have hdpos := scaled_den_pos num hden e
    rw [hscaled] at heq hdpos
    have hd : (0 : ℚ) < d := by exact_mod_cast hdpos
    rw [← heq, div_lt_iff₀ hd] at hlt
    rw [← heq, le_div_iff₀ hd] at hfull
    have hbelow : n / d < 2 ^ 53 := (Nat.div_lt_iff_lt_mul hdpos).mpr (by exact_mod_cast hlt)
    have hbelow' : 2 ^ 52 ≤ n / d ∨ e = leastExponent := hfull.imp_left fun h =>
      (Nat.le_div_iff_mul_le hdpos).mpr (by exact_mod_cast h)
    have hround := roundHalfEven_eq n d
    rw [round, if_neg hnum, he]
    simp only [hscaled]
    generalize roundHalfEven n d = m at hround ⊢
    split_ifs with hcarry hgreatest hgreatest
    · trivial
    · -- the mantissa is rounded up to the next power of two
      exact ⟨by norm_num [Nat.pow_eq], .inl (by norm_num [Nat.pow_eq]), by dsimp only; omega,
        not_lt.mp hgreatest⟩
    · trivial
    · rw [Nat.pow_eq] at hcarry
      exact ⟨by dsimp only; omega, hbelow'.imp_left fun h => by dsimp only; omega, hleast,
        not_lt.mp hgreatest⟩

end

/-! ### Reading and arithmetic -/

theorem proper_ofDecimal (s : Bool) (digits : Nat) (exponent : Int) :
    (ofDecimal s digits exponent).Proper := by
  rw [ofDecimal]
  dsimp only
  split_ifs
  · exact proper_zero s
  · trivial
  · exact proper_zero s
  · exact proper_round s _ Nat.one_pos
  · exact proper_round s _ (Nat.pow_pos (by decide))

theorem toQuotient_den_pos {x : Double} {s : Bool} {n d : Nat} (h : x.toQuotient = some (s, n, d)) :
    0 < d := by
  cases x with
  | finite s m e =>
    rw [toQuotient] at h
    split at h <;> cases h
    · exact Nat.one_pos
    · exact Nat.pow_pos (by decide)
  | infinite s => cases h
  | nan => cases h

theorem proper_neg {x : Double} (hx : x.Proper) : x.neg.Proper := by
  cases x with
  | finite s m e => exact hx
  | infinite s => trivial
  | nan => trivial

theorem proper_add (x y : Double) : (x.add y).Proper := by
  fun_cases Double.add x y
  case case7 => exact proper_zero _
  case case8 n d _ _ n' d' hy hx _ _ =>
    exact proper_round _ _ (Nat.mul_pos (toQuotient_den_pos hx) (toQuotient_den_pos hy))
  all_goals trivial

/-- **What is read is in form.** -/
theorem proper_readDouble? {text : String} {x : Double} (h : readDouble? text = some x) : x.Proper := by
  rw [readDouble?] at h
  dsimp only at h
  split_ifs at h
  · cases h
    trivial
  · cases h
    trivial
  · obtain ⟨⟨digits, exponent⟩, -, rfl⟩ := Option.map_eq_some_iff.mp h
    exact proper_ofDecimal _ digits exponent

end SecretForge.Number.Double
