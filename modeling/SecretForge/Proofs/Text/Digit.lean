import Mathlib.Data.List.Induction
import SecretForge.Number.Integer
import SecretForge.Text.Digit

/-!
# Digits are read as they are written

* `hexValue_hexDigits` — the last digits to base sixteen of a number that has no more are read as the
  number, whichever case they are written in.
* `ofDigits_decimalDigits` — the decimal digits of a number are read as the number; `decimalDigits_head`
  says that they start with a zero only for zero, and `length_decimalDigits_le` that a numeral never
  has fewer digits than its value.
-/

namespace SecretForge.Text

open SecretForge.Number

/-! ### Characters by their numbers -/

/-- The number of a character given by a number below the surrogates. -/
theorem toNat_ofNat_of_lt {n : Nat} (h : n < 0xD800) : (Char.ofNat n).toNat = n := by
  have hv : n.isValidChar := .inl h
  rw [Char.ofNat, dif_pos hv]
  rfl

/-- The number of a character is no surrogate and not beyond the last code point. -/
theorem toNat_valid (c : Char) : c.toNat < 0xD800 ∨ (0xDFFF < c.toNat ∧ c.toNat < 0x110000) :=
  c.valid

/-! ### Base sixteen -/

/-- The value of hexadecimal digits read after a value. -/
def hexValue (acc : Nat) (cs : List Char) : Option Nat :=
  cs.foldlM (fun n c => (hexDigit? c).map (n * 16 + ·)) acc

theorem hexDigit?_hexChar_all : ∀ n < 16, hexDigit? (hexChar n) = some n := by decide

theorem hexDigit?_hexCharUpper_all : ∀ n < 16, hexDigit? (hexCharUpper n) = some n := by decide

theorem length_hexDigits (digit : Nat → Char) (width n : Nat) :
    (hexDigits digit width n).length = width := by
  induction width generalizing n with
  | zero => rfl
  | succ width ih => rw [hexDigits, List.length_append, ih, List.length_singleton]

/-- Digits are read from left to right. -/
theorem hexValue_append (acc : Nat) (cs ds : List Char) :
    hexValue acc (cs ++ ds) = (hexValue acc cs).bind fun n => hexValue n ds := by
  rw [hexValue, List.foldlM_append]
  rfl

theorem hexValue_hexDigits {digit : Nat → Char} (hdigit : ∀ n < 16, hexDigit? (digit n) = some n)
    (width n acc : Nat) (h : n < Nat.pow 16 width) :
    hexValue acc (hexDigits digit width n) = some (acc * Nat.pow 16 width + n) := by
  induction width generalizing n with
  | zero =>
    have hn : n = 0 := Nat.lt_one_iff.mp h
    rw [hn, show acc * Nat.pow 16 0 + 0 = acc from Nat.mul_one acc]
    rfl
  | succ width ih =>
    have hpow : Nat.pow 16 (width + 1) = Nat.pow 16 width * 16 := rfl
    rw [hpow] at h ⊢
    rw [hexDigits, hexValue_append, ih (n / 16) (by omega), Option.bind_some]
    show ((hexDigit? (digit (n % 16))).map ((acc * Nat.pow 16 width + n / 16) * 16 + ·)).bind some
      = _
    rw [hdigit (n % 16) (by omega), Option.map_some, Option.bind_some, Nat.add_mul, Nat.mul_assoc]
    congr 1
    omega

/-! ### Decimal numbers -/

theorem isDigit_of_mem_decimalDigits {n : Nat} {c : Char} (h : c ∈ decimalDigits n) :
    c.isDigit = true :=
  Nat.isDigit_of_mem_toDigits (by decide) (by decide) h

theorem decimalDigits_ne_nil (n : Nat) : decimalDigits n ≠ [] := Nat.toDigits_ne_nil

/-- The value of digits as the library reads them and as it is read here. -/
theorem ofDigits_map (cs : List Char) :
    ofDigits 10 (cs.map fun d => d.toNat - 48) = Nat.ofDigitChars 10 cs 0 := by
  rw [ofDigits, List.foldl_map, Nat.ofDigitChars]
  congr 1
  funext acc d
  rw [Nat.mul_comm]
  rfl

theorem ofDigits_decimalDigits (n : Nat) :
    ofDigits 10 ((decimalDigits n).map fun d => d.toNat - 48) = n := by
  rw [ofDigits_map, decimalDigits, Nat.ofDigitChars_ten_toDigits]

/-- Digits start with a zero only where zero is written. -/
theorem decimalDigits_head {n : Nat} {cs : List Char} (h : decimalDigits n = '0' :: cs) : n = 0 := by
  induction n using Nat.strongRecOn generalizing cs with
  | ind n ih =>
    rw [decimalDigits, Nat.toDigits_eq_if (by decide)] at h
    split at h
    · next hlt =>
      have hhead : n.digitChar = '0' := (List.cons.inj h).1
      have hall : ∀ m < 10, m.digitChar = '0' → m = 0 := by decide
      exact hall n hlt hhead
    · next hge =>
      -- the first digit is that of the number without its last digit
      cases hd : Nat.toDigits 10 (n / 10) with
      | nil => exact absurd hd Nat.toDigits_ne_nil
      | cons d ds =>
        rw [hd, List.cons_append] at h
        obtain ⟨rfl, -⟩ := List.cons.inj h
        have hzero := ih (n / 10) (by omega) hd
        omega

theorem ofDigitChars_lt {cs : List Char} (h : ∀ c ∈ cs, c.isDigit = true) :
    Nat.ofDigitChars 10 cs 0 < Nat.pow 10 cs.length := by
  induction cs using List.reverseRecOn with
  | nil => exact Nat.one_pos
  | append_singleton cs c ih =>
    have hlt := ih fun d hd => h d (List.mem_append_left _ hd)
    have hc := Char.isDigit_iff_toNat.mp (h c (by simp))
    rw [Nat.ofDigitChars_append, Nat.ofDigitChars_cons, Nat.ofDigitChars_nil, List.length_append,
      List.length_singleton, show Nat.pow 10 (cs.length + 1) = Nat.pow 10 cs.length * 10 from rfl]
    have h9 : '9'.toNat = 57 := rfl
    have h0 : '0'.toNat = 48 := rfl
    omega

/-- A numeral has at least as many digits as its value. -/
theorem length_decimalDigits_le {cs : List Char} (hne : cs ≠ [])
    (h : ∀ c ∈ cs, c.isDigit = true) :
    (decimalDigits (ofDigits 10 (cs.map fun d => d.toNat - 48))).length ≤ cs.length := by
  rw [decimalDigits, Nat.length_toDigits_le_iff (by decide) (List.length_pos_iff.mpr hne),
    ofDigits_map]
  exact ofDigitChars_lt h

end SecretForge.Text
