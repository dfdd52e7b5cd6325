import SecretForge.Text.Base64

/-!
# Base 64 loses nothing

A group of three bytes is written as four letters, each letter has its own value, and reading the
letters of a group puts its bytes together again.

* **`decode_encode`** — what is written is read back.
-/

namespace SecretForge.Text.Base64

theorem value?_letter_all : ∀ n < 64, value? (letter n) = some n := by decide

theorem letter_ne_pad_all : ∀ n < 64, letter n ≠ '=' := by decide

variable {n : Nat} (hn : n < 64) (pads acc : Nat) (cs : List Char)

include hn

/-! ### The four letters of a group -/

theorem decodeFrom_first : decodeFrom 0 pads acc (letter n :: cs) = decodeFrom 1 0 n cs := by
  rw [decodeFrom, if_neg (letter_ne_pad_all n hn), value?_letter_all n hn]
  rfl

theorem decodeFrom_second :
    decodeFrom 1 pads acc (letter n :: cs)
      = (decodeFrom 2 0 (n % 16) cs).map ((acc * 4 + n / 16).toUInt8 :: ·) := by
  rw [decodeFrom, if_neg (letter_ne_pad_all n hn), value?_letter_all n hn]
  rfl

theorem decodeFrom_third :
    decodeFrom 2 pads acc (letter n :: cs)
      = (decodeFrom 3 0 (n % 4) cs).map ((acc * 16 + n / 4).toUInt8 :: ·) := by
  rw [decodeFrom, if_neg (letter_ne_pad_all n hn), value?_letter_all n hn]
  rfl

theorem decodeFrom_fourth :
    decodeFrom 3 pads acc (letter n :: cs)
      = (decodeFrom 0 0 0 cs).map ((acc * 64 + n).toUInt8 :: ·) := by
  rw [decodeFrom, if_neg (letter_ne_pad_all n hn), value?_letter_all n hn]
  rfl

omit hn

/-! ### Groups -/

theorem decodeFrom_pads_two : decodeFrom 2 0 acc ['=', '='] = some [] := rfl

theorem decodeFrom_pads_three : decodeFrom 3 0 acc ['='] = some [] := rfl

/-- A number below 256 is the number of its byte. -/
theorem toUInt8_eq {a : UInt8} {n : Nat} (h : n = a.toNat) : n.toUInt8 = a := by
  rw [h]
  exact UInt8.ofNat_toNat

theorem decodeFrom_encodeChars (bs : List UInt8) :
    decodeFrom 0 0 0 (encodeChars bs) = some bs := by
  fun_induction encodeChars bs with
  | case1 => rfl
  | case2 a n =>
    have hn : n < 256 := a.toNat_lt
    rw [decodeFrom_first (by omega), decodeFrom_second (by omega), decodeFrom_pads_two,
      Option.map_some, toUInt8_eq (a := a) (by show _ = n; omega)]
  | case3 a b n m =>
    have hn : n < 256 := a.toNat_lt
    have hm : m < 256 := b.toNat_lt
    rw [decodeFrom_first (by omega), decodeFrom_second (by omega), decodeFrom_third (by omega),
      decodeFrom_pads_three, Option.map_some, Option.map_some,
      toUInt8_eq (a := a) (by show _ = n; omega), toUInt8_eq (a := b) (by show _ = m; omega)]
  | case4 a b c rest n m l ih =>
    have hn : n < 256 := a.toNat_lt
    have hm : m < 256 := b.toNat_lt
    have hl : l < 256 := c.toNat_lt
    rw [decodeFrom_first (by omega), decodeFrom_second (by omega), decodeFrom_third (by omega),
      decodeFrom_fourth (by omega), ih, Option.map_some, Option.map_some, Option.map_some,
      toUInt8_eq (a := a) (by show _ = n; omega), toUInt8_eq (a := b) (by show _ = m; omega),
      toUInt8_eq (a := c) (by show _ = l; omega)]

/-- **What is written in base 64 is read back.** -/
theorem decode_encode (bs : List UInt8) : decode (encode bs) = some bs := by
  rw [decode, encode, String.toList_ofList, decodeFrom_encodeChars]

end SecretForge.Text.Base64
