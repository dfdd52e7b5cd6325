import SecretForge.Proofs.Except
import SecretForge.Proofs.Text.Digit
import SecretForge.Text.Utf8

/-!
# UTF-8 loses nothing

The bytes of a character are taken off by one step of decoding, whatever follows them, so a text is
read back character by character; and a step that reads a character takes off just its bytes.

* **`decode_encode`**, `decode_eq_ok_iff` — the bytes of a text, and no others, are read as the text.
* `decodeReplacing_encode`, `decodeEscaping_encode` — no character of it is replaced or spelled out on
  the way.
-/

namespace SecretForge.Text.Utf8

/-! ### Bytes by their numbers -/

theorem toNat_toUInt8 {n : Nat} (h : n < 256) : n.toUInt8.toNat = n := Nat.mod_eq_of_lt h

theorem lead?_two {a : Nat} (h : 2 ≤ a) (h' : a < 0x20) :
    lead? (0xC0 + a) = some (1, 0x80, 0xBF) := by
  rw [lead?, if_neg (by omega), if_neg (by omega), if_pos (by omega)]

/-- The byte after the first of three is narrowed where it would begin a shorter form or a
surrogate. -/
theorem lead?_three {a : Nat} (h : a < 0x10) :
    ∃ lo hi, lead? (0xE0 + a) = some (2, lo, hi)
      ∧ ∀ x < 0x40, (a = 0 → 0x20 ≤ x) → (a = 0xD → x < 0x20) → lo ≤ 0x80 + x ∧ 0x80 + x ≤ hi := by
  by_cases h0 : a = 0
  · exact ⟨0xA0, 0xBF, by rw [h0]; rfl, fun x hx hlo _ => by have := hlo h0; omega⟩
  by_cases hD : a = 0xD
  · exact ⟨0x80, 0x9F, by rw [hD]; rfl, fun x hx _ hhi => by have := hhi hD; omega⟩
  refine ⟨0x80, 0xBF, ?_, fun x hx _ _ => by omega⟩
  rw [lead?, if_neg (by omega), if_neg (by omega), if_neg (by omega), if_neg (by omega),
    if_neg (by omega), if_pos (by omega)]

/-- The byte after the first of four is narrowed where it would begin a shorter form or pass the last
code point. -/
theorem lead?_four {a : Nat} (h : a < 5) :
    ∃ lo hi, lead? (0xF0 + a) = some (3, lo, hi)
      ∧ ∀ x < 0x40, (a = 0 → 0x10 ≤ x) → (a = 4 → x < 0x10) → lo ≤ 0x80 + x ∧ 0x80 + x ≤ hi := by
  by_cases h0 : a = 0
  · exact ⟨0x90, 0xBF, by rw [h0]; rfl, fun x hx hlo _ => by have := hlo h0; omega⟩
  by_cases h4 : a = 4
  · exact ⟨0x80, 0x8F, by rw [h4]; rfl, fun x hx _ hhi => by have := hhi h4; omega⟩
  refine ⟨0x80, 0xBF, ?_, fun x hx _ _ => by omega⟩
  rw [lead?, if_neg (by omega), if_neg (by omega), if_neg (by omega), if_neg (by omega),
    if_neg (by omega), if_neg (by omega), if_neg (by omega), if_pos (by omega)]

theorem isTail_low {n : Nat} (h : n < 0x40) : isTail (0x80 + n) = true := by
  rw [isTail, Bool.and_eq_true, decide_eq_true_iff, decide_eq_true_iff]
  omega

/-! ### One character -/

/-- A character by its number. -/
theorem ofNat_eq {c : Char} {n : Nat} (h : n = c.toNat) : Char.ofNat n = c := by
  rw [h, Char.ofNat_toNat]

/-- **One step of decoding takes the bytes of one character.** -/
theorem step_encodeChar (c : Char) (rest : List UInt8) :
    ∃ b bs, encodeChar c = b :: bs ∧ bs.length ≤ 3
      ∧ step b ((bs ++ rest).take 3) = (.ok c, bs.length + 1) := by
  have hc := toNat_valid c
  generalize hn : c.toNat = n at hc
  unfold encodeChar
  rw [hn]
  by_cases h1 : n < 0x80
  · refine ⟨n.toUInt8, [], by rw [if_pos h1], by decide, ?_⟩
    rw [step, toNat_toUInt8 (by omega), lead?, if_pos h1, ofNat_eq hn.symm]
    rfl
  by_cases h2 : n < 0x800
  · refine ⟨_, [(0x80 + n % 64).toUInt8], by rw [if_neg h1, if_pos h2], by simp, ?_⟩
    rw [step, toNat_toUInt8 (by omega), lead?_two (by omega) (by omega)]
    simp only [List.cons_append, List.take_succ_cons, List.map_cons,
      toNat_toUInt8 (show 0x80 + n % 64 < 256 by omega), List.length_singleton]
    rw [if_pos (by rw [Bool.and_eq_true, decide_eq_true_iff, decide_eq_true_iff]; omega),
      ofNat_eq (c := c) (by omega)]
  by_cases h3 : n < 0x10000
  · obtain ⟨lo, hi, hlead, hrange⟩ := lead?_three (a := n / 4096) (by omega)
    refine ⟨_, [(0x80 + n / 64 % 64).toUInt8, (0x80 + n % 64).toUInt8],
      by rw [if_neg h1, if_neg h2, if_pos h3], by simp, ?_⟩
    have hx := hrange (n / 64 % 64) (by omega) (by omega) (by omega)
    rw [step, toNat_toUInt8 (by omega), hlead]
    simp only [List.cons_append, List.take_succ_cons, List.map_cons, List.nil_append,
      toNat_toUInt8 (show 0x80 + n / 64 % 64 < 256 by omega),
      toNat_toUInt8 (show 0x80 + n % 64 < 256 by omega), List.length_cons, List.length_nil]
    rw [if_neg (by simp [hx.1, hx.2]), if_pos (isTail_low (Nat.mod_lt _ (by decide))),
      ofNat_eq (c := c) (by omega)]
  · obtain ⟨lo, hi, hlead, hrange⟩ := lead?_four (a := n / 262144) (by omega)
    refine ⟨_, [(0x80 + n / 4096 % 64).toUInt8, (0x80 + n / 64 % 64).toUInt8,
      (0x80 + n % 64).toUInt8], by rw [if_neg h1, if_neg h2, if_neg h3], by simp, ?_⟩
    have hx := hrange (n / 4096 % 64) (by omega) (by omega) (by omega)
    rw [step, toNat_toUInt8 (by omega), hlead]
    simp only [List.cons_append, List.take_succ_cons, List.map_cons, List.nil_append,
      toNat_toUInt8 (show 0x80 + n / 4096 % 64 < 256 by omega),
      toNat_toUInt8 (show 0x80 + n / 64 % 64 < 256 by omega),
      toNat_toUInt8 (show 0x80 + n % 64 < 256 by omega), List.length_cons, List.length_nil]
    rw [if_neg (by simp [hx.1, hx.2]), isTail_low (Nat.mod_lt _ (by decide)), if_neg (by simp),
      if_pos (isTail_low (Nat.mod_lt _ (by decide))), ofNat_eq (c := c) (by omega)]

/-! ### Texts -/

/-- The bytes of the piece before are passed over. -/
theorem piecesFrom_skip (bs rest : List UInt8) :
    piecesFrom bs.length (bs ++ rest) = piecesFrom 0 rest := by
  induction bs with
  | nil => rfl
  | cons b bs ih => exact ih

theorem piecesFrom_encodeChar (c : Char) (rest : List UInt8) :
    piecesFrom 0 (encodeChar c ++ rest) = .char c :: piecesFrom 0 rest := by
  obtain ⟨b, bs, hbytes, -, hstep⟩ := step_encodeChar c rest
  rw [hbytes, List.cons_append, piecesFrom, hstep]
  show Piece.char c :: piecesFrom bs.length (bs ++ rest) = _
  rw [piecesFrom_skip]

/-- The pieces of a text's bytes are its characters. -/
theorem pieces_encode (s : String) : pieces (encode s) = s.toList.map .char := by
  rw [pieces, encode]
  induction s.toList with
  | nil => rfl
  | cons c cs ih => rw [List.flatMap_cons, piecesFrom_encodeChar, ih, List.map_cons]

theorem charsOf_char (cs : List Char) (offset : Nat) :
    charsOf offset (cs.map .char) = .ok cs := by
  induction cs generalizing offset with
  | nil => rfl
  | cons c cs ih =>
    rw [List.map_cons, charsOf, ih]
    rfl

/-- **The bytes of a text are read as the text.** -/
theorem decode_encode (s : String) : decode (encode s) = .ok s := by
  rw [decode, pieces_encode, charsOf_char]
  exact congrArg Except.ok (String.ofList_toList)

theorem toUInt8_eq {n : Nat} {b : UInt8} (h : n = b.toNat) : n.toUInt8 = b := by
  rw [h]
  exact UInt8.ofNat_toNat

theorem toNat_ofNat_of_valid {n : Nat} (h : n.isValidChar) : (Char.ofNat n).toNat = n := by
  rw [Char.ofNat, dif_pos h]
  rfl

/-- What a first byte says of the bytes after it. -/
theorem lead?_some {b k lo hi : Nat} (h : lead? b = some (k, lo, hi)) :
    (k = 0 ∧ b < 0x80) ∨ (k = 1 ∧ 0xC2 ≤ b ∧ b < 0xE0 ∧ lo = 0x80 ∧ hi = 0xBF)
      ∨ (k = 2 ∧ 0xE0 ≤ b ∧ b < 0xF0 ∧ 0x80 ≤ lo ∧ hi ≤ 0xBF ∧ (b = 0xE0 → lo = 0xA0)
        ∧ (b = 0xED → hi = 0x9F))
      ∨ (k = 3 ∧ 0xF0 ≤ b ∧ b < 0xF5 ∧ 0x80 ≤ lo ∧ hi ≤ 0xBF ∧ (b = 0xF0 → lo = 0x90)
        ∧ (b = 0xF4 → hi = 0x8F)) := by
  unfold lead? at h
  repeat' split at h
  all_goals simp only [Option.some.injEq, Prod.mk.injEq, reduceCtorEq] at h
  all_goals omega

theorem isTail_iff {b : Nat} : isTail b = true ↔ 0x80 ≤ b ∧ b ≤ 0xBF := by
  rw [isTail, Bool.and_eq_true, decide_eq_true_iff, decide_eq_true_iff]

theorem encodeChar_one {b : UInt8} (hb : b.toNat < 0x80) : encodeChar (Char.ofNat b.toNat) = [b] := by
  rw [encodeChar, toNat_ofNat_of_valid (.inl (by omega)), if_pos hb, toUInt8_eq rfl]

theorem encodeChar_two {b x : UInt8} (hb : 0xC2 ≤ b.toNat ∧ b.toNat < 0xE0)
    (hx : 0x80 ≤ x.toNat ∧ x.toNat ≤ 0xBF) :
    encodeChar (Char.ofNat ((b.toNat - 0xC0) * 64 + (x.toNat - 0x80))) = [b, x] := by
  rw [encodeChar, toNat_ofNat_of_valid (.inl (by omega)), if_neg (by omega), if_pos (by omega),
    toUInt8_eq (b := b) (by omega), toUInt8_eq (b := x) (by omega)]

theorem encodeChar_three {b x y : UInt8} (hb : 0xE0 ≤ b.toNat ∧ b.toNat < 0xF0)
    (hx : 0x80 ≤ x.toNat ∧ x.toNat ≤ 0xBF) (hshort : b.toNat = 0xE0 → 0xA0 ≤ x.toNat)
    (hpair : b.toNat = 0xED → x.toNat ≤ 0x9F) (hy : 0x80 ≤ y.toNat ∧ y.toNat ≤ 0xBF) :
    encodeChar (Char.ofNat ((b.toNat - 0xE0) * 4096 + (x.toNat - 0x80) * 64 + (y.toNat - 0x80)))
      = [b, x, y] := by
  rw [encodeChar, toNat_ofNat_of_valid (by unfold Nat.isValidChar; omega), if_neg (by omega),
    if_neg (by omega), if_pos (by omega), toUInt8_eq (b := b) (by omega),
    toUInt8_eq (b := x) (by omega), toUInt8_eq (b := y) (by omega)]

theorem encodeChar_four {b x y z : UInt8} (hb : 0xF0 ≤ b.toNat ∧ b.toNat < 0xF5)
    (hx : 0x80 ≤ x.toNat ∧ x.toNat ≤ 0xBF) (hshort : b.toNat = 0xF0 → 0x90 ≤ x.toNat)
    (hlast : b.toNat = 0xF4 → x.toNat ≤ 0x8F) (hy : 0x80 ≤ y.toNat ∧ y.toNat ≤ 0xBF)
    (hz : 0x80 ≤ z.toNat ∧ z.toNat ≤ 0xBF) :
    encodeChar (Char.ofNat ((b.toNat - 0xF0) * 262144 + (x.toNat - 0x80) * 4096
      + (y.toNat - 0x80) * 64 + (z.toNat - 0x80))) = [b, x, y, z] := by
  rw [encodeChar, toNat_ofNat_of_valid (by unfold Nat.isValidChar; omega), if_neg (by omega),
    if_neg (by omega), if_neg (by omega), toUInt8_eq (b := b) (by omega),
    toUInt8_eq (b := x) (by omega), toUInt8_eq (b := y) (by omega), toUInt8_eq (b := z) (by omega)]

/-- The character is spelled by the byte and those after it, by as many of them as are said. -/
def Spells (b : UInt8) (rest : List UInt8) (c : Char) (n : Nat) : Prop :=
  ∃ bs tail, encodeChar c = b :: bs ∧ bs.length + 1 = n ∧ rest = bs ++ tail

section

variable {b : UInt8} {rest : List UInt8} {c d : Char} {n lo hi : Nat}

theorem Spells.of_read {bs : List UInt8} (tail : List UInt8) (hchar : encodeChar d = b :: bs)
    (h : ((.ok d : Except Reason Char), bs.length + 1) = (.ok c, n)) : Spells b (bs ++ tail) c n := by
  obtain ⟨hd, rfl⟩ := Prod.mk.inj h
  cases hd
  exact ⟨bs, tail, hchar, rfl, rfl⟩

theorem step_two (hlead : lead? b.toNat = some (1, 0x80, 0xBF))
    (hb : 0xC2 ≤ b.toNat ∧ b.toNat < 0xE0) (h : step b rest = (.ok c, n)) : Spells b rest c n := by
  rw [step, hlead] at h
  cases rest with
  | nil => cases h
  | cons x tail =>
    simp only [List.map_cons] at h
    split at h
    · next hx =>
      rw [Bool.and_eq_true, decide_eq_true_iff, decide_eq_true_iff] at hx
      exact .of_read tail (encodeChar_two hb hx) h
    · cases h

theorem step_three (hlead : lead? b.toNat = some (2, lo, hi))
    (hb : 0xE0 ≤ b.toNat ∧ b.toNat < 0xF0) (hlo : 0x80 ≤ lo) (hhi : hi ≤ 0xBF)
    (hshort : b.toNat = 0xE0 → lo = 0xA0) (hpair : b.toNat = 0xED → hi = 0x9F)
    (h : step b rest = (.ok c, n)) : Spells b rest c n := by
  rw [step, hlead] at h
  rcases rest with _ | ⟨x, _ | ⟨y, tail⟩⟩
  · cases h
  · simp only [List.map_cons, List.map_nil] at h
    split at h <;> cases h
  · simp only [List.map_cons] at h
    split at h
    · cases h
    next hx =>
    rw [Bool.not_eq_true', Bool.not_eq_false, Bool.and_eq_true, decide_eq_true_iff,
      decide_eq_true_iff] at hx
    split at h
    · next hy =>
      have hchar := encodeChar_three hb ⟨Nat.le_trans hlo hx.1, Nat.le_trans hx.2 hhi⟩
        (fun h => hshort h ▸ hx.1) (fun h => hpair h ▸ hx.2) (isTail_iff.mp hy)
      exact .of_read tail hchar h
    · cases h

theorem step_four (hlead : lead? b.toNat = some (3, lo, hi))
    (hb : 0xF0 ≤ b.toNat ∧ b.toNat < 0xF5) (hlo : 0x80 ≤ lo) (hhi : hi ≤ 0xBF)
    (hshort : b.toNat = 0xF0 → lo = 0x90) (hlast : b.toNat = 0xF4 → hi = 0x8F)
    (h : step b rest = (.ok c, n)) : Spells b rest c n := by
  rw [step, hlead] at h
  rcases rest with _ | ⟨x, _ | ⟨y, _ | ⟨z, tail⟩⟩⟩
  · cases h
  · simp only [List.map_cons, List.map_nil] at h
    split at h <;> cases h
  · simp only [List.map_cons, List.map_nil] at h
    split at h
    · cases h
    · split at h <;> cases h
  · simp only [List.map_cons] at h
    split at h
    · cases h
    next hx =>
    rw [Bool.not_eq_true', Bool.not_eq_false, Bool.and_eq_true, decide_eq_true_iff,
      decide_eq_true_iff] at hx
    split at h
    · cases h
    next hy =>
    rw [Bool.not_eq_true', Bool.not_eq_false] at hy
    split at h
    · next hz =>
      have hchar := encodeChar_four hb ⟨Nat.le_trans hlo hx.1, Nat.le_trans hx.2 hhi⟩
        (fun h => hshort h ▸ hx.1) (fun h => hlast h ▸ hx.2) (isTail_iff.mp hy) (isTail_iff.mp hz)
      exact .of_read tail hchar h
    · cases h

/-- **A step of decoding that reads a character takes the bytes of the character.** -/
theorem step_ok (h : step b rest = (.ok c, n)) : Spells b rest c n := by
  cases hlead : lead? b.toNat with
  | none =>
    rw [step, hlead] at h
    cases h
  | some lead =>
    obtain ⟨k, lo, hi⟩ := lead
    rcases lead?_some hlead with ⟨rfl, hb⟩ | ⟨rfl, hb, hb', rfl, rfl⟩
      | ⟨rfl, hb, hb', hlo, hhi, hshort, hpair⟩ | ⟨rfl, hb, hb', hlo, hhi, hshort, hlast⟩
    · rw [step, hlead] at h
      exact .of_read rest (encodeChar_one hb) h
    · exact step_two hlead ⟨hb, hb'⟩ h
    · exact step_three hlead ⟨hb, hb'⟩ hlo hhi hshort hpair h
    · exact step_four hlead ⟨hb, hb'⟩ hlo hhi hshort hlast h

end

/-- The bytes of which characters are read are those of the characters. -/
theorem charsOf_pieces {bs : List UInt8} {offset : Nat} {cs : List Char}
    (h : charsOf offset (piecesFrom 0 bs) = .ok cs) : bs = cs.flatMap encodeChar := by
  -- a step leaves fewer bytes, though not the bytes after the first one
  induction hn : bs.length using Nat.strongRecOn generalizing bs offset cs with
  | ind n ih =>
    cases bs with
    | nil =>
      cases h
      rfl
    | cons b rest =>
      rw [piecesFrom] at h
      split at h
      · next c k hstep =>
        obtain ⟨es, tail, hes, hlen, htake⟩ := step_ok hstep
        obtain ⟨ds, hds, rfl⟩ := exists_of_map_ok h
        have hrest : rest = es ++ (tail ++ rest.drop 3) := by
          rw [← List.append_assoc, ← htake, List.take_append_drop]
        rw [show k - 1 = es.length by omega] at hds
        nth_rewrite 1 [hrest] at hds
        rw [piecesFrom_skip] at hds
        have hlt : (tail ++ rest.drop 3).length < n := by
          have := congrArg List.length hrest
          rw [List.length_append] at this
          rw [← hn, List.length_cons]
          omega
        rw [List.flatMap_cons, hes, ← ih _ hlt hds rfl, List.cons_append, ← hrest]
      · cases h

/-- **The bytes that are read as a text are the bytes of the text**, and no others. -/
theorem decode_eq_ok_iff {bs : List UInt8} {text : String} :
    decode bs = .ok text ↔ bs = encode text := by
  refine ⟨fun h => ?_, fun h => h ▸ decode_encode text⟩
  obtain ⟨cs, hcs, rfl⟩ := exists_of_map_ok h
  rw [encode, String.toList_ofList]
  exact charsOf_pieces hcs

end SecretForge.Text.Utf8
