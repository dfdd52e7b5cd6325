import SecretForge.Proofs.Yaml.Plain
import SecretForge.Proofs.Yaml.Quoted

/-!
# Written texts

What a text is written as, whichever way it is written: printable characters and line feeds only, and
on one line for a key that stands on one line with its value.

* `written_text` — the characters of a written text.
* `text_key` — a key on one line is written the same everywhere.
* `KeyFits`, `keyFits_of_length_le`, `not_keyFits_astral` — which keys fit on one line with their colon.
* `text_start` — a written text does not start with a blank or a number sign.
-/

namespace SecretForge.Yaml

open SecretForge.Text Cursor Render

variable {ch : Char} {cs : List Char} {s : String} {indent column : Nat}

/-! ### The characters of a written text -/

/-- A character that is written: printable, or a line feed. -/
def isWritten (c : Char) : Bool := isInline c || c = '\n'

theorem isWritten_inline (h : isInline ch = true) : isWritten ch = true := by
  rw [isWritten, h, Bool.true_or]

theorem isTextChar_written (h : isWritten ch = true) : isTextChar ch = true := by
  rcases Bool.or_eq_true_iff.mp h with h | h
  · exact isTextChar_inline h
  · rw [of_decide_eq_true h]
    rfl

theorem written_newLine (n : Nat) : (newLine n).all isWritten = true := by
  rw [newLine, List.all_cons, List.all_replicate]
  cases n <;> rfl

theorem written_plainText {split spaced : Bool} (h : ∀ ch ∈ cs, isInline ch = true) :
    (plainText split indent column spaced cs).all isWritten = true := by
  induction cs generalizing column spaced with
  | nil => rfl
  | cons ch cs ih =>
    have hrest := fun column spaced =>
      @ih column spaced fun d hd => h d (List.mem_cons_of_mem _ hd)
    rw [plainText]
    split
    · rw [List.all_append, written_newLine, hrest]
      rfl
    · rw [List.all_cons, isWritten_inline (h ch List.mem_cons_self), hrest]
      rfl

theorem written_singleText {split : Bool} {before : Option Char} (h : SingleForm cs) :
    (singleText split indent column before cs).all isWritten = true := by
  induction cs generalizing column before with
  | nil => rfl
  | cons ch cs ih =>
    have hrest := fun column before => @ih column before h.tail
    have hch : isWritten ch = true := by
      rcases h.chars ch List.mem_cons_self with hc | hc
      · exact isWritten_inline hc
      · rw [hc]; rfl
    have hspaces : (List.replicate indent ' ').all isWritten = true := by
      rw [List.all_replicate]
      cases indent <;> rfl
    rw [singleText]
    split
    · rw [List.all_cons, List.all_cons, hrest]
      rfl
    split
    · simp only
      split <;> split <;> simp only [List.all_append, hrest, hspaces] <;> rfl
    split
    · rw [List.all_append, written_newLine, hrest]
      rfl
    · rw [List.all_cons, hch, hrest]
      rfl

theorem inline_hexCharUpper (n : Nat) (h : n < 16) : isInline (hexCharUpper n) = true := by
  have hall : ∀ n < 16, isInline (hexCharUpper n) = true := by decide
  exact hall n h

theorem inline_hexDigits (width n : Nat) : (hexDigits hexCharUpper width n).all isInline = true := by
  induction width generalizing n with
  | zero => rfl
  | succ width ih =>
    rw [hexDigits, List.all_append, ih, List.all_cons, inline_hexCharUpper _ (Nat.mod_lt _ (by decide))]
    rfl

theorem inline_escape? {e : List Char} (h : escape? ch = some e) : e.all isInline = true := by
  unfold escape? at h
  split at h
  · cases h
  · split at h
    · next l hl =>
      unfold escapeLetter? at hl
      split at hl <;> cases hl <;> cases h <;> rfl
    · simp only [Option.some.injEq] at h
      rw [← h]
      split
      · exact inline_hexDigits 2 _
      split
      · exact inline_hexDigits 4 _
      · exact inline_hexDigits 8 _

theorem written_of_inline (h : cs.all isInline = true) : cs.all isWritten = true :=
  List.all_eq_true.mpr fun d hd => isWritten_inline (List.all_eq_true.mp h d hd)

theorem written_doubleBreak (next : Option Char) : (doubleBreak indent next).1.all isWritten = true := by
  unfold doubleBreak
  split
  · show ('\\' :: (newLine indent ++ ['\\'])).all isWritten = true
    rw [List.all_cons, List.all_append, written_newLine]
    rfl
  · rw [List.all_cons, written_newLine]
    rfl

theorem written_doubleText {split first resumed : Bool} :
    (doubleText split indent column first resumed cs).all isWritten = true := by
  induction cs generalizing column first resumed with
  | nil => rfl
  | cons ch cs ih =>
    cases he : escape? ch with
    | some e =>
      have hw := written_of_inline (inline_escape? he)
      rcases doubleText_escape split indent column first resumed cs he with heq | heq <;>
        simp only [heq, List.all_append, hw, ih, written_doubleBreak, Bool.and_self]
    | none =>
      have hch := isWritten_inline (isInline_of_escape?_none he).1
      rcases doubleText_raw split indent column first resumed cs he with heq | ⟨-, heq⟩ <;>
        simp only [heq, List.all_append, List.all_cons, hch, ih, written_doubleBreak, Bool.and_self]

/-- How a text is written, with what the text must be like for it. -/
theorem style_cases (key : Bool) (s : String) :
    (style key s = .plain ∧ PlainForm s.toList ∧ allowsPlain s.toList = true ∧ Tag.ofPlain s = .text)
    ∨ (style key s = .single ∧ allowsSingle s.toList = true)
    ∨ style key s = .double := by
  unfold style
  simp only
  split
  · next h =>
    rw [Bool.and_eq_true, decide_eq_true_iff] at h
    refine .inl ⟨rfl, plainForm_of_allows (fun hnil => ?_) h.1, h⟩
    have hs : s = "" := String.toList_inj.mp hnil
    rw [hs] at h
    exact absurd h.2 (by decide)
  split
  · next h =>
    rw [Bool.and_eq_true] at h
    exact .inr (.inl ⟨rfl, h.1⟩)
  · exact .inr (.inr rfl)

theorem written_text (key : Bool) : (text key indent column s).all isWritten = true := by
  unfold text
  rcases style_cases key s with ⟨hs, hform, -⟩ | ⟨hs, hform⟩ | hs <;> rw [hs] <;> simp only
  · exact written_plainText hform.chars
  · rw [List.all_cons, written_singleText (singleForm_of_allows hform)]
    rfl
  · rw [List.all_cons, written_doubleText]
    rfl

/-! ### Keys on one line -/

section

variable {column' indent' : Nat}

theorem plainText_unsplit {spaced : Bool} : plainText false indent column spaced cs = cs := by
  induction cs generalizing column spaced with
  | nil => rfl
  | cons ch cs ih =>
    rw [plainText, if_neg (by simp only [Bool.and_false, Bool.false_and]; decide), ih]

theorem singleText_unsplit {before : Option Char} (h : '\n' ∉ cs) :
    singleText false indent column before cs = singleText false indent' column' before cs := by
  induction cs generalizing column column' before with
  | nil => rfl
  | cons ch cs ih =>
    rw [List.mem_cons, not_or] at h
    have hrest := fun column column' before =>
      @ih column column' before h.2
    by_cases hq : ch = '\''
    · subst hq
      rw [singleText_quote, singleText_quote, hrest]
    by_cases hs : ch = ' '
    · subst hs
      rcases singleText_space false indent column before cs with heq | ⟨-, -, hno, -⟩
      · rcases singleText_space false indent' column' before cs with heq' | ⟨-, -, hno, -⟩
        · rw [heq, heq', hrest]
        · cases hno
      · cases hno
    · rw [singleText_other _ _ _ _ hq (Ne.symm h.1) hs, singleText_other _ _ _ _ hq (Ne.symm h.1) hs,
        hrest]

theorem doubleText_unsplit {first resumed : Bool} :
    doubleText false indent column first resumed cs
      = doubleText false indent' column' first resumed cs := by
  induction cs generalizing column column' first resumed with
  | nil => rfl
  | cons ch cs ih =>
    rw [doubleText, doubleText]
    simp only [Bool.false_and]
    rw [if_neg (by decide), if_neg (by decide)]
    cases escape? ch with
    | none => exact congrArg (ch :: ·) ih
    | some e => exact congrArg (e ++ ·) ih

theorem no_break_of_simple (h : isSimpleKey s = true) : '\n' ∉ s.toList := by
  intro hmem
  simp only [isSimpleKey, Bool.and_eq_true, Bool.not_eq_true'] at h
  rw [List.any_eq_true.mpr ⟨'\n', hmem, rfl⟩] at h
  cases h.2

/-- **A key on one line is written the same everywhere.** -/
theorem text_key (h : isSimpleKey s = true) :
    text true indent column s = text true indent' column' s := by
  unfold text
  cases style true s with
  | plain => exact plainText_unsplit.trans plainText_unsplit.symm
  | single => exact congrArg ('\'' :: ·) (singleText_unsplit (no_break_of_simple h))
  | double => exact congrArg ('"' :: ·) doubleText_unsplit

theorem inline_singleText {before : Option Char} (h : ∀ ch ∈ cs, isInline ch = true) :
    (singleText false indent column before cs).all isInline = true := by
  induction cs generalizing column before with
  | nil => rfl
  | cons ch cs ih =>
    have hrest := fun column before =>
      @ih column before fun d hd => h d (List.mem_cons_of_mem _ hd)
    have hch := h ch List.mem_cons_self
    by_cases hq : ch = '\''
    · subst hq
      rw [singleText_quote, List.all_cons, List.all_cons, hrest]
      rfl
    by_cases hs : ch = ' '
    · subst hs
      rcases singleText_space false indent column before cs with heq | ⟨-, -, hno, -⟩
      · rw [heq, List.all_cons, hrest]
        rfl
      · cases hno
    · rw [singleText_other _ _ _ _ hq (isInline_ne hch rfl) hs, List.all_cons, hch, hrest]
      rfl

theorem inline_doubleText {first resumed : Bool} :
    (doubleText false indent column first resumed cs).all isInline = true := by
  induction cs generalizing column first resumed with
  | nil => rfl
  | cons ch cs ih =>
    rw [doubleText]
    simp only [Bool.false_and]
    rw [if_neg (by decide)]
    cases he : escape? ch with
    | none =>
      rw [List.all_cons, (isInline_of_escape?_none he).1, ih]
      rfl
    | some e =>
      show (e ++ doubleText false indent _ false true cs).all isInline = true
      rw [List.all_append, inline_escape? he, ih]
      rfl

theorem inline_key (h : isSimpleKey s = true) :
    ∀ ch ∈ text true indent column s, isInline ch = true := by
  rw [← List.all_eq_true]
  unfold text
  rcases style_cases true s with ⟨hs, hform, -⟩ | ⟨hs, hform⟩ | hs <;> rw [hs] <;> simp only
  · rw [Bool.not_true, plainText_unsplit]
    exact List.all_eq_true.mpr hform.chars
  · have hchars : ∀ ch ∈ s.toList, isInline ch = true := fun ch hch =>
      ((singleForm_of_allows hform).chars ch hch).resolve_right fun e =>
        no_break_of_simple h (e ▸ hch)
    rw [List.all_cons, Bool.not_true, inline_singleText hchars]
    rfl
  · rw [List.all_cons, Bool.not_true, inline_doubleText]
    rfl

end

/-- Whether a key fits into the 1024 characters that may stand before its colon.  Only a key that is
written on one line with its value must. -/
def KeyFits (s : String) : Prop := isSimpleKey s = true → (text true 0 0 s).length ≤ 1024

instance (s : String) : Decidable (KeyFits s) := inferInstanceAs (Decidable (_ → _))

/-! ### How long a key is written -/

theorem length_escape? {e : List Char} (h : escape? ch = some e) : e.length ≤ 10 := by
  unfold escape? at h
  split at h
  · cases h
  · split at h
    · cases h
      exact (by decide : 2 ≤ 10)
    · have hdigits : ∀ (l : Char) (width : Nat), width ≤ 8 →
          ('\\' :: l :: hexDigits hexCharUpper width ch.toNat).length ≤ 10 := fun l width hwidth => by
        rw [List.length_cons, List.length_cons, length_hexDigits]
        omega
      simp only [Option.some.injEq] at h
      rw [← h]
      split
      · exact hdigits _ 2 (by decide)
      split
      · exact hdigits _ 4 (by decide)
      · exact hdigits _ 8 (by decide)

theorem length_singleText {before : Option Char} (h : '\n' ∉ cs) :
    (singleText false indent column before cs).length ≤ 2 * cs.length + 1 := by
  induction cs generalizing column before with
  | nil => exact Nat.le_refl 1
  | cons ch cs ih =>
    rw [List.mem_cons, not_or] at h
    have hrest := fun column before => @ih column before h.2
    rw [List.length_cons]
    by_cases hq : ch = '\''
    · subst hq
      rw [singleText_quote, List.length_cons, List.length_cons]
      have := hrest (column + 2) (some '\'')
      omega
    by_cases hs : ch = ' '
    · subst hs
      rcases singleText_space false indent column before cs with heq | ⟨-, -, hno, -⟩
      · rw [heq, List.length_cons]
        have := hrest (column + 1) (some ' ')
        omega
      · cases hno
    · rw [singleText_other _ _ _ _ hq (Ne.symm h.1) hs, List.length_cons]
      have := hrest (column + 1) (some ch)
      omega

theorem length_doubleText {first resumed : Bool} :
    (doubleText false indent column first resumed cs).length ≤ 10 * cs.length + 1 := by
  induction cs generalizing column first resumed with
  | nil => exact Nat.le_refl 1
  | cons ch cs ih =>
    rw [doubleText, List.length_cons]
    simp only [Bool.false_and]
    rw [if_neg (by decide)]
    cases he : escape? ch with
    | none =>
      have := @ih (column + 1) false false
      show (ch :: doubleText false indent (column + 1) false false cs).length ≤ _
      rw [List.length_cons]
      omega
    | some e =>
      have := @ih (column + e.length) false true
      have := length_escape? he
      show (e ++ doubleText false indent (column + e.length) false true cs).length ≤ _
      rw [List.length_append]
      omega

/-- A key of at most 102 characters fits, as each of them is written with ten characters at most. -/
theorem keyFits_of_length_le (h : s.toList.length ≤ 102) : KeyFits s := by
  intro hs
  unfold text
  cases style true s with
  | plain =>
    show (plainText false 0 0 false s.toList).length ≤ 1024
    rw [plainText_unsplit]
    omega
  | single =>
    have := @length_singleText s.toList 0 1 none (no_break_of_simple hs)
    show ('\'' :: singleText false 0 1 none s.toList).length ≤ 1024
    rw [List.length_cons]
    omega
  | double =>
    have := @length_doubleText s.toList 0 1 true false
    show ('"' :: doubleText false 0 1 true false s.toList).length ≤ 1024
    rw [List.length_cons]
    omega

section

variable (h : 0x10000 ≤ ch.toNat)

include h

theorem not_le_tilde : decide (ch ≤ '~') = false := by
  refine decide_eq_false fun hle => ?_
  have : ch.toNat ≤ 126 := hle
  omega

theorem isSpecial_astral : isSpecial ch = true := by
  have hn : decide (ch = '\n') = false := decide_eq_false fun e => by
    rw [e] at h
    exact absurd h (by decide)
  rw [isSpecial, not_le_tilde h, hn, Bool.and_false]
  rfl

theorem isTextBreak_astral : isTextBreak ch = false := by
  have hn : decide (ch = '\n') = false := decide_eq_false fun e => by
    rw [e] at h
    exact absurd h (by decide)
  simp only [isTextBreak, hn, Bool.false_or, Bool.or_eq_false_iff, beq_eq_false_iff_ne, ne_eq]
  omega

/-- A character beyond the Basic Multilingual Plane is written as an escape of ten characters. -/
theorem escape?_astral :
    escape? ch = some ('\\' :: 'U' :: hexDigits hexCharUpper 8 ch.toNat) := by
  have hletter : escapeLetter? ch = none := by
    unfold escapeLetter?
    split <;> first | rfl | exact absurd h (by decide)
  unfold escape?
  rw [not_le_tilde h, Bool.and_false, hletter]
  simp only [Bool.false_and, Bool.false_eq_true, if_false]
  rw [if_neg (by omega), if_neg (by omega)]

end

section

variable (h : ∀ ch ∈ cs, 0x10000 ≤ ch.toNat)

include h

theorem length_doubleText_astral {first resumed : Bool} :
    (doubleText false indent column first resumed cs).length = 10 * cs.length + 1 := by
  induction cs generalizing column first resumed with
  | nil => rfl
  | cons ch cs ih =>
    rw [List.forall_mem_cons] at h
    have hrest := fun column => @ih column h.2 false true
    rw [doubleText, escape?_astral h.1]
    simp only [Bool.false_and]
    rw [if_neg (by decide), List.length_append, List.length_cons, List.length_cons,
      length_hexDigits, hrest, List.length_cons]
    omega

/-- **A key of 103 to 122 characters beyond the Basic Multilingual Plane does not fit.** -/
theorem not_keyFits_astral (hlong : 103 ≤ cs.length) (hsimple : cs.length < 123) :
    ¬ KeyFits (String.ofList cs) := by
  obtain ⟨ch, rest, rfl⟩ : ∃ ch rest, cs = ch :: rest := by
    cases cs with
    | nil => exact absurd hlong (by decide)
    | cons ch rest => exact ⟨ch, rest, rfl⟩
  have hspecial : (ch :: rest).any isSpecial = true :=
    List.any_eq_true.mpr ⟨ch, List.mem_cons_self, isSpecial_astral (h ch List.mem_cons_self)⟩
  have hbreak : (ch :: rest).any isTextBreak = false :=
    List.any_eq_false.mpr fun d hd => by
      rw [isTextBreak_astral (h d hd)]
      decide
  have hkey : isSimpleKey (String.ofList (ch :: rest)) = true := by
    unfold isSimpleKey
    simp only [String.toList_ofList, hbreak, decide_eq_true hsimple]
    rfl
  have hstyle : style true (String.ofList (ch :: rest)) = .double := by
    unfold style allowsSingle allowsPlain
    simp only [String.toList_ofList, hspecial, Bool.or_true, Bool.true_or, Bool.not_true, Bool.false_and,
      Bool.false_eq_true, if_false]
  intro hfits
  have hle := hfits hkey
  unfold text at hle
  rw [hstyle] at hle
  have hlength : ('"' :: doubleText false 0 1 true false (String.ofList (ch :: rest)).toList).length
      ≤ 1024 := hle
  rw [String.toList_ofList, List.length_cons, length_doubleText_astral h] at hlength
  omega

end

/-! ### Where a written text starts -/

/-- **A written text starts on its line.**  It starts with no blank and no number sign. -/
theorem text_start (indent column : Nat) (s : String) (key : Bool) :
    ∃ ch r, text key indent column s = ch :: r ∧ isInline ch = true ∧ ch ≠ ' ' ∧ ch ≠ '#' := by
  unfold text
  rcases style_cases key s with ⟨hs, hform, -⟩ | ⟨hs, -⟩ | hs <;> rw [hs]
  · obtain ⟨ch, more, heq, hns, hh⟩ := hform.start
    have hch := hform.chars ch (by rw [heq]; exact List.mem_cons_self)
    rw [heq]
    exact ⟨ch, _, plainText_start (!key) indent column false more hns, hch, hns, hh⟩
  · exact ⟨'\'', _, rfl, rfl, by decide, by decide⟩
  · exact ⟨'"', _, rfl, rfl, by decide, by decide⟩

end SecretForge.Yaml
