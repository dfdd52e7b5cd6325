import SecretForge.Proofs.Json.Grammar
import SecretForge.Proofs.Json.RoundTrip

/-!
# Every JSON text is read

The other direction: what the grammar says is a document is read as that document.  The grammar leaves
open where a part ends and the reader takes as much as it can, so each part comes with what may follow
it: something that is no digit after digits, no second half after a first one, and after a value a
blank, a comma or a closing bracket, with which no number goes on.

* `readText_of_units`, `readNumber_spelling` — texts and numbers.
* `readValue_of_written` — values, by induction on how they are written, with twice as many steps as
  there are characters left.
* **`parse_iff`** — the texts that are read are the documents of the grammar.
-/

namespace SecretForge.Json

open SecretForge.Number SecretForge.Text

/-! ### What follows a value -/

/-- What may follow a value: a blank, a comma or a closing bracket, or nothing. -/
def Apart (rest : List Char) : Prop :=
  ∀ c ∈ rest.head?, isGap c = true ∨ c = ',' ∨ c = ']' ∨ c = '\x7d'

def NoDigit (cs : List Char) : Prop := ∀ c ∈ cs.head?, c.isDigit = false

theorem Blanks.apart {cs rest : List Char} (h : Blanks cs rest) (hrest : Apart rest) : Apart cs := by
  cases h with
  | none => exact hrest
  | more hc =>
    intro c h
    cases h
    exact .inl hc

theorem apart_comma (rest : List Char) : Apart (',' :: rest) := fun _ h =>
  .inr (.inl (Option.mem_some.mp h).symm)

theorem apart_bracket (rest : List Char) : Apart (']' :: rest) := fun _ h =>
  .inr (.inr (.inl (Option.mem_some.mp h).symm))

theorem apart_brace (rest : List Char) : Apart ('\x7d' :: rest) := fun _ h =>
  .inr (.inr (.inr (Option.mem_some.mp h).symm))

theorem isGap_iff {c : Char} : isGap c = true ↔ c = ' ' ∨ c = '\t' ∨ c = '\n' ∨ c = '\r' := by
  simp [isGap, or_assoc]

/-- What follows a value is a character of no number. -/
theorem Apart.ne {c : Char} {rest : List Char} (h : Apart (c :: rest)) :
    c.isDigit = false ∧ c ≠ '.' ∧ c ≠ 'e' ∧ c ≠ 'E' := by
  rcases h c rfl with hgap | rfl | rfl | rfl
  · rcases isGap_iff.mp hgap with rfl | rfl | rfl | rfl <;> decide
  all_goals decide

theorem Apart.noDigit {rest : List Char} (h : Apart rest) : NoDigit rest := by
  cases rest with
  | nil => exact fun _ hc => nomatch hc
  | cons c cs => exact fun d hd => Option.some.inj hd ▸ h.ne.1

theorem skipBlanks_eq (p : Place) :
    p.skipBlanks = ⟨p.rest.drop (p.rest.takeWhile isGap).length,
      p.offset + (p.rest.takeWhile isGap).length⟩ := rfl

theorem skipBlanks_gap {c : Char} (hc : isGap c = true) (cs : List Char) (o : Nat) :
    Place.skipBlanks ⟨c :: cs, o⟩ = Place.skipBlanks ⟨cs, o + 1⟩ := by
  rw [skipBlanks_eq, skipBlanks_eq, List.takeWhile_cons_of_pos hc, List.length_cons,
    List.drop_succ_cons, Nat.add_assoc, Nat.add_comm 1]

theorem skipBlanks_of_not_gap {cs : List Char} (h : ∀ c ∈ cs.head?, isGap c = false) (o : Nat) :
    Place.skipBlanks ⟨cs, o⟩ = ⟨cs, o⟩ := by
  cases cs with
  | nil => rfl
  | cons c cs =>
    have hc : ¬ isGap c = true := by
      rw [h c rfl]
      decide
    rw [skipBlanks_eq, List.takeWhile_cons_of_neg hc]
    rfl

/-- The blanks of the grammar are skipped, where no further blank follows them. -/
theorem Blanks.skip {cs rest : List Char} (h : Blanks cs rest)
    (hrest : ∀ c ∈ rest.head?, isGap c = false) (o : Nat) :
    ∃ o', Place.skipBlanks ⟨cs, o⟩ = ⟨rest, o'⟩ := by
  induction h generalizing o with
  | none => exact ⟨o, skipBlanks_of_not_gap hrest o⟩
  | more hc _ ih =>
    obtain ⟨o', ho'⟩ := ih hrest (o + 1)
    exact ⟨o', (skipBlanks_gap hc _ o).trans ho'⟩

/-- The blanks in front of a character that is none are skipped. -/
theorem Blanks.skip_cons {cs tail : List Char} {c : Char} (h : Blanks cs (c :: tail))
    (hc : isGap c = false) (o : Nat) : ∃ o', Place.skipBlanks ⟨cs, o⟩ = ⟨c :: tail, o'⟩ :=
  h.skip (fun _ hd => Option.mem_some.mp hd ▸ hc) o

theorem Blanks.length_le {cs rest : List Char} (h : Blanks cs rest) : rest.length ≤ cs.length := by
  induction h with
  | none => exact Nat.le_refl _
  | more _ _ ih => exact Nat.le_succ_of_le ih

/-! ### Texts -/

variable {rest : List Char}

theorem Units.ne_nil {cs : List Char} {us : CodePoints} (h : Units cs us rest) : cs ≠ [] := by
  rintro rfl
  cases h

/-- A half of a pair comes from a unit escape. -/
theorem Units.unit_of_half {cs : List Char} {n : Nat} {us : CodePoints} (h : Units cs (n :: us) rest)
    (hn : isHigh n = true ∨ isLow n = true) :
    ∃ tail, cs = '\\' :: 'u' :: tail ∧ unit? (tail.take 4) = some n
      ∧ Units (tail.drop 4) us rest := by
  cases h with
  | plain =>
    rw [isHigh_toNat, isLow_toNat] at hn
    rcases hn with h | h <;> cases h
  | escape hc =>
    have := escapeOf?_lt hc
    simp only [isHigh, isLow, Bool.and_eq_true, decide_eq_true_iff] at hn
    omega
  | unit hn hs => exact ⟨_, rfl, hn, hs⟩

/-- What a text goes on with spells no second half unless its next unit is one. -/
theorem Units.noLowNext {cs : List Char} {us : CodePoints} (h : Units cs us rest)
    (hus : ∀ m ∈ us.head?, isLow m = false) : NoLowNext cs := by
  rintro more rfl
  cases h with
  | plain _ hslash => exact absurd rfl hslash
  | escape hc => cases hc
  | unit hn => exact ⟨_, hn, hus _ rfl⟩

theorem readText_close (start fuel : Nat) {cs : List Char} (h : Units cs [] rest) :
    Reads (readText start (fuel + 1)) cs [] rest := by
  cases h
  exact fun o => ⟨o + 1, by rw [readText]; rfl⟩

/-- A unit that makes no pair with the next one is read alone. -/
theorem readText_single (start : Nat) {cs : List Char} {n : Nat} {us : CodePoints}
    (h : Units cs (n :: us) rest) (hnext : isHigh n = true → ∀ m ∈ us.head?, isLow m = false) :
    ∃ ds, Units ds us rest ∧ ds.length < cs.length ∧ ∀ fuel o, ∃ o',
      readText start (fuel + 1) ⟨cs, o⟩ = (readText start fuel ⟨ds, o'⟩).map (consCode n) := by
  cases h with
  | plain hquote hslash hc hs =>
    exact ⟨_, hs, Nat.lt_succ_self _, fun fuel o =>
      ⟨o + 1, readText_plain start fuel o hquote hslash hc _⟩⟩
  | escape hn hs =>
    exact ⟨_, hs, by simp only [List.length_cons]; omega, fun fuel o =>
      ⟨o + 2, readText_escape start fuel o hn _⟩⟩
  | @unit a b c d n ds _ _ hn hs =>
    refine ⟨ds, hs, by simp only [List.length_cons]; omega, fun fuel o => ⟨o + 6, ?_⟩⟩
    have hunit : unit? ((a :: b :: c :: d :: ds).take 4) = some n := hn
    exact readText_unit start fuel o
      (readUnit_alone hunit hs.ne_nil (fun hhigh => hs.noLowNext (hnext hhigh)) (o + 1))

/-- The units of the two halves of a pair are read as one. -/
theorem readText_both (start : Nat) {cs : List Char} {hi lo : Nat} {us : CodePoints}
    (h : Units cs (hi :: lo :: us) rest) (hhi : isHigh hi = true) (hlo : isLow lo = true) :
    ∃ ds, Units ds us rest ∧ ds.length < cs.length ∧ ∀ fuel o, ∃ o',
      readText start (fuel + 1) ⟨cs, o⟩
        = (readText start fuel ⟨ds, o'⟩).map (consCode (joined hi lo)) := by
  obtain ⟨tail, rfl, hn, hs⟩ := h.unit_of_half (.inl hhi)
  obtain ⟨more, htail, hm, hus⟩ := hs.unit_of_half (.inr hlo)
  refine ⟨more.drop 4, hus, ?_, fun fuel o => ⟨o + 12, ?_⟩⟩
  · have hlen := congrArg List.length htail
    rw [List.length_drop, List.length_cons, List.length_cons] at hlen
    rw [List.length_drop, List.length_cons, List.length_cons]
    omega
  · exact readText_unit start fuel o (readUnit_both hn htail hm hhi hlo hus.ne_nil (o + 1))

/-- **A text is read from its units**, with more steps than there are characters left. -/
theorem readText_of_units (start : Nat) (us : CodePoints) {cs : List Char} (h : Units cs us rest)
    {fuel : Nat} (hfuel : cs.length < fuel) :
    Reads (readText start fuel) cs (joinHalves us) rest := by
  intro o
  induction us using joinHalves.induct generalizing cs fuel o with
  | case1 =>
    obtain ⟨fuel, rfl⟩ := Nat.exists_eq_add_one_of_ne_zero (Nat.ne_zero_of_lt hfuel)
    exact readText_close start fuel h o
  | case2 n =>
    obtain ⟨ds, hds, hlt, hread⟩ := readText_single start h (fun _ _ hm => nomatch hm)
    obtain ⟨fuel, rfl⟩ := Nat.exists_eq_add_of_le' (show 2 ≤ fuel by omega)
    obtain ⟨o', ho'⟩ := hread (fuel + 1) o
    obtain ⟨o'', ho''⟩ := readText_close start fuel hds o'
    exact ⟨o'', by rw [ho', ho'']; rfl⟩
  | case3 hi lo us hpair ih =>
    obtain ⟨hhi, hlo⟩ := Bool.and_eq_true_iff.mp hpair
    obtain ⟨ds, hds, hlt, hread⟩ := readText_both start h hhi hlo
    obtain ⟨fuel, rfl⟩ := Nat.exists_eq_add_one_of_ne_zero (Nat.ne_zero_of_lt hfuel)
    obtain ⟨o', ho'⟩ := hread fuel o
    obtain ⟨o'', ho''⟩ := ih hds (show ds.length < fuel by omega) o'
    exact ⟨o'', by rw [ho', ho'', joinHalves_pair hhi hlo]; rfl⟩
  | case4 hi lo us hpair ih =>
    have hnext : isHigh hi = true → ∀ m ∈ (lo :: us).head?, isLow m = false := by
      rintro hhi m hm
      cases hm
      by_contra hlo
      exact hpair (Bool.and_eq_true_iff.mpr ⟨hhi, eq_true_of_ne_false hlo⟩)
    obtain ⟨ds, hds, hlt, hread⟩ := readText_single start h hnext
    obtain ⟨fuel, rfl⟩ := Nat.exists_eq_add_one_of_ne_zero (Nat.ne_zero_of_lt hfuel)
    obtain ⟨o', ho'⟩ := hread fuel o
    obtain ⟨o'', ho''⟩ := ih hds (show ds.length < fuel by omega) o'
    exact ⟨o'', by rw [ho', ho'', joinHalves_single hnext]; rfl⟩

/-! ### Numbers -/

theorem digitsHere_of_digits {ds : List Char} (h : ∀ d ∈ ds, d.isDigit = true)
    (hrest : NoDigit rest) : digitsHere (ds ++ rest) = ds := by
  rw [digitsHere, List.takeWhile_append_of_pos h]
  cases rest with
  | nil => rw [List.takeWhile_nil, List.append_nil]
  | cons c cs =>
    rw [List.takeWhile_cons_of_neg (by rw [hrest c rfl]; decide), List.append_nil]

theorem wholeHere_of_digits {ds : List Char} (h : Digits ds)
    (hzero : ∀ ds', ds = '0' :: ds' → ds' = []) (hrest : NoDigit rest) :
    wholeHere (ds ++ rest) = ds := by
  obtain ⟨d, ds, rfl⟩ := List.exists_cons_of_ne_nil h.1
  unfold wholeHere
  split
  · next heq =>
    obtain ⟨rfl, -⟩ := List.cons.inj heq
    rw [hzero ds rfl]
  · exact digitsHere_of_digits h.2 hrest

/-- An exponent or what follows the number goes on neither with a digit nor with a point. -/
theorem noDigit_raised (e : Option Exponent) (hrest : Apart rest) :
    NoDigit (Numeral.raised e ++ rest) ∧ (Numeral.raised e ++ rest).head? ≠ some '.' := by
  cases e with
  | none =>
    refine ⟨hrest.noDigit, fun heq => ?_⟩
    obtain ⟨tail, rfl⟩ := List.head?_eq_some_iff.mp heq
    exact hrest.ne.2.1 rfl
  | some e =>
    have hhead : (Numeral.raised (some e) ++ rest).head? = some e.mark := rfl
    rw [NoDigit, hhead]
    rcases e.isMark with h | h <;> rw [h] <;>
      exact ⟨fun c hc => Option.mem_some.mp hc ▸ rfl, by decide⟩

theorem fractionHere_pointed {ds : List Char} (h : ∀ d ∈ ds, d.isDigit = true)
    (hrest : NoDigit rest) (hpoint : rest.head? ≠ some '.') :
    fractionHere (Numeral.pointed ds ++ rest) = ds := by
  unfold Numeral.pointed
  split
  · next hempty =>
    rw [List.nil_append, fractionHere, List.isEmpty_iff.mp hempty]
    rintro cs rfl
    exact hpoint rfl
  · exact digitsHere_of_digits h hrest

theorem dropFraction_pointed {ds : List Char} (h : ∀ d ∈ ds, d.isDigit = true)
    (hrest : NoDigit rest) (hpoint : rest.head? ≠ some '.') :
    dropFraction (Numeral.pointed ds ++ rest) = rest := by
  rw [dropFraction, fractionHere_pointed h hrest hpoint, Numeral.pointed]
  split
  · rfl
  · rw [List.cons_append, List.drop_succ_cons, List.drop_left]

theorem takeSign_digits {sign ds : List Char} (hsign : sign = [] ∨ sign = ['+'] ∨ sign = ['-'])
    (h : Digits ds) : takeSign (sign ++ (ds ++ rest)) = (decide (sign = ['-']), ds ++ rest) := by
  obtain ⟨d, ds, rfl⟩ := List.exists_cons_of_ne_nil h.1
  have hd := h.2 d List.mem_cons_self
  rcases hsign with rfl | rfl | rfl
  · rw [List.nil_append, List.cons_append, takeSign]
    · rfl
    all_goals
      rintro cs heq
      rw [(List.cons.inj heq).1] at hd
      cases hd
  · rfl
  · rfl

theorem exponentHere?_raised (e : Option Exponent) (hrest : Apart rest) :
    exponentHere? (Numeral.raised e ++ rest) = foundExponent e := by
  cases e with
  | none =>
    show exponentHere? rest = none
    cases rest with
    | nil => rfl
    | cons c cs =>
      have hc := hrest.ne
      rw [exponentHere?, if_neg]
      simp [hc.2.2.1, hc.2.2.2]
  | some e =>
    have hmark : (e.mark = 'e' || e.mark = 'E') = true := by
      rw [Bool.or_eq_true, decide_eq_true_iff, decide_eq_true_iff]
      exact e.isMark
    have hsign : takeSign (e.sign ++ (e.digits ++ rest)) = _ := takeSign_digits e.isSign e.isNumber
    have hdigits := digitsHere_of_digits e.isNumber.2 hrest.noDigit
    show exponentHere? (e.mark :: (e.sign ++ e.digits) ++ rest) = _
    rw [List.cons_append, List.append_assoc, exponentHere?, if_pos hmark, hsign]
    simp only [hdigits]
    rw [if_neg (by rw [List.isEmpty_iff]; exact e.isNumber.1)]
    have hlen : 1 + ((e.sign ++ (e.digits ++ rest)).length - (e.digits ++ rest).length)
        + e.digits.length = e.spelling.length := by
      rw [Exponent.spelling, List.length_cons, List.length_append, List.length_append]
      simp only [List.length_append]
      omega
    rw [hlen]
    exact congrArg (fun i => some (e.spelling.length, i)) (if_congr decide_eq_true_iff rfl rfl)

/-- The sign of a number is taken off; the number itself starts with a digit. -/
theorem bodyHere_sign (n : Numeral) (cs : List Char) :
    bodyHere (n.sign ++ (n.whole ++ cs)) = n.whole ++ cs
      ∧ ((n.sign ++ (n.whole ++ cs)).head? = some '-' ↔ n.negative = true) := by
  obtain ⟨d, ds, hwhole⟩ := List.exists_cons_of_ne_nil n.isWhole.1
  have hd := n.isWhole.2 d (hwhole ▸ List.mem_cons_self)
  have hne : ¬ d = '-' := by
    rintro rfl
    cases hd
  rw [Numeral.sign, hwhole]
  cases n.negative with
  | false => exact ⟨if_neg (fun h => hne (Option.some.inj h)), by simp [hne]⟩
  | true => exact ⟨rfl, by simp⟩

theorem noDigit_pointed (ds : List Char) (h : NoDigit rest) :
    NoDigit (Numeral.pointed ds ++ rest) := by
  unfold Numeral.pointed
  split
  · exact h
  · rintro c hc
    cases hc
    rfl

/-- **A number is read from its parts**, where what follows goes on with no number. -/
theorem readNumber_spelling (n : Numeral) (hfits : n.Fits) (hrest : Apart rest) :
    Reads readNumber (n.spelling ++ rest) n.value rest := by
  intro o
  obtain ⟨hdigit, hpoint⟩ := noDigit_raised n.exponent hrest
  have happend : n.spelling ++ rest = n.sign ++ (n.whole
      ++ (Numeral.pointed n.fraction ++ (Numeral.raised n.exponent ++ rest))) := by
    rw [Numeral.spelling, List.append_assoc, List.append_assoc, List.append_assoc]
  obtain ⟨hbody, hneg⟩ := bodyHere_sign n
    (Numeral.pointed n.fraction ++ (Numeral.raised n.exponent ++ rest))
  rw [← happend] at hbody hneg
  have hwhole := wholeHere_of_digits n.isWhole n.noNeedlessZero (noDigit_pointed n.fraction hdigit)
  have hfraction := fractionHere_pointed n.isFraction hdigit hpoint
  have hafter := dropFraction_pointed n.isFraction hdigit hpoint
  rw [readNumber_eq, hbody, hwhole, List.drop_left, hfraction, hafter,
    exponentHere?_raised n.exponent hrest, numberOf_numeral _ n hneg, if_pos hfits]
  exact ⟨o + n.spelling.length, by rw [Place.skip, List.drop_left]⟩

/-! ### Values -/

/-- A number starts with a digit, perhaps after a sign. -/
theorem Numeral.head_spelling (n : Numeral) : ∃ d ds, d.isDigit = true
    ∧ (n.spelling = d :: ds ∨ n.spelling = '-' :: d :: ds) := by
  obtain ⟨d, ds, hwhole⟩ := List.exists_cons_of_ne_nil n.isWhole.1
  refine ⟨d, ds ++ (pointed n.fraction ++ raised n.exponent),
    n.isWhole.2 d (hwhole ▸ List.mem_cons_self), ?_⟩
  rw [spelling, sign, hwhole]
  cases n.negative with
  | false => exact .inl rfl
  | true => exact .inr rfl

/-- A text that starts with a character that is no blank and closes nothing. -/
def Opened (cs : List Char) : Prop := ∃ c tail, cs = c :: tail ∧ Opens c

/-- A value starts with such a character. -/
theorem Written.opened {cs rest : List Char} {v : Json} (h : Written cs v rest) : Opened cs := by
  cases h with
  | word hw =>
    simp only [words, List.mem_cons, List.not_mem_nil, or_false] at hw
    rcases hw with rfl | rfl | rfl | rfl | rfl | rfl <;> exact ⟨_, _, rfl, by decide⟩
  | number n =>
    obtain ⟨d, ds, hd, h | h⟩ := n.head_spelling <;> rw [h]
    · exact ⟨d, _, rfl, opens_of_isDigit hd⟩
    · exact ⟨'-', _, rfl, by decide⟩
  | text => exact ⟨_, _, rfl, by decide⟩
  | noItems => exact ⟨_, _, rfl, by decide⟩
  | items => exact ⟨_, _, rfl, by decide⟩
  | noEntries => exact ⟨_, _, rfl, by decide⟩
  | entries => exact ⟨_, _, rfl, by decide⟩

theorem readValue_word {w : String × Json} (hw : w ∈ words) (rest : List Char) (fuel : Nat) :
    Reads (readValue (fuel + 1)) (w.1.toList ++ rest) w.2 rest := by
  intro o
  simp only [words, List.mem_cons, List.not_mem_nil, or_false] at hw
  refine ⟨o + w.1.length, ?_⟩
  rcases hw with rfl | rfl | rfl | rfl | rfl | rfl <;>
    exact readValue_bare (by decide) (by decide) (by decide) _ _ _

theorem readValue_number (n : Numeral) (hfits : n.Fits) (hrest : Apart rest) (fuel : Nat) :
    Reads (readValue (fuel + 1)) (n.spelling ++ rest) n.value rest := by
  intro o
  obtain ⟨o', hread⟩ := readNumber_spelling n hfits hrest o
  refine ⟨o', hread ▸ ?_⟩
  obtain ⟨d, ds, hd, h | h⟩ := n.head_spelling
  · have hne : ∀ c : Char, c.isDigit = false → d ≠ c := by
      rintro c hc rfl
      rw [hc] at hd
      cases hd
    rw [h, List.cons_append, readValue_bare (hne _ rfl) (hne _ rfl) (hne _ rfl), wordHere?_digit hd]
  · rw [h, List.cons_append, List.cons_append,
      readValue_bare (by decide) (by decide) (by decide), wordHere?_minus_digit hd]

theorem readValue_quoted {cs : List Char} {us : CodePoints} (h : Units cs us rest)
    (fuel : Nat) : Reads (readValue (fuel + 1)) ('"' :: cs) (.text (joinHalves us)) rest := by
  intro o
  obtain ⟨o', hread⟩ := readText_of_units o us h
    (show cs.length < ('"' :: cs).length + 1 by simp only [List.length_cons]; omega) (o + 1)
  refine ⟨o', ?_⟩
  rw [readValue]
  show Except.map _ (readText o _ ⟨cs, o + 1⟩) = _
  rw [hread]
  rfl

variable {cs ds es fs gs : List Char} {v : Json} {fuel : Nat}

theorem Blanks.skip_opened (h : Blanks cs ds) (hds : Opened ds) (o : Nat) :
    ∃ o', Place.skipBlanks ⟨cs, o⟩ = ⟨ds, o'⟩ := by
  obtain ⟨c, tail, rfl, hc⟩ := hds
  exact h.skip_cons hc.1 o

theorem readValue_noItems (h : Blanks cs (']' :: rest)) :
    Reads (readValue (fuel + 1)) ('[' :: cs) (.list []) rest := by
  intro o
  obtain ⟨o', hskip⟩ := h.skip_cons rfl (o + 1)
  have hstart : (Place.skip 1 ⟨'[' :: cs, o⟩).skipBlanks = ⟨']' :: rest, o'⟩ := hskip
  refine ⟨o' + 1, ?_⟩
  rw [readValue]
  simp only [hstart]
  rfl

theorem readValue_items {vs : List Json} (hb : Blanks cs ds)
    (hds : Opened ds) (h : Reads (readItems fuel) ds vs rest) :
    Reads (readValue (fuel + 1)) ('[' :: cs) (.list vs) rest := by
  intro o
  obtain ⟨o₁, hskip⟩ := hb.skip_opened hds (o + 1)
  obtain ⟨o₂, hread⟩ := h o₁
  have hstart : (Place.skip 1 ⟨'[' :: cs, o⟩).skipBlanks = ⟨ds, o₁⟩ := hskip
  refine ⟨o₂, ?_⟩
  rw [readValue]
  simp only [hstart, hread]
  obtain ⟨c, tail, rfl, hc⟩ := hds
  split
  · next heq => exact absurd (List.cons.inj heq).1 hc.2.1
  · rfl

theorem readValue_noEntries (h : Blanks cs ('\x7d' :: rest)) :
    Reads (readValue (fuel + 1)) ('\x7b' :: cs) (.object []) rest := by
  intro o
  obtain ⟨o', hskip⟩ := h.skip_cons rfl (o + 1)
  have hstart : (Place.skip 1 ⟨'\x7b' :: cs, o⟩).skipBlanks = ⟨'\x7d' :: rest, o'⟩ := hskip
  refine ⟨o' + 1, ?_⟩
  rw [readValue]
  simp only [hstart]
  rfl

theorem readValue_entries {entries : List (CodePoints × Json)} (hb : Blanks cs ('"' :: ds))
    (h : Reads (readEntries fuel []) ('"' :: ds) entries rest) :
    Reads (readValue (fuel + 1)) ('\x7b' :: cs) (.object entries) rest := by
  intro o
  obtain ⟨o₁, hskip⟩ := hb.skip_cons rfl (o + 1)
  obtain ⟨o₂, hread⟩ := h o₁
  have hstart : (Place.skip 1 ⟨'\x7b' :: cs, o⟩).skipBlanks = ⟨'"' :: ds, o₁⟩ := hskip
  refine ⟨o₂, ?_⟩
  rw [readValue]
  simp only [hstart, hread]
  rfl

theorem readItems_close (h : Reads (readValue fuel) cs v ds) (hb : Blanks ds (']' :: rest)) :
    Reads (readItems (fuel + 1)) cs [v] rest := by
  intro o
  obtain ⟨o₁, hread⟩ := h o
  obtain ⟨o₂, hskip⟩ := hb.skip_cons rfl o₁
  refine ⟨o₂ + 1, ?_⟩
  rw [readItems, hread]
  simp only [bind, Except.bind, hskip]
  rfl

theorem readItems_next {vs : List Json} (h : Reads (readValue fuel) cs v ds)
    (hb : Blanks ds (',' :: es)) (hb' : Blanks es fs) (hfs : Opened fs)
    (hs : Reads (readItems fuel) fs vs rest) :
    Reads (readItems (fuel + 1)) cs (v :: vs) rest := by
  intro o
  obtain ⟨o₁, hread⟩ := h o
  obtain ⟨o₂, hskip⟩ := hb.skip_cons rfl o₁
  obtain ⟨o₃, hskip'⟩ := hb'.skip_opened hfs (o₂ + 1)
  obtain ⟨o₄, hreads⟩ := hs o₃
  have hnext : (Place.skip 1 ⟨',' :: es, o₂⟩).skipBlanks = ⟨fs, o₃⟩ := hskip'
  refine ⟨o₄, ?_⟩
  rw [readItems, hread]
  simp only [bind, Except.bind, hskip, hnext, hreads]
  rfl

/-- An entry is read up to what comes after it. -/
theorem readEntries_of_entry (done : List (CodePoints × Json)) {us : CodePoints}
    (hk : Units cs us ds) (hcolon : Blanks ds (':' :: es)) (hb : Blanks es fs)
    (hfs : Opened fs) (h : Reads (readValue fuel) fs v gs) (o : Nat) :
    ∃ o', readEntries (fuel + 1) done ⟨'"' :: cs, o⟩
      = afterEntry fuel (put (joinHalves us) v done) (Place.skipBlanks ⟨gs, o'⟩) := by
  obtain ⟨o₁, hkey⟩ := readText_of_units o us hk
    (show cs.length < ('"' :: cs).length + 1 by simp only [List.length_cons]; omega) (o + 1)
  obtain ⟨o₂, hskip⟩ := hcolon.skip_cons rfl o₁
  obtain ⟨o₃, hskip'⟩ := hb.skip_opened hfs (o₂ + 1)
  obtain ⟨o₄, hread⟩ := h o₃
  have hstart : Place.skip 1 ⟨'"' :: cs, o⟩ = ⟨cs, o + 1⟩ := rfl
  have hnext : (Place.skip 1 ⟨':' :: es, o₂⟩).skipBlanks = ⟨fs, o₃⟩ := hskip'
  refine ⟨o₄, ?_⟩
  rw [readEntries]
  simp only [hstart, bind, Except.bind, hkey, hskip, hnext, hread]
  rfl

theorem length_word_pos {w : String × Json} (hw : w ∈ words) : 0 < w.1.toList.length := by
  have hall : (words.all fun w => 0 < w.1.toList.length) = true := by decide
  exact of_decide_eq_true (List.all_eq_true.mp hall w hw)

mutual

/-- What is left after a value is less than what it was read from. -/
theorem Written.length_lt : ∀ {cs rest : List Char} {v : Json}, Written cs v rest →
    rest.length < cs.length
  | _, _, _, .word hw => by
    rw [List.length_append]
    exact Nat.lt_add_of_pos_left (length_word_pos hw)
  | _, _, _, .number n _ => by
    obtain ⟨d, ds, -, h | h⟩ := n.head_spelling <;> rw [h, List.length_append, List.length_cons] <;>
      omega
  | _, _, _, .text hs => Nat.lt_succ_of_lt hs.length_lt
  | _, _, _, .noItems hb => Nat.lt_succ_of_lt (Nat.lt_of_succ_le hb.length_le)
  | _, _, _, .items hb hs => Nat.lt_succ_of_lt (Nat.lt_of_lt_of_le hs.length_lt hb.length_le)
  | _, _, _, .noEntries hb => Nat.lt_succ_of_lt (Nat.lt_of_succ_le hb.length_le)
  | _, _, _, .entries hb hs => Nat.lt_succ_of_lt (Nat.lt_of_lt_of_le hs.length_lt hb.length_le)

theorem WrittenItems.length_lt : ∀ {cs rest : List Char} {vs : List Json}, WrittenItems cs vs rest →
    rest.length < cs.length
  | _, _, _, .last hv hb => by
    have := hv.length_lt
    have := hb.length_le
    simp only [List.length_cons] at *
    omega
  | _, _, _, .more hv hb hb' hs => by
    have := hv.length_lt
    have := hb.length_le
    have := hb'.length_le
    have := hs.length_lt
    simp only [List.length_cons] at *
    omega

theorem WrittenEntry.length_lt : ∀ {cs rest : List Char} {e : CodePoints × Json},
    WrittenEntry cs e rest → rest.length < cs.length
  | _, _, _, .mk hk hcolon hb hv => by
    have := hk.length_lt
    have := hcolon.length_le
    have := hb.length_le
    have := hv.length_lt
    simp only [List.length_cons] at *
    omega

theorem WrittenEntries.length_lt : ∀ {cs rest : List Char} {es : List (CodePoints × Json)},
    WrittenEntries cs es rest → rest.length < cs.length
  | _, _, _, .last he hend => by
    have := he.length_lt
    have := hend.length_le
    simp only [List.length_cons] at *
    omega
  | _, _, _, .more he hcomma hb hs => by
    have := he.length_lt
    have := hcomma.length_le
    have := hb.length_le
    have := hs.length_lt
    simp only [List.length_cons] at *
    omega

end

theorem WrittenItems.opened {vs : List Json} (h : WrittenItems cs vs rest) : Opened cs := by
  cases h with
  | last hv => exact hv.opened
  | more hv => exact hv.opened

theorem WrittenEntries.quoted {es : List (CodePoints × Json)} (h : WrittenEntries cs es rest) :
    ∃ tail, cs = '"' :: tail := by
  cases h with
  | last he =>
    cases he
    exact ⟨_, rfl⟩
  | more he =>
    cases he
    exact ⟨_, rfl⟩

mutual

/-- **A value is read as it is written**, with twice as many steps as there are characters left. -/
theorem readValue_of_written : ∀ {cs rest : List Char} {v : Json}, Written cs v rest → Apart rest →
    ∀ {fuel : Nat}, 2 * cs.length ≤ fuel → Reads (readValue fuel) cs v rest
  | _, rest, _, .word hw, _, fuel, hfuel => by
    have : rest.length < _ := (Written.word hw).length_lt
    obtain ⟨fuel, rfl⟩ := Nat.exists_eq_add_one_of_ne_zero (show fuel ≠ 0 by omega)
    exact readValue_word hw rest fuel
  | _, rest, _, .number n hfits, hrest, fuel, hfuel => by
    have : rest.length < _ := (Written.number n hfits).length_lt
    obtain ⟨fuel, rfl⟩ := Nat.exists_eq_add_one_of_ne_zero (show fuel ≠ 0 by omega)
    exact readValue_number n hfits hrest fuel
  | _, _, _, .text hs, _, fuel + 1, hfuel => readValue_quoted hs fuel
  | _, _, _, .noItems hb, _, fuel + 1, hfuel => readValue_noItems hb
  | _, _, _, .items hb hs, _, fuel + 1, hfuel => by
    have := hb.length_le
    rw [List.length_cons] at hfuel
    exact readValue_items hb hs.opened (readItems_of_written hs (by omega))
  | _, _, _, .noEntries hb, _, fuel + 1, hfuel => readValue_noEntries hb
  | _, _, _, .entries hb hs, _, fuel + 1, hfuel => by
    have := hb.length_le
    rw [List.length_cons] at hfuel
    have hread := readEntries_of_written hs [] (show 2 * _ < fuel by omega)
    obtain ⟨tail, rfl⟩ := hs.quoted
    exact readValue_entries hb hread

theorem readItems_of_written : ∀ {cs rest : List Char} {vs : List Json}, WrittenItems cs vs rest →
    ∀ {fuel : Nat}, 2 * cs.length < fuel → Reads (readItems fuel) cs vs rest
  | _, _, _, .last hv hb, fuel + 1, hfuel =>
    readItems_close (readValue_of_written hv (hb.apart (apart_bracket _)) (by omega)) hb
  | _, _, _, .more hv hb hb' hs, fuel + 1, hfuel => by
    have := hv.length_lt
    have := hb.length_le
    have := hb'.length_le
    rw [List.length_cons] at *
    exact readItems_next (readValue_of_written hv (hb.apart (apart_comma _)) (by omega)) hb hb'
      hs.opened (readItems_of_written hs (by omega))

theorem readEntry_of_written : ∀ {cs rest : List Char} {e : CodePoints × Json},
    WrittenEntry cs e rest → Apart rest → ∀ (done : List (CodePoints × Json)) {fuel : Nat},
    2 * cs.length < fuel + 1 → ∀ o, ∃ o', readEntries (fuel + 1) done ⟨cs, o⟩
      = afterEntry fuel (put e.1 e.2 done) (Place.skipBlanks ⟨rest, o'⟩)
  | _, _, _, .mk hk hcolon hb hv, hrest, done, fuel, hfuel => by
    have := hk.length_lt
    have := hcolon.length_le
    have := hb.length_le
    rw [List.length_cons] at *
    exact readEntries_of_entry done hk hcolon hb hv.opened (readValue_of_written hv hrest (by omega))

theorem readEntries_of_written : ∀ {cs rest : List Char} {es : List (CodePoints × Json)},
    WrittenEntries cs es rest → ∀ (done : List (CodePoints × Json)) {fuel : Nat},
    2 * cs.length < fuel → Reads (readEntries fuel done) cs (collect done es) rest
  | _, _, _, .last he hend, done, fuel + 1, hfuel => fun o => by
    obtain ⟨o₁, hentry⟩ := readEntry_of_written he (hend.apart (apart_brace _)) done hfuel o
    obtain ⟨o₂, hskip⟩ := hend.skip_cons rfl o₁
    exact ⟨o₂ + 1, by rw [hentry, hskip]; rfl⟩
  | _, _, _, .more he hcomma hb hs, done, fuel + 1, hfuel => fun o => by
    have := he.length_lt
    have := hcomma.length_le
    have := hb.length_le
    rw [List.length_cons] at *
    obtain ⟨o₁, hentry⟩ := readEntry_of_written he (hcomma.apart (apart_comma _)) done hfuel o
    obtain ⟨o₂, hskip⟩ := hcomma.skip_cons rfl o₁
    obtain ⟨tail, htail⟩ := hs.quoted
    obtain ⟨o₃, hskip'⟩ := hb.skip_opened ⟨_, _, htail, by decide⟩ (o₂ + 1)
    obtain ⟨o₄, hreads⟩ := readEntries_of_written hs (put _ _ done) (show 2 * _ < fuel by omega) o₃
    refine ⟨o₄, ?_⟩
    rw [hentry, hskip, collect_cons, ← hreads, ← hskip']
    rfl

end

/-- **The texts that are read are the documents of the grammar**, each as the value that it is. -/
theorem parse_iff {text : String} {v : Json} : parse text = .ok v ↔ Document text.toList v := by
  refine ⟨document_of_parse, ?_⟩
  rintro ⟨ds, rest, hb, hv, hend⟩
  have hapart : Apart rest := hend.apart fun _ h => nomatch h
  obtain ⟨o₁, hskip⟩ := hb.skip_opened hv.opened 0
  have hle := hb.length_le
  obtain ⟨o₂, hread⟩ := readValue_of_written hv hapart
    (show 2 * ds.length ≤ 2 * text.toList.length + 2 by omega) o₁
  obtain ⟨o₃, hskip'⟩ := hend.skip (fun _ h => nomatch h) o₂
  have hmark : text.toList.head? ≠ some (Char.ofNat 0xFEFF) := fun hhead => by
    obtain ⟨tail, htail⟩ := List.head?_eq_some_iff.mp hhead
    rw [htail] at hb
    cases hb with
    | none =>
      obtain ⟨c, tail', heq, hc⟩ := hv.opened
      rw [← (List.cons.inj heq).1] at hc
      exact absurd hc.2.2 (by decide)
    | more hgap => exact absurd hgap (by decide)
  rw [parse]
  simp only
  rw [if_neg hmark]
  simp only [bind, Except.bind, hskip, hread, hskip']
  rfl

/-- **A document is one value.** -/
theorem document_unique {cs : List Char} {v w : Json} (hv : Document cs v) (hw : Document cs w) :
    v = w := by
  rw [← String.toList_ofList (l := cs), ← parse_iff] at hv hw
  exact Except.ok.inj (hv.symm.trans hw)

end SecretForge.Json
