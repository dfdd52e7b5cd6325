import SecretForge.Json.Read
import SecretForge.Proofs.Json.Form

/-!
# JSON is read as it is written

Reading goes over what writing has put down, part by part: the units of a text, the digits of a whole
number, the members of a list, the entries of an object.  Each part is followed by something that
cannot belong to it, and that is where reading it stops.

* `readText_writeText` — texts; the next code point decides whether a half pair stays alone.
* `readValue_write` — values, by induction on the value, with twice as many steps as characters.
* **`parse_render`** — a whole document.
-/

namespace SecretForge.Json

open SecretForge.Number SecretForge.Text

/-- Reading from `cs` yields `a` and stops before `rest`, at whatever offset it starts. -/
def Reads {α : Type} (read : Place → Except Fault (α × Place)) (cs : List Char) (a : α)
    (rest : List Char) : Prop :=
  ∀ o, ∃ o', read ⟨cs, o⟩ = .ok (a, ⟨rest, o'⟩)

/-! ### Texts -/

theorem unit?_hexDigits {n : Nat} (h : n < 0x10000) : unit? (hexDigits hexChar 4 n) = some n := by
  rw [unit?, if_pos (length_hexDigits _ _ _)]
  show hexValue 0 _ = _
  rw [hexValue_hexDigits hexDigit?_hexChar_all _ _ _ h, Nat.zero_mul, Nat.zero_add]

theorem take_hexDigits (n : Nat) (rest : List Char) :
    (hexDigits hexChar 4 n ++ rest).take 4 = hexDigits hexChar 4 n :=
  List.take_left' (length_hexDigits _ _ _)

theorem drop_hexDigits (n : Nat) (rest : List Char) :
    (hexDigits hexChar 4 n ++ rest).drop 4 = rest :=
  List.drop_left' (length_hexDigits _ _ _)

/-- What follows does not spell the second half of a pair. -/
def NoLowNext (rest : List Char) : Prop :=
  ∀ more, rest = '\\' :: 'u' :: more → ∃ n, unit? (more.take 4) = some n ∧ isLow n = false

/-- A unit escape stays alone where no second half of its pair follows. -/
theorem readUnit_alone {tail : List Char} {n : Nat} (hn : unit? (tail.take 4) = some n)
    (hne : tail.drop 4 ≠ []) (hnext : isHigh n = true → NoLowNext (tail.drop 4)) (o : Nat) :
    readUnit ⟨'u' :: tail, o⟩ = .ok (n, ⟨tail.drop 4, o + 5⟩) := by
  unfold readUnit
  simp only [List.drop_succ_cons, List.drop_zero, hn, Place.skip]
  generalize tail.drop 4 = rest at hne hnext
  by_cases hshape : ∃ more, rest = '\\' :: 'u' :: more
  · obtain ⟨more, rfl⟩ := hshape
    simp only
    split
    · next hcond =>
      rw [Bool.and_eq_true] at hcond
      obtain ⟨lo, hlo, hlow⟩ := hnext hcond.1 more rfl
      simp only [hlo]
      exact if_neg (by rw [show (_ && _) = isLow lo from rfl, hlow]; decide)
    · rfl
  · obtain ⟨c, cs, rfl⟩ := List.exists_cons_of_ne_nil hne
    split
    · next h => exact absurd ⟨_, h⟩ hshape
    · next heq _ => cases heq; rfl
    · next h => exact absurd rfl (h n c cs rfl)

/-- The unit escapes of the two halves of a pair are read as one. -/
theorem readUnit_both {tail more : List Char} {hi lo : Nat} (hn : unit? (tail.take 4) = some hi)
    (htail : tail.drop 4 = '\\' :: 'u' :: more) (hm : unit? (more.take 4) = some lo)
    (hhi : isHigh hi = true) (hlo : isLow lo = true) (hne : more.drop 4 ≠ []) (o : Nat) :
    readUnit ⟨'u' :: tail, o⟩
      = .ok (0x10000 + (hi - 0xD800) * 0x400 + (lo - 0xDC00), ⟨more.drop 4, o + 11⟩) := by
  have hlong : 4 < more.length := by
    have := List.length_pos_iff.mpr hne
    rw [List.length_drop] at this
    omega
  have hdrop : tail.drop 10 = more.drop 4 := by
    rw [show 10 = 4 + 6 from rfl, ← List.drop_drop, htail]
    rfl
  unfold readUnit
  simp only [List.drop_succ_cons, List.drop_zero, hn, htail, hm, Place.skip, hdrop]
  rw [if_pos (by rw [show (_ && _) = isHigh hi from rfl, hhi, decide_eq_true hlong]; rfl)]
  exact if_pos hlo

theorem readUnit_single {n : Nat} (h : n < 0x10000) {rest : List Char} (hne : rest ≠ [])
    (hnext : isHigh n = true → NoLowNext rest) (o : Nat) :
    readUnit ⟨'u' :: (hexDigits hexChar 4 n ++ rest), o⟩ = .ok (n, ⟨rest, o + 5⟩) := by
  have hdrop := drop_hexDigits n rest
  have hunit : unit? ((hexDigits hexChar 4 n ++ rest).take 4) = some n := by
    rw [take_hexDigits, unit?_hexDigits h]
  have hread := readUnit_alone hunit (by rwa [hdrop]) (by rwa [hdrop]) o
  rwa [hdrop] at hread

theorem readUnit_pair {hi lo : Nat} (hhi : isHigh hi = true) (hlo : isLow lo = true)
    {rest : List Char} (hne : rest ≠ []) (o : Nat) :
    readUnit ⟨'u' :: (hexDigits hexChar 4 hi ++ '\\' :: 'u' :: (hexDigits hexChar 4 lo ++ rest)), o⟩
      = .ok (0x10000 + (hi - 0xD800) * 0x400 + (lo - 0xDC00), ⟨rest, o + 11⟩) := by
  have hhi' : hi < 0x10000 := by
    rw [isHigh, Bool.and_eq_true, decide_eq_true_iff, decide_eq_true_iff] at hhi
    omega
  have hlo' : lo < 0x10000 := by
    rw [isLow, Bool.and_eq_true, decide_eq_true_iff, decide_eq_true_iff] at hlo
    omega
  have hdrop := drop_hexDigits lo rest
  have hfirst (cs : List Char) : unit? ((hexDigits hexChar 4 hi ++ cs).take 4) = some hi := by
    rw [take_hexDigits, unit?_hexDigits hhi']
  have hsecond : unit? ((hexDigits hexChar 4 lo ++ rest).take 4) = some lo := by
    rw [take_hexDigits, unit?_hexDigits hlo']
  have hread := readUnit_both (hfirst _) (drop_hexDigits hi _) hsecond hhi hlo (by rwa [hdrop]) o
  rwa [hdrop] at hread

/-- A code point in front of what a text goes on with. -/
def consCode (n : Nat) (r : CodePoints × Place) : CodePoints × Place := (n :: r.1, r.2)

variable (start fuel o : Nat)

theorem readText_unit {n : Nat} {tail : List Char} {next : Place}
    (h : readUnit ⟨'u' :: tail, o + 1⟩ = .ok (n, next)) :
    readText start (fuel + 1) ⟨'\\' :: 'u' :: tail, o⟩
      = (readText start fuel next).map (consCode n) := by
  rw [readText]
  simp only [Place.skip, List.drop_succ_cons, List.drop_zero, h]
  show (readText start fuel next).bind _ = _
  cases readText start fuel next <;> rfl

theorem readText_escape {c : Char} {n : Nat} (h : escapeOf? c = some n) (rest : List Char) :
    readText start (fuel + 1) ⟨'\\' :: c :: rest, o⟩
      = (readText start fuel ⟨rest, o + 2⟩).map (consCode n) := by
  have hu : c ≠ 'u' := by
    rintro rfl
    cases h
  rw [readText]
  split
  · next heq => cases heq
  · next heq => cases heq
  · next heq => cases heq
  · next heq => exact absurd (List.cons.inj (List.cons.inj heq).2).1 hu
  · next heq =>
    cases heq
    rw [h]
    rfl
  · next hno heq =>
    cases heq
    exact absurd rfl (hno c rest rfl)

theorem readText_plain {c : Char} (hq : c ≠ '"') (hb : c ≠ '\\') (hc : 0x20 ≤ c.toNat)
    (rest : List Char) :
    readText start (fuel + 1) ⟨c :: rest, o⟩
      = (readText start fuel ⟨rest, o + 1⟩).map (consCode c.toNat) := by
  rw [readText]
  split
  · next heq => cases heq
  · next heq => exact absurd (List.cons.inj heq).1 hq
  · next heq => exact absurd (List.cons.inj heq).1 hb
  · next heq => exact absurd (List.cons.inj heq).1 hb
  · next heq => exact absurd (List.cons.inj heq).1 hb
  · next heq =>
    cases heq
    rw [if_neg (by omega)]
    rfl

/-- The code points that an escape of one letter stands for, with the letters. -/
def shortEscapes : List (Nat × Char) :=
  [(0x22, '"'), (0x5C, '\\'), (0x0A, 'n'), (0x0D, 'r'), (0x09, 't'), (0x0C, 'f'), (0x08, 'b')]

theorem escapeCode_short : ∀ e ∈ shortEscapes,
    escapeCode e.1 = ['\\', e.2] ∧ escapeOf? e.2 = some e.1 := by
  decide

theorem escapeCode_long {n : Nat} (h : n ∉ shortEscapes.map (·.1)) :
    escapeCode n =
      if 0x20 ≤ n && n ≤ 0x7E then [Char.ofNat n]
      else if n < 0x10000 then escapeUnit n
      else escapeUnit (0xD800 + (n - 0x10000) / 0x400)
        ++ escapeUnit (0xDC00 + (n - 0x10000) % 0x400) := by
  simp only [shortEscapes, List.map_cons, List.map_nil, List.mem_cons, List.not_mem_nil, or_false,
    not_or] at h
  obtain ⟨h1, h2, h3, h4, h5, h6, h7⟩ := h
  rw [escapeCode, if_neg h1, if_neg h2, if_neg h3, if_neg h4, if_neg h5, if_neg h6, if_neg h7]

/-- The halves into which a code point beyond the first plane is split. -/
theorem pair_halves {n : Nat} (h : n < 0x110000) :
    isHigh (0xD800 + (n - 0x10000) / 0x400) = true
      ∧ isLow (0xDC00 + (n - 0x10000) % 0x400) = true := by
  simp only [isHigh, isLow, Bool.and_eq_true, decide_eq_true_iff]
  omega

/-- **A code point is read from what it is written as.** -/
theorem readText_escapeCode {n : Nat} (h : n < 0x110000) {rest : List Char} (hne : rest ≠ [])
    (hnext : isHigh n = true → NoLowNext rest) :
    ∃ o', readText start (fuel + 1) ⟨escapeCode n ++ rest, o⟩
      = (readText start fuel ⟨rest, o'⟩).map (consCode n) := by
  by_cases hshort : n ∈ shortEscapes.map (·.1)
  · obtain ⟨⟨_, c⟩, he, rfl⟩ := List.mem_map.mp hshort
    obtain ⟨hwrite, hread⟩ := escapeCode_short _ he
    rw [hwrite]
    exact ⟨o + 2, readText_escape start fuel o hread rest⟩
  rw [escapeCode_long hshort]
  by_cases hplain : (0x20 ≤ n && n ≤ 0x7E) = true
  · rw [if_pos hplain]
    rw [Bool.and_eq_true, decide_eq_true_iff, decide_eq_true_iff] at hplain
    have hn : (Char.ofNat n).toNat = n := toNat_ofNat_of_lt (by omega)
    have hchar : ∀ c : Char, c.toNat ∈ shortEscapes.map (·.1) → Char.ofNat n ≠ c := by
      rintro c hc rfl
      exact hshort (hn ▸ hc)
    refine ⟨o + 1, ?_⟩
    rw [List.singleton_append, readText_plain start fuel o (hchar '"' (by decide))
      (hchar '\\' (by decide)) (by omega), hn]
  rw [if_neg hplain]
  by_cases hone : n < 0x10000
  · rw [if_pos hone]
    exact ⟨o + 6, readText_unit start fuel o (readUnit_single hone hne hnext (o + 1))⟩
  · have hpair := readUnit_pair (pair_halves h).1 (pair_halves h).2 hne (o + 1)
    rw [show 0x10000 + (0xD800 + (n - 0x10000) / 0x400 - 0xD800) * 0x400
      + (0xDC00 + (n - 0x10000) % 0x400 - 0xDC00) = n by omega] at hpair
    rw [if_neg hone, escapeUnit, escapeUnit, List.append_assoc]
    exact ⟨o + 12, readText_unit start fuel o hpair⟩

theorem unit?_escapeUnit {n : Nat} (h : n < 0x10000) {rest more : List Char}
    (heq : escapeUnit n ++ rest = '\\' :: 'u' :: more) : unit? (more.take 4) = some n := by
  have hmore : hexDigits hexChar 4 n ++ rest = more := (List.cons.inj (List.cons.inj heq).2).2
  rw [← hmore, take_hexDigits, unit?_hexDigits h]

/-- What a text goes on with after a half pair does not complete the pair. -/
theorem noLowNext_of_spellable {s : CodePoints} (hs : Spellable s)
    (hlow : ∀ m ∈ s.head?, isLow m = false) (rest : List Char) :
    NoLowNext (s.flatMap escapeCode ++ '"' :: rest) := by
  intro more heq
  cases s with
  | nil => cases heq
  | cons m s =>
    rw [List.flatMap_cons, List.append_assoc] at heq
    have hm := hs.1
    by_cases hshort : m ∈ shortEscapes.map (·.1)
    · obtain ⟨⟨_, c⟩, he, rfl⟩ := List.mem_map.mp hshort
      have hc : ∀ e ∈ shortEscapes, e.2 ≠ 'u' := by decide
      rw [(escapeCode_short _ he).1] at heq
      exact absurd (List.cons.inj (List.cons.inj heq).2).1 (hc _ he)
    rw [escapeCode_long hshort] at heq
    by_cases hplain : (0x20 ≤ m && m ≤ 0x7E) = true
    · rw [if_pos hplain] at heq
      have hchar := (List.cons.inj heq).1
      rw [Bool.and_eq_true, decide_eq_true_iff, decide_eq_true_iff] at hplain
      have hm' : (Char.ofNat m).toNat = m := toNat_ofNat_of_lt (by omega)
      rw [hchar] at hm'
      exact absurd (hm' ▸ (by decide : '\\'.toNat ∈ shortEscapes.map (·.1))) hshort
    rw [if_neg hplain] at heq
    by_cases hone : m < 0x10000
    · rw [if_pos hone] at heq
      exact ⟨m, unit?_escapeUnit hone heq, hlow m rfl⟩
    · rw [if_neg hone, List.append_assoc] at heq
      refine ⟨_, unit?_escapeUnit (by omega) heq, ?_⟩
      rw [isLow, Bool.and_eq_false_iff, decide_eq_false_iff_not, decide_eq_false_iff_not]
      omega

/-- **A text is read from what it is written as.** -/
theorem readText_writeText {s : CodePoints} (hs : Spellable s) (rest : List Char)
    (hfuel : s.length < fuel) :
    Reads (readText start fuel) (s.flatMap escapeCode ++ '"' :: rest) s rest := by
  intro o
  induction s generalizing fuel o with
  | nil =>
    obtain ⟨fuel, rfl⟩ := Nat.exists_eq_add_one_of_ne_zero (Nat.ne_zero_of_lt hfuel)
    exact ⟨o + 1, by rw [List.flatMap_nil, List.nil_append, readText]; rfl⟩
  | cons n s ih =>
    obtain ⟨fuel, rfl⟩ := Nat.exists_eq_add_one_of_ne_zero (Nat.ne_zero_of_lt hfuel)
    obtain ⟨hn, hpair, hs⟩ := hs
    rw [List.flatMap_cons, List.append_assoc]
    obtain ⟨o₁, hhead⟩ := readText_escapeCode start fuel o hn (List.append_ne_nil_of_right_ne_nil
      (s.flatMap escapeCode) (List.cons_ne_nil '"' rest))
      fun hhigh => noLowNext_of_spellable hs (hpair hhigh) rest
    obtain ⟨o₂, htail⟩ := ih fuel hs (Nat.lt_of_succ_lt_succ hfuel) o₁
    exact ⟨o₂, by rw [hhead, htail]; rfl⟩

/-! ### Whole numbers -/

/-- What may follow a value inside a document. -/
def Ends (rest : List Char) : Prop := ∀ c ∈ rest.head?, c = ',' ∨ c = ']' ∨ c = '\x7d'

variable {rest : List Char}

theorem digitsHere_of_ends (h : Ends rest) : digitsHere rest = [] := by
  cases rest with
  | nil => rfl
  | cons c cs => rcases h c rfl with rfl | rfl | rfl <;> rfl

theorem fractionHere_of_ends (h : Ends rest) : fractionHere rest = [] := by
  cases rest with
  | nil => rfl
  | cons c cs => rcases h c rfl with rfl | rfl | rfl <;> rfl

theorem exponentHere?_of_ends (h : Ends rest) : exponentHere? rest = none := by
  cases rest with
  | nil => rfl
  | cons c cs => rcases h c rfl with rfl | rfl | rfl <;> rfl

theorem digitsHere_decimalDigits (n : Nat) (h : Ends rest) :
    digitsHere (decimalDigits n ++ rest) = decimalDigits n := by
  rw [digitsHere, List.takeWhile_append_of_pos fun _ => isDigit_of_mem_decimalDigits]
  rw [show rest.takeWhile Char.isDigit = [] from digitsHere_of_ends h, List.append_nil]

/-- The digits of a number start with a zero only where the zero is all of them. -/
theorem decimalDigits_of_zero {n : Nat} {tail : List Char}
    (h : decimalDigits n ++ rest = '0' :: tail) : ['0'] = decimalDigits n := by
  cases hd : decimalDigits n with
  | nil => exact absurd hd (decimalDigits_ne_nil n)
  | cons d ds =>
    rw [hd] at h
    obtain ⟨rfl, -⟩ := List.cons.inj h
    rw [← hd, decimalDigits_head hd]
    rfl

theorem head?_decimalDigits (n : Nat) (rest : List Char) :
    ∃ c cs, decimalDigits n ++ rest = c :: cs ∧ c.isDigit = true := by
  cases hd : decimalDigits n with
  | nil => exact absurd hd (decimalDigits_ne_nil n)
  | cons d ds =>
    exact ⟨d, ds ++ rest, rfl, isDigit_of_mem_decimalDigits (n := n) (hd ▸ List.mem_cons_self)⟩

theorem readNumber_write {i : Int} (hi : (decimalDigits i.natAbs).length ≤ digitLimit)
    (h : Ends rest) : Reads readNumber (write (.int i) ++ rest) (.int i) rest := by
  intro o
  have hempty : (decimalDigits i.natAbs).isEmpty = false :=
    List.isEmpty_eq_false_iff.mpr (decimalDigits_ne_nil _)
  have hdrop : (decimalDigits i.natAbs ++ rest).drop (decimalDigits i.natAbs).length = rest :=
    List.drop_left
  unfold readNumber
  rw [write]
  by_cases hneg : i < 0
  · refine ⟨o + ((decimalDigits i.natAbs).length + 1), ?_⟩
    simp only [if_pos hneg, List.cons_append, List.head?_cons, if_true, Place.skip,
      List.drop_succ_cons, List.drop_zero, decide_true]
    split
    case' h_1 heq => rw [decimalDigits_of_zero heq]
    case' h_2 => rw [digitsHere_decimalDigits _ h]
    all_goals
      simp only [hempty, hdrop, fractionHere_of_ends h, exponentHere?_of_ends h, List.isEmpty_nil,
        Option.isNone_none, Bool.and_self, List.append_nil, ofDigits_decimalDigits,
        if_neg (Nat.not_lt.mpr hi), Bool.false_eq_true, if_false, if_true, Nat.add_zero,
        Nat.add_comm 1, List.drop_succ_cons]
      rw [show -(i.natAbs : Int) = i by omega]
  · refine ⟨o + (decimalDigits i.natAbs).length, ?_⟩
    obtain ⟨c, cs, hcs, hc⟩ := head?_decimalDigits i.natAbs rest
    have hminus : ((decimalDigits i.natAbs ++ rest).head? = some '-') = False := by
      rw [hcs]
      exact eq_false fun heq => by cases heq; cases hc
    simp only [if_neg hneg, hminus, decide_false, if_false, Place.skip]
    split
    case' h_1 heq => rw [decimalDigits_of_zero heq]
    case' h_2 => rw [digitsHere_decimalDigits _ h]
    all_goals
      simp only [hempty, hdrop, fractionHere_of_ends h, exponentHere?_of_ends h, List.isEmpty_nil,
        Option.isNone_none, Bool.and_self, List.append_nil, ofDigits_decimalDigits,
        if_neg (Nat.not_lt.mpr hi), Bool.false_eq_true, if_false, if_true, Nat.add_zero,
        Nat.zero_add]
      rw [show (i.natAbs : Int) = i by omega]

/-! ### Words -/

theorem wordHere?_digit {c : Char} (hc : c.isDigit = true) (cs : List Char) :
    wordHere? (c :: cs) = none := by
  have hne : ∀ d : Char, d.isDigit = false → d ≠ c := fun d hd heq => by
    rw [heq, hc] at hd
    cases hd
  simp [wordHere?, startsWith, stripStart?, hne 'n' rfl, hne 't' rfl, hne 'f' rfl, hne 'N' rfl,
    hne 'I' rfl, hne '-' rfl]

theorem wordHere?_minus_digit {c : Char} (hc : c.isDigit = true) (cs : List Char) :
    wordHere? ('-' :: c :: cs) = none := by
  have hne : 'I' ≠ c := fun heq => by
    rw [← heq] at hc
    cases hc
  simp [wordHere?, startsWith, stripStart?, hne]

/-! ### Values -/

/-- What the first character of a value looks like when it is written. -/
def Opens (c : Char) : Prop :=
  (c = ' ' || c = '\t' || c = '\n' || c = '\r') = false ∧ c ≠ ']' ∧ c.toNat < 0x80

instance (c : Char) : Decidable (Opens c) := inferInstanceAs (Decidable (_ ∧ _ ∧ _))

theorem opens_of_isDigit {c : Char} (h : c.isDigit = true) : Opens c := by
  have hc : 48 ≤ c.toNat ∧ c.toNat ≤ 57 := Char.isDigit_iff_toNat.mp h
  have hne : ∀ d : Char, d.toNat < 48 ∨ 57 < d.toNat → c ≠ d := by
    rintro d hd rfl
    omega
  simp [Opens, hne ' ' (by decide), hne '\t' (by decide), hne '\n' (by decide),
    hne '\r' (by decide), hne ']' (by decide)]
  omega

theorem head_write {v : Json} (hv : Exact v) : ∃ c cs, v.write = c :: cs ∧ Opens c := by
  cases v with
  | null => exact ⟨_, _, rfl, by decide⟩
  | bool b => cases b <;> exact ⟨_, _, rfl, by decide⟩
  | int i =>
    rw [write]
    split
    · exact ⟨_, _, rfl, by decide⟩
    · obtain ⟨c, cs, hcs, hc⟩ := head?_decimalDigits i.natAbs []
      exact ⟨c, cs, by rw [← hcs, List.append_nil], opens_of_isDigit hc⟩
  | float x => exact nomatch (show true = false from hv.2)
  | text s => exact ⟨_, _, rfl, by decide⟩
  | list vs => exact ⟨_, _, rfl, by decide⟩
  | object es => exact ⟨_, _, rfl, by decide⟩

theorem skipBlanks_opens {c : Char} (h : Opens c) (cs : List Char) (o : Nat) :
    Place.skipBlanks ⟨c :: cs, o⟩ = ⟨c :: cs, o⟩ := by
  rw [Place.skipBlanks, List.takeWhile_cons_of_neg (by rw [h.1]; decide)]
  rfl

theorem skipBlanks_space {c : Char} (h : Opens c) (cs : List Char) (o : Nat) :
    Place.skipBlanks ⟨' ' :: c :: cs, o⟩ = ⟨c :: cs, o + 1⟩ := by
  rw [Place.skipBlanks, List.takeWhile_cons_of_pos (by decide),
    List.takeWhile_cons_of_neg (by rw [h.1]; decide)]
  rfl

/-- A value that is neither a text nor has parts is a word or a number. -/
theorem readValue_bare {c : Char} (hq : c ≠ '"') (hl : c ≠ '[') (ho : c ≠ '\x7b') (cs : List Char)
    (fuel o : Nat) :
    readValue (fuel + 1) ⟨c :: cs, o⟩ =
      match wordHere? (c :: cs) with
      | some (v, n) => .ok (v, Place.skip n ⟨c :: cs, o⟩)
      | none => readNumber ⟨c :: cs, o⟩ := by
  rw [readValue]
  split
  · next heq => exact absurd (List.cons.inj heq).1 hq
  · next heq => exact absurd (List.cons.inj heq).1 hl
  · next heq => exact absurd (List.cons.inj heq).1 ho
  · rfl

theorem readValue_int {i : Int} (hi : (decimalDigits i.natAbs).length ≤ digitLimit)
    (h : Ends rest) (fuel : Nat) :
    Reads (readValue (fuel + 1)) (write (.int i) ++ rest) (.int i) rest := by
  intro o
  obtain ⟨o', hread⟩ := readNumber_write hi h o
  refine ⟨o', ?_⟩
  rw [← hread]
  obtain ⟨c, cs, hcs, hc⟩ := head?_decimalDigits i.natAbs rest
  have hne : ∀ d : Char, d.isDigit = false → c ≠ d := fun d hd heq => by
    rw [heq, hd] at hc
    cases hc
  rw [write]
  split
  · rw [List.cons_append, hcs, readValue_bare (by decide) (by decide) (by decide),
      wordHere?_minus_digit hc]
  · rw [hcs, readValue_bare (hne _ rfl) (hne _ rfl) (hne _ rfl), wordHere?_digit hc]

theorem writeText_append (s : CodePoints) (rest : List Char) :
    writeText s ++ rest = '"' :: (s.flatMap escapeCode ++ '"' :: rest) := by
  rw [writeText, List.cons_append, List.cons_append, List.append_assoc, List.singleton_append]

theorem length_le_flatMap_escapeCode (s : CodePoints) :
    s.length ≤ (s.flatMap escapeCode).length := by
  induction s with
  | nil => exact Nat.le_refl 0
  | cons n s ih =>
    have hpos : 0 < (escapeCode n).length := by
      unfold escapeCode escapeUnit
      grind
    rw [List.flatMap_cons, List.length_append, List.length_cons]
    omega

theorem readText_quoted {s : CodePoints} (hs : Spellable s) (rest : List Char) (start : Nat) :
    Reads (readText start ((writeText s ++ rest).length + 1)) (s.flatMap escapeCode ++ '"' :: rest)
      s rest := by
  have hlen := length_le_flatMap_escapeCode s
  refine readText_writeText start _ hs rest ?_
  simp only [writeText, List.cons_append, List.length_append, List.length_cons]
  omega

theorem readValue_text {s : CodePoints} (hs : Spellable s) (rest : List Char) (fuel : Nat) :
    Reads (readValue (fuel + 1)) (write (.text s) ++ rest) (.text s) rest := by
  intro o
  obtain ⟨o', hread⟩ := readText_quoted hs rest o (o + 1)
  refine ⟨o', ?_⟩
  rw [writeText_append] at hread
  rw [write, writeText_append, readValue]
  show Except.map _ (readText o _ ⟨s.flatMap escapeCode ++ '"' :: rest, o + 1⟩) = _
  rw [hread]
  rfl

/-! ### Lists -/

variable {fuel : Nat} {cs ds : List Char} {v : Json}

theorem readItems_last (h : Reads (readValue fuel) cs v (']' :: rest)) :
    Reads (readItems (fuel + 1)) cs [v] rest := by
  intro o
  obtain ⟨o₁, hread⟩ := h o
  refine ⟨o₁ + 1, ?_⟩
  rw [readItems, hread]
  rfl

theorem readItems_more {c : Char} (hc : Opens c) {vs : List Json}
    (h : Reads (readValue fuel) cs v (',' :: ' ' :: c :: ds))
    (hs : Reads (readItems fuel) (c :: ds) vs rest) :
    Reads (readItems (fuel + 1)) cs (v :: vs) rest := by
  intro o
  obtain ⟨o₁, hread⟩ := h o
  obtain ⟨o₂, hreads⟩ := hs (o₁ + 1 + 1)
  refine ⟨o₂, ?_⟩
  rw [readItems, hread]
  show (readItems fuel (Place.skipBlanks ⟨' ' :: c :: ds, o₁ + 1⟩)).bind _ = _
  rw [skipBlanks_space hc, hreads]
  rfl

/-! ### Objects -/

variable {k : CodePoints} {done es : List (CodePoints × Json)} {c : Char} {tail : List Char}

/-- What comes after an entry: the end of the object, or the next entry. -/
def afterEntry (fuel : Nat) (done : List (CodePoints × Json)) (q : Place) :
    Except Fault (List (CodePoints × Json) × Place) :=
  match q.rest with
  | '\x7d' :: _ => .ok (done, q.skip 1)
  | ',' :: _ => readEntries fuel done (q.skip 1).skipBlanks
  | _ => q.fail .comma

theorem readEntries_entry (done : List (List Nat × Json)) (hk : Spellable k) (hc : Opens c)
    (h : Reads (readValue fuel) (c :: cs) v tail) (o : Nat) :
    ∃ o', readEntries (fuel + 1) done ⟨writeText k ++ ':' :: ' ' :: c :: cs, o⟩
      = afterEntry fuel (put k v done) (Place.skipBlanks ⟨tail, o'⟩) := by
  obtain ⟨o₁, hkey⟩ := readText_quoted hk (':' :: ' ' :: c :: cs) o (o + 1)
  obtain ⟨o₂, hread⟩ := h (o₁ + 1 + 1)
  refine ⟨o₂, ?_⟩
  rw [writeText_append] at hkey ⊢
  rw [readEntries]
  show (readText o _ ⟨k.flatMap escapeCode ++ '"' :: ':' :: ' ' :: c :: cs, o + 1⟩).bind _ = _
  rw [hkey]
  show (readValue fuel (Place.skipBlanks ⟨' ' :: c :: cs, o₁ + 1⟩)).bind _ = _
  rw [skipBlanks_space hc, hread]
  rfl

theorem readEntries_last (hk : Spellable k) (hc : Opens c)
    (h : Reads (readValue fuel) (c :: cs) v ('\x7d' :: rest)) :
    Reads (readEntries (fuel + 1) done) (writeText k ++ ':' :: ' ' :: c :: cs)
      (put k v done) rest := by
  intro o
  obtain ⟨o₁, hentry⟩ := readEntries_entry done hk hc h o
  exact ⟨o₁ + 1, by rw [hentry]; rfl⟩

theorem readEntries_more (hk : Spellable k) (hc : Opens c)
    (h : Reads (readValue fuel) (c :: cs) v (',' :: ' ' :: '"' :: ds))
    (hs : Reads (readEntries fuel (put k v done)) ('"' :: ds) es rest) :
    Reads (readEntries (fuel + 1) done) (writeText k ++ ':' :: ' ' :: c :: cs) es rest := by
  intro o
  obtain ⟨o₁, hentry⟩ := readEntries_entry done hk hc h o
  obtain ⟨o₂, hreads⟩ := hs (o₁ + 1 + 1)
  refine ⟨o₂, ?_⟩
  rw [hentry]
  show readEntries fuel (put k v done) (Place.skipBlanks ⟨' ' :: '"' :: ds, o₁ + 1⟩) = _
  rw [skipBlanks_space (by decide), hreads]

/-! ### Documents -/

theorem readValue_list {vs : List Json} (hc : Opens c)
    (h : Reads (readItems fuel) (c :: cs) vs rest) :
    Reads (readValue (fuel + 1)) ('[' :: c :: cs) (.list vs) rest := by
  intro o
  obtain ⟨o₁, hread⟩ := h (o + 1)
  refine ⟨o₁, ?_⟩
  have hstart : (Place.skip 1 ⟨'[' :: c :: cs, o⟩).skipBlanks = ⟨c :: cs, o + 1⟩ :=
    skipBlanks_opens hc cs (o + 1)
  rw [readValue]
  simp only [hstart]
  rw [hread]
  split
  · next heq => exact absurd (List.cons.inj heq).1 hc.2.1
  · rfl

theorem readValue_object (h : Reads (readEntries fuel []) ('"' :: cs) es rest) :
    Reads (readValue (fuel + 1)) ('\x7b' :: '"' :: cs) (.object es) rest := by
  intro o
  obtain ⟨o₁, hread⟩ := h (o + 1)
  refine ⟨o₁, ?_⟩
  rw [readValue]
  show Except.map _ (readEntries fuel [] (Place.skipBlanks ⟨'"' :: cs, o + 1⟩)) = _
  rw [skipBlanks_opens (by decide), hread]
  rfl

theorem head_commaSeparated {p : List Char} (h : p = c :: cs) (ps : List (List Char)) :
    ∃ ds, commaSeparated (p :: ps) = c :: ds := by
  subst h
  cases ps with
  | nil => exact ⟨cs, rfl⟩
  | cons q ps => exact ⟨_, rfl⟩

/-- The members of a list after the first one follow a comma. -/
theorem commaSeparated_items (v w : Json) (vs : List Json) :
    commaSeparated (writeItems (v :: w :: vs))
      = v.write ++ ',' :: ' ' :: commaSeparated (writeItems (w :: vs)) := rfl

theorem commaSeparated_entry (k : CodePoints) (v : Json) :
    commaSeparated (writeEntries [(k, v)]) = writeText k ++ ':' :: ' ' :: v.write := rfl

/-- The entries of an object after the first one follow a comma. -/
theorem commaSeparated_entries (k : CodePoints) (v : Json) (e : CodePoints × Json)
    (es : List (CodePoints × Json)) :
    commaSeparated (writeEntries ((k, v) :: e :: es))
      = writeText k ++ ':' :: ' ' :: (v.write
        ++ ',' :: ' ' :: commaSeparated (writeEntries (e :: es))) := by
  show (writeText k ++ ':' :: ' ' :: v.write) ++ _ = _
  rw [List.append_assoc]
  rfl

/-- The entries of an object start with the quote of the first key. -/
theorem head_writeEntries (e : CodePoints × Json) (es : List (CodePoints × Json)) :
    ∃ ds, commaSeparated (writeEntries (e :: es)) = '"' :: ds :=
  head_commaSeparated (p := writeText e.1 ++ ':' :: ' ' :: e.2.write) rfl _

theorem ends_comma (rest : List Char) : Ends (',' :: rest) := fun _ h => .inl (Option.mem_some.mp h).symm

theorem ends_bracket (rest : List Char) : Ends (']' :: rest) :=
  fun _ h => .inr (.inl (Option.mem_some.mp h).symm)

theorem ends_brace (rest : List Char) : Ends ('\x7d' :: rest) :=
  fun _ h => .inr (.inr (Option.mem_some.mp h).symm)

/-- Distinct keys are put one after the other. -/
theorem put_append (hnodup : (keys done ++ k :: keys es).Nodup) :
    put k v done = done ++ [(k, v)] :=
  put_of_notMem fun hmem => (List.nodup_append.mp hnodup).2.2 k hmem k List.mem_cons_self rfl

mutual

/-- **A value is read as it is written**, with twice as many steps as it has characters. -/
theorem readValue_write : ∀ (v : Json) (fuel : Nat) (rest : List Char), Exact v → Ends rest →
    2 * v.write.length ≤ fuel → Reads (readValue fuel) (v.write ++ rest) v rest
  | v, 0, rest, hv, _, hfuel => by
    obtain ⟨c, cs, hcs, -⟩ := head_write hv
    rw [hcs, List.length_cons] at hfuel
    omega
  | .null, fuel + 1, rest, _, _, _ => fun o => ⟨o + 4, readValue_bare (by decide) (by decide)
      (by decide) _ _ _⟩
  | .bool true, fuel + 1, rest, _, _, _ => fun o => ⟨o + 4, readValue_bare (by decide) (by decide)
      (by decide) _ _ _⟩
  | .bool false, fuel + 1, rest, _, _, _ => fun o => ⟨o + 5, readValue_bare (by decide) (by decide)
      (by decide) _ _ _⟩
  | .int i, fuel + 1, rest, hv, hrest, _ => readValue_int hv.1 hrest fuel
  | .float x, fuel + 1, rest, hv, _, _ => nomatch (show true = false from hv.2)
  | .text s, fuel + 1, rest, hv, _, _ => readValue_text hv.1 rest fuel
  | .list [], fuel + 1, rest, _, _, _ => fun o => ⟨o + 2, by rw [readValue]; rfl⟩
  | .list (v :: vs), fuel + 1, rest, hv, _, hfuel => by
    rw [exact_list_iff] at hv
    obtain ⟨c, cs, hcs, hc⟩ := head_write (hv v List.mem_cons_self)
    obtain ⟨ds, hds⟩ := head_commaSeparated hcs (writeItems vs)
    have hitems := readItems_write (v :: vs) fuel rest (List.cons_ne_nil v vs) hv (by
      rw [write, List.length_append, List.length_cons] at hfuel
      omega)
    rw [write, List.append_assoc, List.singleton_append, List.cons_append]
    rw [writeItems, hds] at hitems ⊢
    exact readValue_list hc hitems
  | .object [], fuel + 1, rest, _, _, _ => fun o => ⟨o + 2, by rw [readValue]; rfl⟩
  | .object (e :: es), fuel + 1, rest, hv, _, hfuel => by
    rw [exact_object_iff] at hv
    obtain ⟨ds, hds⟩ := head_writeEntries e es
    have hentries := readEntries_write (e :: es) fuel [] rest (List.cons_ne_nil e es) hv.1 hv.2 (by
      rw [write, List.length_append, List.length_cons] at hfuel
      omega)
    rw [write, List.append_assoc, List.singleton_append, List.cons_append]
    rw [hds] at hentries ⊢
    exact readValue_object hentries

theorem readItems_write : ∀ (vs : List Json) (fuel : Nat) (rest : List Char), vs ≠ [] →
    (∀ v ∈ vs, Exact v) → 2 * (commaSeparated (writeItems vs)).length < fuel →
    Reads (readItems fuel) (commaSeparated (writeItems vs) ++ ']' :: rest) vs rest
  | [], _, _, h, _, _ => absurd rfl h
  | _, 0, _, _, _, h => absurd h (Nat.not_lt_zero _)
  | [v], fuel + 1, rest, _, hv, hfuel => by
    have hlen : 2 * v.write.length < fuel + 1 := hfuel
    exact readItems_last (readValue_write v fuel (']' :: rest) (hv v List.mem_cons_self)
      (ends_bracket rest) (by omega))
  | v :: w :: vs, fuel + 1, rest, _, hv, hfuel => by
    have hvs : ∀ u ∈ w :: vs, Exact u := fun u hu => hv u (List.mem_cons_of_mem _ hu)
    obtain ⟨c, cs, hcs, hc⟩ := head_write (hvs w List.mem_cons_self)
    obtain ⟨ds, hds⟩ := head_commaSeparated hcs (writeItems vs)
    rw [commaSeparated_items] at hfuel ⊢
    rw [List.length_append, List.length_cons, List.length_cons] at hfuel
    have hitems := readItems_write (w :: vs) fuel rest (List.cons_ne_nil w vs) hvs (by omega)
    rw [List.append_assoc, List.cons_append, List.cons_append]
    rw [writeItems, hds, List.cons_append] at hitems ⊢
    exact readItems_more hc (readValue_write v fuel _ (hv v List.mem_cons_self) (ends_comma _)
      (by omega)) hitems

theorem readEntries_write : ∀ (es : List (CodePoints × Json)) (fuel : Nat)
    (done : List (CodePoints × Json)) (rest : List Char), es ≠ [] →
    (keys done ++ keys es).Nodup → (∀ e ∈ es, Spellable e.1 ∧ Exact e.2) →
    2 * (commaSeparated (writeEntries es)).length < fuel →
    Reads (readEntries fuel done) (commaSeparated (writeEntries es) ++ '\x7d' :: rest) (done ++ es)
      rest
  | [], _, _, _, h, _, _, _ => absurd rfl h
  | _, 0, _, _, _, _, _, h => absurd h (Nat.not_lt_zero _)
  | [(k, v)], fuel + 1, done, rest, _, hnodup, hes, hfuel => by
    obtain ⟨hk, hv⟩ := hes (k, v) List.mem_cons_self
    obtain ⟨c, cs, hcs, hc⟩ := head_write hv
    rw [commaSeparated_entry] at hfuel ⊢
    rw [List.length_append, List.length_cons, List.length_cons] at hfuel
    have hvalue := readValue_write v fuel _ hv (ends_brace rest) (by omega)
    rw [List.append_assoc, List.cons_append, List.cons_append, ← put_append hnodup]
    rw [hcs, List.cons_append] at hvalue ⊢
    exact readEntries_last hk hc hvalue
  | (k, v) :: e :: es, fuel + 1, done, rest, _, hnodup, hes, hfuel => by
    obtain ⟨hk, hv⟩ := hes (k, v) List.mem_cons_self
    obtain ⟨c, cs, hcs, hc⟩ := head_write hv
    obtain ⟨ds, hds⟩ := head_writeEntries e es
    have hdone : keys (put k v done) ++ keys (e :: es) = keys done ++ keys ((k, v) :: e :: es) := by
      rw [put_append hnodup, keys, keys, keys, keys, List.map_append, List.append_assoc]
      rfl
    have happend : put k v done ++ e :: es = done ++ (k, v) :: e :: es := by
      rw [put_append hnodup, List.append_assoc, List.singleton_append]
    rw [commaSeparated_entries] at hfuel ⊢
    rw [List.length_append, List.length_cons, List.length_cons, List.length_append,
      List.length_cons, List.length_cons] at hfuel
    have hentries := readEntries_write (e :: es) fuel (put k v done) rest (List.cons_ne_nil e es)
      (hdone ▸ hnodup) (fun e he => hes e (List.mem_cons_of_mem _ he)) (by omega)
    have hvalue := readValue_write v fuel
      (',' :: ' ' :: (commaSeparated (writeEntries (e :: es)) ++ '\x7d' :: rest)) hv (ends_comma _)
      (by omega)
    rw [List.append_assoc, List.cons_append, List.cons_append, List.append_assoc, List.cons_append,
      List.cons_append]
    rw [hds, List.cons_append] at hentries hvalue ⊢
    rw [hcs, List.cons_append] at hvalue ⊢
    exact readEntries_more hk hc hvalue (happend ▸ hentries)

end

/-- **A document is read as it is written.** -/
theorem parse_render {v : Json} (hv : Exact v) : parse v.render = .ok v := by
  obtain ⟨c, cs, hcs, hc⟩ := head_write hv
  obtain ⟨o, hread⟩ := readValue_write v (2 * v.write.length + 2) [] hv
    (fun c h => nomatch h) (by omega) 0
  have hmark : v.write.head? ≠ some (Char.ofNat 0xFEFF) := by
    rw [hcs]
    intro heq
    cases heq
    exact absurd hc.2.2 (by decide)
  have hblanks : Place.skipBlanks ⟨v.write, 0⟩ = ⟨v.write, 0⟩ := by
    rw [hcs, skipBlanks_opens hc]
  rw [List.append_nil] at hread
  rw [parse, render, String.toList_ofList, if_neg hmark, hblanks]
  show (readValue (2 * v.write.length + 2) ⟨v.write, 0⟩).bind _ = _
  rw [hread]
  rfl

end SecretForge.Json
