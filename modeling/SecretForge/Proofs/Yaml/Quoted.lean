import SecretForge.Proofs.Text.Digit
import SecretForge.Proofs.Yaml.Cursor
import SecretForge.Yaml.Render
import SecretForge.Yaml.Token.Scalar

/-!
# Quoted texts are read as they are written

Reading goes over a quoted text in chunks: the longest run of ordinary characters, a run of spaces, a
run of line breaks with the indentation after it, or one escape.  Writing goes over it character by
character.  `Spells` says what a written text is read as, with any number of steps that suffices; its
lemmas put one character, one run of line breaks or one escape in front.

* `spells_single` — single quotes: a run of line breaks is written with one more, and a single space may
  become a line break.
* `spells_double` — double quotes: every line break is an escape, and an escaped line break inside the
  text stands for nothing.
* **`quotedScalar_single`**, **`quotedScalar_double`** — the text between its quotes.
-/

namespace SecretForge.Yaml

open SecretForge.Text Cursor Render

/-- A chunk in front of what a text goes on with. -/
def prepend (part : List Char) (r : List Char × Cursor) : List Char × Cursor := (part ++ r.1, r.2)

/-- Reading at `c` inside quotes yields `cs` and ends at `last`, however many steps it is given beyond
one for each character. -/
def QuotedReads (double : Bool) (c : Cursor) (cs : List Char) (last : Cursor) : Prop :=
  ∀ fuel, c.rest.length < fuel → quotedRest double fuel c = .ok (cs, last)

/-- What is written spells `cs` up to the closing quote, when `behind` stands after it. -/
def Spells (double : Bool) (behind written cs : List Char) : Prop :=
  ∀ c : Cursor, c.rest = written ++ behind → QuotedReads double c cs (c.skip written.length)

section

variable {double : Bool} {fuel : Nat} {c next last : Cursor} {ch : Char}
  {part cs r behind written : List Char}

theorem isQuotedPlain_inline (h : isInline ch = true) (hs : ch ≠ ' ') (hq : ch ≠ '\'')
    (hd : ch ≠ '"') (hb : ch ≠ '\\') : isQuotedPlain ch = true := by
  rw [isQuotedPlain, isBlankOrEnd_inline h hs, decide_eq_false hq, decide_eq_false hd,
    decide_eq_false hb]
  rfl

/-! ### One step of reading -/

theorem quotedRest_plain (h : isQuotedPlain c.head = true) :
    quotedRest double (fuel + 1) c = (quotedRest double fuel (c.span isQuotedPlain).2).map
      (prepend (c.span isQuotedPlain).1) := by
  rw [quotedRest, if_pos h]
  rfl

theorem quotedRest_blanks (h : c.head = ' ' ∨ c.head = '\n') :
    quotedRest double (fuel + 1) c
      = (quotedBlanks c).bind fun p => (quotedRest double fuel p.2).map (prepend p.1) := by
  rcases h with h | h <;> cases double <;> rw [quotedRest, h] <;> rfl

theorem quotedRest_escape (h : c.head = '\\') :
    quotedRest true (fuel + 1) c
      = (escaped c.advance).bind fun p => (quotedRest true fuel p.2).map (prepend p.1) := by
  rw [quotedRest, h]
  rfl

/-- A quote of the other kind, and in single quotes a backslash, stands for itself. -/
theorem quotedRest_other (h : if double then c.head = '\'' else c.head = '"' ∨ c.head = '\\') :
    quotedRest double (fuel + 1) c = (quotedRest double fuel c.advance).map (prepend [c.head]) := by
  cases double with
  | false => rcases h with h | h <;> rw [quotedRest, h] <;> rfl
  | true =>
    rw [quotedRest, show c.head = '\'' from h]
    rfl

theorem quotedRest_doubled (h : c.head = '\'') (hp : c.peek 1 = '\'') :
    quotedRest false (fuel + 1) c = (quotedRest false fuel (c.skip 2)).map (prepend ['\'']) := by
  rw [quotedRest, h, hp]
  rfl

/-- Reading goes on after a chunk. -/
theorem QuotedReads.chunk (part : List Char) (hlen : next.rest.length < c.rest.length)
    (hstep : ∀ fuel, quotedRest double (fuel + 1) c
      = (quotedRest double fuel next).map (prepend part))
    (h : QuotedReads double next cs last) : QuotedReads double c (part ++ cs) last := by
  intro fuel hfuel
  obtain ⟨f, rfl⟩ : ∃ f, fuel = f + 1 := ⟨fuel - 1, by omega⟩
  rw [hstep, h f (by omega)]
  rfl

theorem length_advance_lt (hc : c.rest = ch :: r) : c.advance.rest.length < c.rest.length := by
  rw [advance_rest hc, hc, List.length_cons]
  exact Nat.lt_succ_self _

/-! ### One character -/

theorem spells_close (double : Bool) (hbehind : double = false → behind.head? ≠ some '\'') :
    Spells double behind [if double then '"' else '\''] [] := by
  intro c hc fuel hfuel
  obtain ⟨f, rfl⟩ : ∃ f, fuel = f + 1 := ⟨fuel - 1, by omega⟩
  cases double with
  | true => rw [quotedRest, head_of_rest hc]; rfl
  | false =>
    have hp : c.peek 1 ≠ '\'' := by
      rw [peek_one_of_rest hc]
      cases behind with
      | nil => decide
      | cons d r => exact fun h => hbehind rfl (by rw [show d = '\'' from h]; rfl)
    rw [quotedRest, head_of_rest hc, decide_eq_false hp]
    rfl

/-- An ordinary character in front: it joins the run that starts after it, if one does. -/
theorem Spells.plain (h : Spells double behind written cs) (hch : isQuotedPlain ch = true) :
    Spells double behind (ch :: written) (ch :: cs) := by
  intro c hc
  have hreads := h c.advance (advance_rest hc)
  have hhead : isQuotedPlain c.head = true := by rw [head_of_rest hc]; exact hch
  by_cases hjoin : isQuotedPlain c.advance.head = true
  · intro fuel hfuel
    obtain ⟨f, rfl⟩ : ∃ f, fuel = f + 1 := ⟨fuel - 1, by omega⟩
    have hnext := hreads (f + 1) (Nat.lt_trans (length_advance_lt hc) hfuel)
    rw [quotedRest_plain hjoin] at hnext
    have hspan : c.span isQuotedPlain
        = (ch :: (c.advance.span isQuotedPlain).1, (c.advance.span isQuotedPlain).2) := by
      simp only [span, hc, advance_rest hc, List.cons_append, List.takeWhile_cons_of_pos hch,
        List.length_cons]
      rfl
    rw [quotedRest_plain hhead, hspan]
    cases hrest : quotedRest double f (c.advance.span isQuotedPlain).2 with
    | error e => rw [hrest] at hnext; cases hnext
    | ok q =>
      rw [hrest] at hnext
      obtain ⟨hcs, hlast⟩ := Prod.mk.inj (Except.ok.inj hnext)
      exact congrArg Except.ok (Prod.ext (congrArg (ch :: ·) hcs) hlast)
  · have hspan : c.span isQuotedPlain = ([ch], c.advance) := by
      refine span_run (show c.rest = [ch] ++ (written ++ behind) from hc) (fun d hd => ?_) fun d more hd => ?_
      · rw [List.mem_singleton.mp hd]; exact hch
      · rw [← head_of_rest ((advance_rest hc).trans hd)]
        exact Bool.eq_false_iff.mpr hjoin
    refine QuotedReads.chunk [ch] (length_advance_lt hc) (fun fuel => ?_) hreads
    rw [quotedRest_plain hhead, hspan]

theorem Spells.other (h : Spells double behind written cs)
    (hch : if double then ch = '\'' else ch = '"' ∨ ch = '\\') :
    Spells double behind (ch :: written) (ch :: cs) := by
  intro c hc
  refine QuotedReads.chunk [ch] (length_advance_lt hc) (fun fuel => ?_)
    (h c.advance (advance_rest hc))
  rw [quotedRest_other (by rw [head_of_rest hc]; exact hch), head_of_rest hc]

theorem Spells.doubled (h : Spells false behind written cs) :
    Spells false behind ('\'' :: '\'' :: written) ('\'' :: cs) := by
  intro c hc
  have hlast : (c.skip 2).rest = written ++ behind := by rw [rest_skip, hc]; rfl
  refine QuotedReads.chunk ['\''] ?_ (fun fuel => quotedRest_doubled ?_ ?_)
    (h (c.skip 2) hlast)
  · rw [hlast, hc]
    exact Nat.lt_succ_of_lt (Nat.lt_succ_self _)
  · exact head_of_rest hc
  · exact peek_one_of_rest hc

/-! ### Blanks and line breaks -/

/-- After spaces, if any, a printable character comes on the same line. -/
def GoesOn (cs : List Char) : Prop :=
  ∃ n ch more, cs = List.replicate n ' ' ++ ch :: more ∧ isInline ch = true ∧ ch ≠ ' '

theorem goesOn_space (h : GoesOn r) : GoesOn (' ' :: r) := by
  obtain ⟨n, ch, more, rfl, hch⟩ := h
  exact ⟨n + 1, ch, more, rfl, hch⟩

theorem goesOn_cons (h : isInline ch = true) (hs : ch ≠ ' ') : GoesOn (ch :: r) :=
  ⟨0, ch, r, rfl, h, hs⟩

theorem isSpaceOrTab_inline (h : isInline ch = true) (hs : ch ≠ ' ') : isSpaceOrTab ch = false := by
  rw [isSpaceOrTab, decide_eq_false hs, decide_eq_false (isInline_ne h rfl)]
  rfl

theorem span_spaces {n : Nat} (hc : c.rest = List.replicate n ' ' ++ ch :: r)
    (h : isSpaceOrTab ch = false) :
    c.span isSpaceOrTab = (List.replicate n ' ', c.skip n) := by
  have hrun := span_run (p := isSpaceOrTab) hc
    (fun d hd => by rw [List.eq_of_mem_replicate hd]; rfl)
    (fun d more hd => by rw [← (List.cons.inj hd).1]; exact h)
  rwa [List.length_replicate] at hrun

theorem quotedBlanks_inside {n : Nat} (hc : c.rest = List.replicate n ' ' ++ ch :: r)
    (h : isInline ch = true) (hs : ch ≠ ' ') :
    quotedBlanks c = .ok (List.replicate n ' ', c.skip n) := by
  have hlast : (c.skip n).rest = ch :: r := by
    rw [rest_skip, hc]
    exact List.drop_left' List.length_replicate
  unfold quotedBlanks
  simp only [span_spaces hc (isSpaceOrTab_inline h hs), hlast,
    takeBreak?_none (show isBreak (c.skip n).head = false by
      rw [head_of_rest hlast]; exact isBreak_inline h)]
  rfl

/-- A space in front of something on the same line: it joins the spaces after it, if there are any. -/
theorem Spells.space (h : Spells double behind written cs) (hgo : GoesOn (written ++ behind)) :
    Spells double behind (' ' :: written) (' ' :: cs) := by
  intro c hc
  have hreads := h c.advance (advance_rest hc)
  obtain ⟨n, ch, more, heq, hch, hs⟩ := hgo
  rw [List.cons_append, heq] at hc
  have hblanks : quotedBlanks c = .ok (' ' :: List.replicate n ' ', c.advance.skip n) :=
    quotedBlanks_inside (n := n + 1) hc hch hs
  cases n with
  | zero =>
    refine QuotedReads.chunk [' '] (length_advance_lt hc) (fun fuel => ?_) hreads
    rw [quotedRest_blanks (.inl (head_of_rest hc)), hblanks]
    rfl
  | succ n =>
    intro fuel hfuel
    obtain ⟨f, rfl⟩ : ∃ f, fuel = f + 1 := ⟨fuel - 1, by omega⟩
    have hnext := hreads (f + 1) (Nat.lt_trans (length_advance_lt hc) hfuel)
    rw [quotedRest_blanks (.inl (head_of_rest (advance_rest hc))),
      quotedBlanks_inside (advance_rest hc) hch hs, Except.bind] at hnext
    rw [quotedRest_blanks (.inl (head_of_rest hc)), hblanks, Except.bind]
    cases hrest : quotedRest double f (c.advance.skip (n + 1)) with
    | error e => rw [hrest] at hnext; cases hnext
    | ok q =>
      rw [hrest] at hnext
      obtain ⟨hcs, hlast⟩ := Prod.mk.inj (Except.ok.inj hnext)
      exact congrArg Except.ok (Prod.ext (congrArg (' ' :: ·) hcs) hlast)

/-- Empty lines, and the indentation of the line after them. -/
theorem quotedBreaks_run {n m : Nat} (hm : 0 < m) (h : isInline ch = true) (hs : ch ≠ ' ')
    (hc : c.rest = List.replicate n '\n' ++ (List.replicate m ' ' ++ ch :: r))
    (hfuel : n < fuel) :
    quotedBreaks fuel c = .ok (List.replicate n '\n', c.skip (n + m)) := by
  obtain ⟨f, rfl⟩ : ∃ f, fuel = f + 1 := ⟨fuel - 1, by omega⟩
  induction n generalizing c f with
  | zero =>
    obtain ⟨m, rfl⟩ : ∃ k, m = k + 1 := ⟨m - 1, by omega⟩
    have hhead : c.head = ' ' := head_of_rest hc
    have hlast : (c.skip (m + 1)).rest = ch :: r := by
      rw [rest_skip, hc]
      exact List.drop_left' List.length_replicate
    rw [quotedBreaks, if_neg (by
      rw [atSeparator_of_head (by rw [hhead]; decide) (by rw [hhead]; decide)]; decide)]
    simp only [span_spaces hc (isSpaceOrTab_inline h hs),
      takeBreak?_none (show isBreak (c.skip (m + 1)).head = false by
        rw [head_of_rest hlast]; exact isBreak_inline h)]
    rw [Nat.zero_add]
    rfl
  | succ n ih =>
    have hhead : c.head = '\n' := head_of_rest hc
    have hspan : c.span isSpaceOrTab = ([], c) := span_none hc rfl
    obtain ⟨f, rfl⟩ : ∃ k, f = k + 1 := ⟨f - 1, by omega⟩
    rw [quotedBreaks, if_neg (by
      rw [atSeparator_of_head (by rw [hhead]; decide) (by rw [hhead]; decide)]; decide)]
    simp only [hspan, takeBreak?_newline hhead]
    rw [ih (advance_rest hc) f (by omega), Nat.succ_add]
    rfl

/-- What is written goes on with a printable character that is no space. -/
def StartsInline (cs : List Char) : Prop :=
  ∃ ch more, cs = ch :: more ∧ isInline ch = true ∧ ch ≠ ' '

/-- Line breaks and the indentation of the next line in front of what stands there. -/
theorem Spells.fold {n m : Nat} (h : Spells double behind written cs) (hm : 0 < m)
    (hstart : StartsInline written) :
    Spells double behind ('\n' :: (List.replicate n '\n' ++ (List.replicate m ' ' ++ written)))
      (foldBreaks '\n' (List.replicate n '\n') ++ cs) := by
  intro c hc
  obtain ⟨ch, more, rfl, hch, hs⟩ := hstart
  have hunit : c.rest
      = '\n' :: (List.replicate n '\n' ++ (List.replicate m ' ' ++ ch :: (more ++ behind))) := by
    rw [hc]
    simp only [List.append_assoc, List.cons_append]
  have hlast : (c.skip (n + m + 1)).rest = ch :: more ++ behind := by
    rw [rest_skip, hunit, List.drop_succ_cons, ← List.append_assoc]
    exact List.drop_left' (by
      rw [List.length_append, List.length_replicate, List.length_replicate])
  have hblanks : quotedBlanks c
      = .ok (foldBreaks '\n' (List.replicate n '\n'), c.skip (n + m + 1)) := by
    unfold quotedBlanks
    simp only [span_none (p := isSpaceOrTab) hunit rfl, takeBreak?_newline (head_of_rest hunit)]
    rw [quotedBreaks_run hm hch hs (advance_rest hunit) (by
      rw [advance_rest hunit, List.length_append, List.length_replicate]
      omega)]
    rfl
  have hreads := h _ hlast
  rw [← skip_add] at hreads
  rw [show ('\n' :: (List.replicate n '\n' ++ (List.replicate m ' ' ++ ch :: more))).length
    = n + m + 1 + (ch :: more).length by
      simp only [List.length_cons, List.length_append, List.length_replicate]
      omega]
  refine QuotedReads.chunk _ ?_ (fun fuel => ?_) hreads
  · rw [hlast, hunit]
    simp only [List.length_cons, List.length_append, List.length_replicate]
    omega
  · rw [quotedRest_blanks (.inr (head_of_rest hunit)), hblanks]
    rfl

/-! ### Single quotes -/

/-- What a text may hold that is written in single quotes: printable characters and line breaks, and no
space beside a line break. -/
structure SingleForm (cs : List Char) : Prop where
  chars : ∀ ch ∈ cs, isInline ch = true ∨ ch = '\n'
  afterBreak : adjacent (· = '\n') (· = ' ') cs = false
  beforeBreak : adjacent (· = ' ') (· = '\n') cs = false

theorem isInline_or_of_not_special (h : isSpecial ch = false) : isInline ch = true ∨ ch = '\n' := by
  rw [isSpecial, Bool.not_eq_false', Bool.or_eq_true, decide_eq_true_iff] at h
  exact h.symm

theorem singleForm_of_allows (h : allowsSingle cs = true) : SingleForm cs := by
  rw [allowsSingle, Bool.not_eq_true', Bool.or_eq_false_iff, Bool.or_eq_false_iff] at h
  refine ⟨fun ch hch => isInline_or_of_not_special ?_, h.1.2, h.2⟩
  exact Bool.eq_false_iff.mpr fun hs => by
    rw [List.any_eq_true.mpr ⟨ch, hch, hs⟩] at h
    cases h.1.1

theorem adjacent_tail {p q : Char → Bool} (h : adjacent p q (ch :: cs) = false) :
    adjacent p q cs = false := by
  cases cs with
  | nil => rfl
  | cons d cs => exact (Bool.or_eq_false_iff.mp h).2

theorem SingleForm.tail (h : SingleForm (ch :: cs)) : SingleForm cs :=
  ⟨fun d hd => h.chars d (List.mem_cons_of_mem _ hd), adjacent_tail h.afterBreak,
    adjacent_tail h.beforeBreak⟩

theorem SingleForm.drop {n : Nat} (h : SingleForm (List.replicate n '\n' ++ cs)) :
    SingleForm cs := by
  induction n with
  | zero => exact h
  | succ n ih => exact ih h.tail

/-- No space comes after a run of line breaks. -/
theorem SingleForm.head_after_breaks {n : Nat}
    (h : SingleForm ('\n' :: (List.replicate n '\n' ++ cs))) : cs.head? ≠ some ' ' := by
  induction n with
  | zero =>
    cases cs with
    | nil => decide
    | cons d cs =>
      rintro ⟨⟩
      exact absurd h.afterBreak (by simp [adjacent])
  | succ n ih => exact ih h.tail

theorem SingleForm.head_after_space (h : SingleForm (' ' :: cs)) : cs.head? ≠ some '\n' := by
  cases cs with
  | nil => decide
  | cons d cs =>
    rintro ⟨⟩
    exact absurd h.beforeBreak (by simp [adjacent])

variable (split : Bool) (indent column : Nat) (before : Option Char)

theorem singleText_quote : singleText split indent column before ('\'' :: cs)
    = '\'' :: '\'' :: singleText split indent (column + 2) (some '\'') cs := rfl

theorem singleText_other (hq : ch ≠ '\'') (hn : ch ≠ '\n') (hs : ch ≠ ' ') :
    singleText split indent column before (ch :: cs)
      = ch :: singleText split indent (column + 1) (some ch) cs := by
  rw [singleText, if_neg hq, if_neg hn, decide_eq_false hs]
  rfl

/-- A single space may become a line break; every other space is written as it is. -/
theorem singleText_space (cs : List Char) :
    singleText split indent column before (' ' :: cs)
      = ' ' :: singleText split indent (column + 1) (some ' ') cs
    ∨ (cs.head? ≠ some ' ' ∧ before ≠ some ' ' ∧ split = true
      ∧ singleText split indent column before (' ' :: cs)
        = newLine indent ++ singleText split indent indent (some ' ') cs) := by
  rw [singleText, if_neg (by decide), if_neg (by decide)]
  split
  · next h =>
    right
    simp only [Bool.and_eq_true, decide_eq_true_iff, Bool.not_eq_true'] at h
    exact ⟨h.1.2, h.1.1.1.2, h.1.1.1.1.1.2, rfl⟩
  · exact .inl rfl

/-- A run of line breaks is written with one more, and then the indentation. -/
theorem singleText_breaks (n : Nat) (hcs : cs.head? ≠ some '\n') :
    singleText split indent column before ('\n' :: (List.replicate n '\n' ++ cs))
      = (if before = some '\n' then ['\n'] else ['\n', '\n']) ++ (List.replicate n '\n'
        ++ (List.replicate indent ' ' ++ singleText split indent indent (some '\n') cs)) := by
  induction n generalizing column before with
  | zero =>
    rw [singleText, if_neg (by decide), if_pos rfl]
    exact (if_neg hcs).trans (List.append_assoc _ _ _)
  | succ n ih =>
    rw [singleText, if_neg (by decide), if_pos rfl]
    refine (if_pos rfl).trans ?_
    rw [List.replicate_succ, List.cons_append, ih, if_pos rfl]
    rfl

theorem startsInline_singleText (h : SingleForm cs) (hn : cs.head? ≠ some '\n')
    (hs : cs.head? ≠ some ' ') :
    StartsInline (singleText split indent column before cs) := by
  cases cs with
  | nil => exact ⟨'\'', [], rfl, rfl, by decide⟩
  | cons ch cs =>
    have hnl : ch ≠ '\n' := fun e => hn (by rw [e]; rfl)
    have hsp : ch ≠ ' ' := fun e => hs (by rw [e]; rfl)
    by_cases hq : ch = '\''
    · subst hq
      exact ⟨'\'', _, singleText_quote split indent column before, rfl, by decide⟩
    · exact ⟨ch, _, singleText_other split indent column before hq hnl hsp,
        (h.chars ch List.mem_cons_self).resolve_right hnl, hsp⟩

theorem goesOn_singleText (h : SingleForm (' ' :: cs)) :
    GoesOn (singleText split indent column (some ' ') cs ++ behind) := by
  induction cs generalizing column with
  | nil => exact goesOn_cons rfl (by decide)
  | cons ch cs ih =>
    by_cases hs : ch = ' '
    · subst hs
      rcases singleText_space split indent column (some ' ') cs with heq | ⟨_, hb, _⟩
      · rw [heq]
        exact goesOn_space (ih (column + 1) h.tail)
      · exact absurd rfl hb
    · obtain ⟨d, more, heq, hd, hds⟩ := startsInline_singleText split indent column (some ' ')
        h.tail h.head_after_space fun e => hs (Option.some.inj e)
      rw [heq]
      exact goesOn_cons hd hds

/-- **Single quotes.**  What comes before decides only how line breaks are written. -/
theorem spells_single (hind : 0 < indent) (hbehind : behind.head? ≠ some '\'')
    (hform : SingleForm cs) (hbefore : before = some '\n' → cs.head? ≠ some '\n') :
    Spells false behind (singleText split indent column before cs) cs := by
  induction hlen : cs.length using Nat.strongRecOn generalizing cs column before with
  | ind len ih =>
  subst hlen
  cases cs with
  | nil => exact spells_close false fun _ => hbehind
  | cons ch cs =>
    have hlt : cs.length < (ch :: cs).length := Nat.lt_succ_self _
    by_cases hq : ch = '\''
    · subst hq
      exact (ih _ hlt (column + 2) (some '\'') hform.tail (fun h => by cases h) rfl).doubled
    by_cases hn : ch = '\n'
    · subst hn
      obtain ⟨n, more, rfl, hmore⟩ := exists_run '\n' cs
      have hshort : more.length < ('\n' :: (List.replicate n '\n' ++ more)).length := by
        simp only [List.length_cons, List.length_append]
        omega
      rw [singleText_breaks split indent column before n hmore,
        if_neg fun h => hbefore h rfl]
      exact (ih _ hshort indent _ hform.tail.drop (fun _ => hmore) rfl).fold (n := n + 1) hind
        (startsInline_singleText split indent indent _ hform.tail.drop hmore
          hform.head_after_breaks)
    by_cases hs : ch = ' '
    · subst hs
      rcases singleText_space split indent column before cs with heq | ⟨hsp, _, _, heq⟩
      · rw [heq]
        exact (ih _ hlt _ _ hform.tail (fun h => by cases h) rfl).space
          (goesOn_singleText split indent _ hform)
      · rw [heq]
        exact (ih _ hlt indent _ hform.tail (fun h => by cases h) rfl).fold (n := 0) hind
          (startsInline_singleText split indent indent _ hform.tail hform.head_after_space hsp)
    · rw [singleText_other split indent column before hq hn hs]
      have hreads := ih _ hlt (column + 1) (some ch) hform.tail
        (fun h => absurd (Option.some.inj h) hn) rfl
      by_cases hother : ch = '"' ∨ ch = '\\'
      · exact hreads.other hother
      · rw [not_or] at hother
        exact hreads.plain (isQuotedPlain_inline
          ((hform.chars ch List.mem_cons_self).resolve_right hn) hs hq hother.1 hother.2)

/-! ### Double quotes -/

/-- An escape is read as `part`. -/
def Escapes (body part behind : List Char) : Prop :=
  ∀ c : Cursor, c.rest = body ++ behind → escaped c = .ok (part, c.skip body.length)

theorem Spells.escape (h : Spells true behind written cs)
    (hbody : Escapes body part (written ++ behind)) :
    Spells true behind ('\\' :: (body ++ written)) (part ++ cs) := by
  intro c hc
  rw [List.cons_append, List.append_assoc] at hc
  have hlast : (c.skip (body.length + 1)).rest = written ++ behind := by
    rw [rest_skip, hc, List.drop_succ_cons]
    exact List.drop_left' rfl
  have hreads := h _ hlast
  rw [← skip_add] at hreads
  rw [show ('\\' :: (body ++ written)).length = body.length + 1 + written.length by
    simp only [List.length_cons, List.length_append]
    omega]
  refine QuotedReads.chunk _ ?_ (fun fuel => ?_) hreads
  · rw [hlast, hc]
    simp only [List.length_cons, List.length_append]
    omega
  · rw [quotedRest_escape (head_of_rest hc), hbody c.advance (advance_rest hc)]
    rfl

theorem escapes_letter {l : Char} (h : escapedChar? l = some ch) : Escapes [l] [ch] behind := by
  intro c hc
  rw [escaped, head_of_rest hc, h]
  rfl

theorem charOfCode_toNat (ch : Char) : charOfCode ch.toNat = .ok ch := by
  have hv := toNat_valid ch
  rw [charOfCode, if_neg (by omega), if_neg (by omega), if_neg (by
    rw [Bool.and_eq_true, decide_eq_true_iff, decide_eq_true_iff]
    omega), Char.ofNat_toNat]

theorem escapes_digits {l : Char} {width : Nat} (hl : escapedChar? l = none)
    (hw : escapeWidth? l = some width) (h : ch.toNat < Nat.pow 16 width) :
    Escapes (l :: hexDigits hexCharUpper width ch.toNat) [ch] behind := by
  intro c hc
  have hrest : c.advance.rest = hexDigits hexCharUpper width ch.toNat ++ behind := advance_rest hc
  have hread : readHex? (hexDigits hexCharUpper width ch.toNat) = some ch.toNat := by
    show hexValue 0 _ = _
    rw [hexValue_hexDigits hexDigit?_hexCharUpper_all _ _ _ h, Nat.zero_mul, Nat.zero_add]
  rw [escaped, head_of_rest hc, hl, hw]
  simp only [hrest, List.take_left' (length_hexDigits hexCharUpper width ch.toNat), hread]
  rw [if_neg (by rw [List.length_append, length_hexDigits]; omega), charOfCode_toNat,
    List.length_cons, length_hexDigits]
  rfl

theorem escapedChar?_escapeLetter? {l : Char} (h : escapeLetter? ch = some l) :
    escapedChar? l = some ch := by
  unfold escapeLetter? at h
  split at h <;> cases h <;> rfl

/-- The escape of a character is read as the character. -/
theorem escapes_escape? {e : List Char} (h : escape? ch = some e) :
    ∃ body, e = '\\' :: body ∧ ∀ behind, Escapes body [ch] behind := by
  unfold escape? at h
  split at h
  · cases h
  · split at h
    · next l hl =>
      exact ⟨[l], (Option.some.inj h).symm, fun _ =>
        escapes_letter (escapedChar?_escapeLetter? hl)⟩
    · have hv := toNat_valid ch
      simp only at h
      split at h
      · exact ⟨_, (Option.some.inj h).symm, fun _ => escapes_digits rfl rfl (by assumption)⟩
      split at h
      · exact ⟨_, (Option.some.inj h).symm, fun _ => escapes_digits rfl rfl (by assumption)⟩
      · refine ⟨_, (Option.some.inj h).symm, fun _ => escapes_digits rfl rfl ?_⟩
        show ch.toNat < 4294967296
        omega

theorem isInline_of_escape?_none (h : escape? ch = none) :
    isInline ch = true ∧ ch ≠ '"' ∧ ch ≠ '\\' := by
  unfold escape? at h
  split at h
  · next hc =>
    simp only [Bool.and_eq_true, decide_eq_true_iff] at hc
    exact ⟨by rw [isInline, decide_eq_true hc.1.1.1, decide_eq_true hc.1.1.2]; rfl, hc.1.2, hc.2⟩
  · split at h <;> cases h

/-- An escaped line break with the indentation after it stands for nothing. -/
theorem escapes_newLine {indent : Nat} (hind : 0 < indent) (h : StartsInline behind) :
    Escapes (newLine indent) [] behind := by
  intro c hc
  obtain ⟨ch, more, rfl, hch, hs⟩ := h
  have hbreaks := quotedBreaks_run (n := 0) hind hch hs (advance_rest hc)
    (Nat.succ_pos c.advance.rest.length)
  have hchar : escapedChar? '\n' = none := rfl
  have hwidth : escapeWidth? '\n' = none := rfl
  rw [escaped, head_of_rest hc, hchar, hwidth]
  simp only [takeBreak?_newline (head_of_rest hc)]
  rw [Nat.zero_add] at hbreaks
  rw [newLine, List.length_cons, List.length_replicate]
  exact hbreaks

variable (split : Bool) (indent column : Nat) (first resumed : Bool)

/-- An escape may have a line break after it. -/
theorem doubleText_escape (cs : List Char) {e : List Char} (h : escape? ch = some e) :
    doubleText split indent column first resumed (ch :: cs)
      = e ++ doubleText split indent (column + e.length) false true cs
    ∨ doubleText split indent column first resumed (ch :: cs)
      = e ++ ((doubleBreak indent cs.head?).1
        ++ doubleText split indent (doubleBreak indent cs.head?).2 false true cs) := by
  rw [doubleText, h]
  simp only
  split
  · exact .inr (List.append_assoc _ _ _)
  · exact .inl rfl

/-- A character that needs no escape may have a line break before it. -/
theorem doubleText_raw (cs : List Char) (h : escape? ch = none) :
    doubleText split indent column first resumed (ch :: cs)
      = ch :: doubleText split indent (column + 1) false false cs
    ∨ (width < column ∧ doubleText split indent column first resumed (ch :: cs)
      = (doubleBreak indent (some ch)).1
        ++ ch :: doubleText split indent ((doubleBreak indent (some ch)).2 + 1) false false cs) := by
  rw [doubleText, h]
  simp only
  split
  · next hcond =>
    rw [Bool.and_eq_true, decide_eq_true_iff] at hcond
    exact .inr ⟨hcond.2, rfl⟩
  · exact .inl rfl

theorem doubleBreak_start (next : Option Char) (indent : Nat) :
    ∃ more, (doubleBreak indent next).1 = '\\' :: more := by
  unfold doubleBreak
  split <;> exact ⟨_, rfl⟩

theorem startsInline_doubleText (h : cs.head? ≠ some ' ') :
    StartsInline (doubleText split indent column first resumed cs) := by
  cases cs with
  | nil => exact ⟨'"', [], rfl, rfl, by decide⟩
  | cons ch cs =>
    cases he : escape? ch with
    | some e =>
      obtain ⟨body, rfl, -⟩ := escapes_escape? he
      rcases doubleText_escape split indent column first resumed cs he with heq | heq <;>
        exact ⟨'\\', _, heq, rfl, by decide⟩
    | none =>
      rcases doubleText_raw split indent column first resumed cs he with heq | ⟨_, heq⟩
      · exact ⟨ch, _, heq, (isInline_of_escape?_none he).1, fun hs => h (by rw [hs]; rfl)⟩
      · obtain ⟨more, hmore⟩ := doubleBreak_start (some ch) indent
        rw [hmore] at heq
        exact ⟨'\\', _, heq, rfl, by decide⟩

theorem StartsInline.append (h : StartsInline written) : StartsInline (written ++ behind) := by
  obtain ⟨ch, more, rfl, hch⟩ := h
  exact ⟨ch, more ++ behind, rfl, hch⟩

theorem StartsInline.goesOn (h : StartsInline written) : GoesOn (written ++ behind) := by
  obtain ⟨ch, more, rfl, hch, hs⟩ := h
  exact goesOn_cons hch hs

theorem goesOn_doubleText :
    GoesOn (doubleText split indent column first resumed cs ++ behind) := by
  induction cs generalizing column first resumed with
  | nil => exact goesOn_cons rfl (by decide)
  | cons ch cs ih =>
    by_cases hs : ch = ' '
    · subst hs
      rcases doubleText_raw split indent column first resumed cs (rfl : escape? ' ' = none)
        with heq | ⟨_, heq⟩
      · rw [heq]
        exact goesOn_space (ih (column + 1) false false)
      · rw [heq]
        exact goesOn_cons rfl (by decide)
    · exact (startsInline_doubleText split indent column first resumed
        (show (ch :: cs).head? ≠ some ' ' from fun e => hs (Option.some.inj e))).goesOn

theorem Spells.raw (h : escape? ch = none)
    (hreads : Spells true behind (doubleText split indent column first resumed cs) cs) :
    Spells true behind (ch :: doubleText split indent column first resumed cs) (ch :: cs) := by
  obtain ⟨hch, hd, hb⟩ := isInline_of_escape?_none h
  by_cases hs : ch = ' '
  · subst hs
    exact hreads.space (goesOn_doubleText split indent column first resumed)
  by_cases hq : ch = '\''
  · exact hreads.other hq
  · exact hreads.plain (isQuotedPlain_inline hch hs hq hd hb)

/-- A line break between two characters: a space after it is escaped. -/
theorem Spells.gap (hind : 0 < indent) (h : escape? ch = none)
    (hreads : Spells true behind (doubleText split indent column first resumed cs) cs) :
    Spells true behind ((doubleBreak indent (some ch)).1
      ++ ch :: doubleText split indent column first resumed cs) (ch :: cs) := by
  by_cases hs : ch = ' '
  · subst hs
    have hspace := hreads.escape (escapes_letter (l := ' ') rfl)
    rw [doubleBreak, if_pos rfl, List.append_assoc]
    exact hspace.escape (escapes_newLine hind ⟨'\\', _, rfl, rfl, by decide⟩)
  · rw [doubleBreak, if_neg fun e => hs (Option.some.inj e)]
    exact (hreads.raw split indent column first resumed h).escape
      (escapes_newLine hind ⟨ch, _, rfl, (isInline_of_escape?_none h).1, hs⟩)

/-- **Double quotes.**  Where a line break is written decides nothing. -/
theorem spells_double (hind : 0 < indent) (hwide : indent < width) :
    Spells true behind (doubleText split indent column first resumed cs) cs := by
  induction hlen : cs.length using Nat.strongRecOn generalizing cs column first resumed with
  | ind len ih =>
  subst hlen
  cases cs with
  | nil => exact spells_close true (by intro h; cases h)
  | cons ch cs =>
    have hrest := fun column first resumed =>
      ih cs.length (Nat.lt_succ_self _) column first resumed rfl
    cases he : escape? ch with
    | none =>
      rcases doubleText_raw split indent column first resumed cs he with heq | ⟨_, heq⟩
      · rw [heq]
        exact (hrest _ _ _).raw split indent _ _ _ he
      · rw [heq]
        exact (hrest _ _ _).gap split indent _ _ _ hind he
    | some e =>
      obtain ⟨body, rfl, hbody⟩ := escapes_escape? he
      rcases doubleText_escape split indent column first resumed cs he with heq | heq
      · rw [heq]
        exact (hrest _ _ _).escape (hbody _)
      · rw [heq]
        show Spells true behind ('\\' :: (body ++ _)) ([ch] ++ cs)
        refine Spells.escape ?_ (hbody _)
        by_cases hs : cs.head? = some ' '
        · obtain ⟨more, rfl⟩ : ∃ more, cs = ' ' :: more := by
            cases cs with
            | nil => cases hs
            | cons d more => exact ⟨more, by rw [Option.some.inj hs]⟩
          rcases doubleText_raw split indent (doubleBreak indent (some ' ')).2 false
            true more (rfl : escape? ' ' = none) with hraw | ⟨hover, _⟩
          · rw [List.head?_cons, hraw]
            exact Spells.gap split indent _ _ _ hind rfl
              (ih more.length (Nat.lt_succ_of_lt (Nat.lt_succ_self _)) _ _ _ rfl)
          · -- the column after a line break is no reason for another one
            exact absurd hover (Nat.not_lt.mpr hwide)
        · rw [doubleBreak, if_neg hs]
          exact (hrest _ _ _).escape (escapes_newLine hind
            (startsInline_doubleText split indent _ _ _ hs).append)

/-! ### Between the quotes -/

/-- **A text in single quotes is read back.** -/
theorem quotedScalar_single {s : String} (hind : 0 < indent) (hbehind : behind.head? ≠ some '\'')
    (hform : allowsSingle s.toList = true)
    (hc : c.rest = ('\'' :: singleText split indent column none s.toList) ++ behind) :
    quotedScalar false c
      = .ok (s, c.skip ('\'' :: singleText split indent column none s.toList).length) := by
  have hreads := spells_single split indent column none hind hbehind (singleForm_of_allows hform)
    (fun h => nomatch h) c.advance (advance_rest hc)
  rw [quotedScalar, hreads _ (Nat.lt_succ_of_lt (length_advance_lt hc))]
  exact congrArg Except.ok (Prod.ext String.ofList_toList rfl)

/-- **A text in double quotes is read back.** -/
theorem quotedScalar_double {s : String} (hind : 0 < indent) (hwide : indent < width)
    (hc : c.rest = ('"' :: doubleText split indent column true false s.toList) ++ behind) :
    quotedScalar true c
      = .ok (s, c.skip ('"' :: doubleText split indent column true false s.toList).length) := by
  have hspells : Spells true behind _ s.toList :=
    spells_double split indent column true false hind hwide
  have hreads := hspells c.advance (advance_rest hc)
  rw [quotedScalar, hreads _ (Nat.lt_succ_of_lt (length_advance_lt hc))]
  exact congrArg Except.ok (Prod.ext String.ofList_toList rfl)

end

end SecretForge.Yaml
