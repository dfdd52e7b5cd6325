import SecretForge.Proofs.Yaml.Cursor
import SecretForge.Yaml.Render
import SecretForge.Yaml.Token.Scalar

/-!
# Plain texts are read as they are written

A plain text is read word by word, with the blanks before each word.  It ends where no word follows:
before the colon after a key, or at the end of the line after a value, where the next line is not
indented deeply enough to go on with it.

* `PlainForm` — what a text may hold that is written plain.
* `Ends` — what stands after a plain text so that it ends there; `ends_colon` and `ends_line` are the
  two cases.
* **`plainScalar_plain`** — a plain text is read back, wherever its lines are broken.
-/

namespace SecretForge.Yaml

open SecretForge.Text Cursor Render

variable {ch previous : Char} {cs w more behind : List Char} {least : Int} {c : Cursor}

/-! ### What may be written plain -/

/-- What a text, or the rest of one after a word, may hold that is written plain: printable characters
that are read as no indicator, with spaces only inside. -/
structure PlainForm (cs : List Char) : Prop where
  chars : ∀ ch ∈ cs, isInline ch = true
  start : ∃ ch more, cs = ch :: more ∧ ch ≠ ' ' ∧ ch ≠ '#'
  inner : innerIndicator 'a' cs = false
  last : cs.getLast? ≠ some ' '

/-- Which character comes before matters only for a number sign. -/
theorem innerIndicator_start (hh : ch ≠ '#') :
    innerIndicator previous (ch :: cs)
      = ((ch = ':' && isBlankOrEnd (cs.headD endOfText)) || innerIndicator ch cs) := by
  rw [innerIndicator, decide_eq_false hh, Bool.false_and, Bool.or_false]

theorem plainForm_of_allows (hne : cs ≠ []) (h : allowsPlain cs = true) : PlainForm cs := by
  cases cs with
  | nil => exact absurd rfl hne
  | cons ch cs =>
    simp only [allowsPlain, Bool.not_eq_true', Bool.or_eq_false_iff, decide_eq_false_iff_not] at h
    obtain ⟨⟨⟨⟨⟨⟨-, hlead⟩, hinner⟩, hspecial⟩, hbreak⟩, hspace⟩, hlast⟩ := h
    obtain ⟨hset, hcolon⟩ := Bool.or_eq_false_iff.mp hlead
    have hhash : ch ≠ '#' := by
      rintro rfl
      cases hset
    refine ⟨fun d hd => ?_, ⟨ch, cs, rfl, hspace, hhash⟩, ?_, hlast⟩
    · have hns : isSpecial d = false := Bool.eq_false_iff.mpr fun hs => by
        rw [List.any_eq_true.mpr ⟨d, hd, hs⟩] at hspecial
        cases hspecial
      rw [isSpecial, Bool.not_eq_false', Bool.or_eq_true, decide_eq_true_iff] at hns
      refine hns.resolve_left ?_
      rintro rfl
      rw [List.contains_iff_mem.mpr hd] at hbreak
      cases hbreak
    · rw [innerIndicator_start hhash, hinner, Bool.or_false]
      by_cases hc : ch = ':'
      · rw [hc] at hcolon ⊢
        exact hcolon
      · rw [decide_eq_false hc, Bool.false_and]

/-! ### Words -/

/-- The characters of a word, up to a space or the end of the text. -/
theorem plainLength_word (hw : ∀ ch ∈ w, isInline ch = true ∧ ch ≠ ' ')
    (hmore : more.head? ≠ none → more.head? = some ' ')
    (hinner : innerIndicator previous (w ++ more) = false) (hbehind : plainLength false behind = 0) :
    plainLength false (w ++ behind) = w.length := by
  induction w generalizing previous with
  | nil => exact hbehind
  | cons ch w ih =>
    obtain ⟨hch, hs⟩ := hw ch List.mem_cons_self
    rw [List.cons_append, innerIndicator, Bool.or_eq_false_iff, Bool.or_eq_false_iff] at hinner
    have hrest := ih (fun d hd => hw d (List.mem_cons_of_mem _ hd)) hinner.2
    have hcolon : (ch = ':' && isBlankOrEnd ((w ++ behind).headD endOfText)) = false := by
      cases w with
      | cons d w => exact hinner.1.1
      | nil =>
        -- a colon at the end of a word would be an indicator in the text itself
        have hend : isBlankOrEnd ((([] : List Char) ++ more).headD endOfText) = true := by
          cases more with
          | nil => rfl
          | cons d more => rw [List.nil_append, List.headD_cons, Option.some.inj (hmore (fun h => by cases h))]; rfl
        have hno := hinner.1.1
        rw [hend, Bool.and_true] at hno
        rw [hno, Bool.false_and]
    rw [List.cons_append, plainLength]
    simp only [Bool.false_and, Bool.or_false, isBlankOrEnd_inline hch hs, hcolon]
    rw [if_neg (by decide), hrest, List.length_cons]

/-! ### What is written -/

section

variable (split : Bool) (indent column : Nat) (spaced : Bool)

theorem plainText_word (hw : ∀ ch ∈ w, ch ≠ ' ') (hne : w ≠ []) :
    plainText split indent column spaced (w ++ more)
      = w ++ plainText split indent (column + w.length) false more := by
  induction w generalizing column spaced with
  | nil => exact absurd rfl hne
  | cons ch w ih =>
    have hs : ch ≠ ' ' := hw ch List.mem_cons_self
    rw [List.cons_append, plainText, decide_eq_false hs]
    simp only [Bool.false_and]
    rw [if_neg (by decide)]
    cases w with
    | nil => rfl
    | cons d w =>
      rw [ih (column + 1) false (fun e he => hw e (List.mem_cons_of_mem _ he)) (fun h => by cases h)]
      rw [List.length_cons (a := ch), List.cons_append (a := ch), Nat.add_assoc, Nat.add_comm 1]

theorem plainText_spaces (n : Nat) :
    plainText split indent column true (List.replicate n ' ' ++ more)
      = List.replicate n ' ' ++ plainText split indent (column + n) true more := by
  induction n generalizing column with
  | zero => rfl
  | succ n ih =>
    rw [List.replicate_succ, List.cons_append, plainText]
    simp only [Bool.not_true, Bool.and_false, Bool.false_and]
    rw [if_neg (by decide)]
    show ' ' :: plainText split indent (column + 1) true _ = _
    rw [ih, Nat.add_assoc, Nat.add_comm 1]
    rfl

/-- What is written for the spaces behind a word: these spaces, or a line break for a single one. -/
inductive Gap (n : Nat) : List Char → Prop where
  | spaces : Gap n (List.replicate (n + 1) ' ')
  | lineBreak (hsingle : n = 0) (hsplit : split = true) : Gap n (newLine indent)

theorem plainText_gap (n : Nat) (more : List Char) :
    ∃ written column', Gap split indent n written
      ∧ plainText split indent column false (List.replicate (n + 1) ' ' ++ more)
        = written ++ plainText split indent column' true more := by
  rw [List.replicate_succ, List.cons_append, plainText]
  split
  · next h =>
    simp only [Bool.and_eq_true, decide_eq_true_iff] at h
    cases n with
    | zero => exact ⟨_, _, .lineBreak rfl h.1.1.1.2, rfl⟩
    | succ n => exact absurd rfl h.1.2
  · refine ⟨_, column + (n + 1), .spaces, ?_⟩
    show ' ' :: plainText split indent (column + 1) true _ = _
    rw [plainText_spaces, Nat.add_assoc, Nat.add_comm 1]
    rfl

end

/-! ### How reading goes on -/

theorem plainBlanks_inside {n : Nat} (hc : c.rest = List.replicate n ' ' ++ ch :: more)
    (h : isInline ch = true) (hs : ch ≠ ' ') :
    plainBlanks c = (List.replicate n ' ', false, c.skip n) := by
  have hspan : c.span (· = ' ') = (List.replicate n ' ', c.skip n) := by
    have hrun := span_run (p := (· = ' ')) hc
      (fun d hd => by rw [List.eq_of_mem_replicate hd]; rfl)
      (fun d rest hd => by rw [← (List.cons.inj hd).1]; exact decide_eq_false hs)
    rwa [List.length_replicate] at hrun
  have hlast : (c.skip n).rest = ch :: more := by
    rw [rest_skip, hc]
    exact List.drop_left' List.length_replicate
  unfold plainBlanks
  simp only [hspan, takeBreak?_none (show isBreak (c.skip n).head = false by
    rw [head_of_rest hlast]; exact isBreak_inline h)]

theorem plainBlanks_newLine {n : Nat} (hc : c.rest = newLine n ++ ch :: more) (hn : 0 < n)
    (h : isInline ch = true) (hs : ch ≠ ' ') :
    plainBlanks c = ([' '], true, c.skip (n + 1)) := by
  have hrest : c.advance.rest = List.replicate n ' ' ++ ch :: more := advance_rest hc
  have hskip : c.advance.skipSpaces = c.skip (n + 1) :=
    skipSpaces_run hrest fun e => hs (Option.some.inj e)
  have hlast : (c.skip (n + 1)).rest = ch :: more := by
    rw [rest_skip, hc]
    exact List.drop_left' (by rw [newLine, List.length_cons, List.length_replicate])
  have hsep : c.advance.atSeparator = false := by
    obtain ⟨n, rfl⟩ : ∃ k, n = k + 1 := ⟨n - 1, by omega⟩
    have hhead : c.advance.head = ' ' := head_of_rest hrest
    exact atSeparator_of_head (by rw [hhead]; decide) (by rw [hhead]; decide)
  have hspan : c.span (· = ' ') = ([], c) := span_none hc rfl
  unfold plainBlanks
  simp only [hspan, takeBreak?_newline (head_of_rest hc), plainBreaks, hsep, hskip,
    takeBreak?_none (show isBreak (c.skip (n + 1)).head = false by
      rw [head_of_rest hlast]; exact isBreak_inline h)]
  rfl

/-- A word ends at a gap. -/
theorem Gap.plainLength {split : Bool} {indent n : Nat} {written : List Char}
    (hgap : Gap split indent n written) (behind : List Char) :
    plainLength false (written ++ behind) = 0 := by
  cases hgap <;> rfl

/-- However it is written, a gap is read as the spaces that it stands for, and the word behind it is
indented deeply enough. -/
theorem plainBlanks_gap {split : Bool} {indent n : Nat} {written : List Char}
    (hgap : Gap split indent n written) (hindent : split = true → 0 < indent ∧ least ≤ indent)
    (hc : c.rest = written ++ ch :: more) (h : isInline ch = true) (hs : ch ≠ ' ')
    (hcolumn : least ≤ c.column) :
    (∃ crossed, plainBlanks c = (List.replicate (n + 1) ' ', crossed, c.skip written.length))
      ∧ least ≤ (c.skip written.length).column := by
  cases hgap with
  | spaces =>
    have hwidth := column_skip_inline hc fun d hd => by rw [List.eq_of_mem_replicate hd]; rfl
    rw [List.length_replicate] at hwidth ⊢
    exact ⟨⟨false, plainBlanks_inside hc h hs⟩, by omega⟩
  | lineBreak hsingle hsplit =>
    obtain ⟨hpositive, hleast⟩ := hindent hsplit
    rw [hsingle, newLine, List.length_cons, List.length_replicate, column_skip_newLine hc]
    exact ⟨⟨true, plainBlanks_newLine hc hpositive h hs⟩, hleast⟩

/-- A plain text that must be indented by `least` ends before `behind`.  Reading goes over `j` more
characters; `crossed` says whether they cross a line. -/
structure Ends (least : Int) (behind : List Char) (crossed : Bool) (j : Nat) : Prop where
  word : plainLength false behind = 0
  blanks : ∀ c : Cursor, c.rest = behind → ∃ blanks, plainBlanks c = (blanks, crossed, c.skip j)
    ∧ (blanks.isEmpty || (c.skip j).head = '#' || decide (((c.skip j).column : Int) < least)) = true

/-- Before the colon after a key. -/
theorem ends_colon {d : Char} (hd : isBlankOrEnd d = true) :
    Ends least (':' :: d :: more) false 0 where
  word := by
    rw [plainLength]
    simp only [List.headD_cons, hd]
    rfl
  blanks c hc := by
    refine ⟨[], ?_, rfl⟩
    have hspan : c.span (· = ' ') = ([], c) := span_none hc rfl
    unfold plainBlanks
    simp only [hspan, takeBreak?_none (show isBreak c.head = false by rw [head_of_rest hc]; rfl)]
    rfl

/-- What may stand at the column `k` of the line after a node: nothing at the end of the text, else
something that is no comment and no document separator. -/
def Resumes (k : Nat) (more : List Char) : Prop :=
  (more = [] ∧ k = 0) ∨ ((∃ ch r, more = ch :: r ∧ isInline ch = true ∧ ch ≠ ' ' ∧ ch ≠ '#')
    ∧ (k = 0 → ∀ i l, (Cursor.mk more i l 0).atSeparator = false))

theorem Resumes.atToken {k i l j : Nat} (h : Resumes k more) : AtToken ⟨more, i, l, j⟩ := by
  rcases h with ⟨rfl, -⟩ | ⟨⟨ch, r, rfl, hch, hs, hh⟩, -⟩
  · exact ⟨rfl, (by decide : endOfText ≠ ' '), (by decide : endOfText ≠ '#')⟩
  · exact atToken_of_rest rfl hch hs hh

theorem Resumes.skipSpaces {k i l : Nat} (h : Resumes k more) :
    (Cursor.mk (List.replicate k ' ' ++ more) i l 0).skipSpaces = ⟨more, i + k, l, k⟩ := by
  have hns : more.head? ≠ some ' ' := fun e => (h.atToken (i := 0) (l := 0) (j := 0)).notSpace (by
    rw [Cursor.head, List.headD_eq_head?_getD, e]; rfl)
  rw [skipSpaces_run (n := k) rfl hns, skip_spaces, Nat.zero_add]

theorem Resumes.not_separator {k i l : Nat} (h : Resumes k more) :
    (Cursor.mk (List.replicate k ' ' ++ more) i l 0).atSeparator = false := by
  cases k with
  | zero =>
    rcases h with ⟨rfl, -⟩ | ⟨-, hsep⟩
    · rfl
    · exact hsep rfl i l
  | succ k => exact atSeparator_of_head (by decide : ' ' ≠ '-') (by decide : ' ' ≠ '.')

/-- At the end of a line, when the next one is indented less. -/
theorem ends_line {k : Nat} (h : Resumes k more) (hk : (k : Int) < least) :
    Ends least ('\n' :: (List.replicate k ' ' ++ more)) true (k + 1) where
  word := rfl
  blanks c hc := by
    obtain ⟨rest, i, l, j⟩ := c
    subst hc
    have hskip : (Cursor.mk (List.replicate k ' ' ++ more) (i + 1) (l + 1) 0).skipSpaces
        = ⟨more, i + (k + 1), l + 1, k⟩ := by
      rw [h.skipSpaces, Nat.add_assoc, Nat.add_comm 1]
    refine ⟨[' '], ?_, ?_⟩
    · have hspan : ∀ rest, (Cursor.mk ('\n' :: rest) i l j).span (· = ' ')
          = ([], ⟨'\n' :: rest, i, l, j⟩) := fun rest => span_none rfl rfl
      unfold plainBlanks
      simp only [hspan, takeBreak?_newline (head_mk _ _ _ _ _), advance_newline, plainBreaks,
        h.not_separator, hskip, takeBreak?_none h.atToken.notBreak]
      rw [skip_newLine]
      rfl
    · rw [skip_newLine]
      simp only [hk, decide_true, Bool.or_true]

/-! ### Texts -/

/-- A plain text opens with a word, and `n` spaces behind it lead to the rest, if there is any. -/
structure Opens (w : List Char) (n : Nat) (rest : List Char) : Prop where
  ne : w ≠ []
  chars : ∀ ch ∈ w, isInline ch = true ∧ ch ≠ ' '
  noComment : w.head? ≠ some '#'
  spaces : rest.head? ≠ some ' '
  last : n = 0 → rest = []

/-- Behind the word there is a space, or nothing. -/
theorem Opens.head?_behind {n : Nat} {rest : List Char} (h : Opens w n rest) :
    (List.replicate n ' ' ++ rest).head? ≠ none →
      (List.replicate n ' ' ++ rest).head? = some ' ' := by
  cases n with
  | zero => exact fun hne => absurd (by rw [h.last rfl]; rfl) hne
  | succ n => exact fun _ => rfl

theorem PlainForm.exists_opens (h : PlainForm cs) :
    ∃ w n rest, cs = w ++ (List.replicate n ' ' ++ rest) ∧ Opens w n rest := by
  obtain ⟨ch, more, rfl, hs, hh⟩ := h.start
  obtain ⟨n, rest, hrun, hrest⟩ := exists_run ' ' (more.dropWhile (· ≠ ' '))
  have hword : ∀ d ∈ ch :: more.takeWhile (· ≠ ' '), d ∈ ch :: more ∧ d ≠ ' ' := by
    refine List.forall_mem_cons.mpr ⟨⟨List.mem_cons_self, hs⟩, fun d hd => ⟨?_, ?_⟩⟩
    · exact List.mem_cons_of_mem _ ((List.takeWhile_prefix _).subset hd)
    · exact of_decide_eq_true (List.all_eq_true.mp List.all_takeWhile d hd)
  refine ⟨ch :: more.takeWhile (· ≠ ' '), n, rest, ?_, List.cons_ne_nil _ _,
    fun d hd => ⟨h.chars d (hword d hd).1, (hword d hd).2⟩, fun e => hh (Option.some.inj e), hrest, ?_⟩
  · rw [List.cons_append, ← hrun, List.takeWhile_append_dropWhile]
  · -- what is not dropped begins with a space
    rintro rfl
    cases rest with
    | nil => rfl
    | cons d rest =>
      have hd := List.head?_dropWhile_not (fun d => decide (d ≠ ' ')) more
      rw [hrun] at hd
      exact absurd (congrArg some (by simpa using hd)) hrest

theorem innerIndicator_append (h : innerIndicator previous (w ++ cs) = false) :
    ∃ before, innerIndicator before cs = false := by
  induction w generalizing previous with
  | nil => exact ⟨previous, h⟩
  | cons ch w ih =>
    rw [List.cons_append, innerIndicator, Bool.or_eq_false_iff] at h
    exact ih h.2

/-- What comes after a word and spaces may be written plain again. -/
theorem PlainForm.rest {n : Nat} (h : PlainForm (w ++ (List.replicate (n + 1) ' ' ++ cs)))
    (hcs : cs.head? ≠ some ' ') : PlainForm cs := by
  have hlast : cs ≠ [] := by
    rintro rfl
    refine h.last ?_
    rw [List.append_nil, List.replicate_succ', ← List.append_assoc, List.getLast?_concat]
  obtain ⟨ch, more, rfl⟩ := List.exists_cons_of_ne_nil hlast
  have hs : ch ≠ ' ' := fun e => hcs (by rw [e]; rfl)
  -- a number sign after a space would be an indicator
  have hinner : ch ≠ '#' ∧ innerIndicator 'a' (ch :: more) = false := by
    have hsplit : w ++ (List.replicate (n + 1) ' ' ++ ch :: more)
        = (w ++ List.replicate n ' ') ++ ' ' :: ch :: more := by
      rw [List.replicate_succ', List.append_assoc, List.append_assoc]
      rfl
    have hh := h.inner
    rw [hsplit] at hh
    obtain ⟨before, hh⟩ := innerIndicator_append hh
    rw [innerIndicator, Bool.or_eq_false_iff] at hh
    have hhash : ch ≠ '#' := by
      rintro rfl
      exact absurd hh.2 (by rw [innerIndicator]; simp [isBlankOrEnd, isSpaceOrEnd])
    refine ⟨hhash, ?_⟩
    rw [innerIndicator_start hhash] at hh ⊢
    exact hh.2
  refine ⟨fun d hd => h.chars d (List.mem_append_right _ (List.mem_append_right _ hd)),
    ⟨ch, more, rfl, hs, hinner.1⟩, hinner.2, fun e => h.last ?_⟩
  rw [← List.append_assoc, List.getLast?_append, e]
  rfl

variable {crossed : Bool} {j indent column fuel : Nat} {split spaced cr : Bool}
  {blanks : List Char}

/-- Reading takes a word and the blanks after it, and ends there or goes on. -/
theorem plainRest_step {next : Cursor} {gap : List Char} (hne : w ≠ []) (hc : c.rest = w ++ more)
    (hhash : w.head? ≠ some '#') (hlength : plainLength false (w ++ more) = w.length)
    (hblanks : plainBlanks (c.skip w.length) = (gap, crossed, next)) :
    plainRest false least (fuel + 1) blanks cr c
      = if gap.isEmpty || next.head = '#' || decide ((next.column : Int) < least) then
          (blanks ++ w, crossed, next)
        else
          ((blanks ++ w) ++ (plainRest false least fuel gap crossed next).1,
            (plainRest false least fuel gap crossed next).2) := by
  obtain ⟨ch, w, rfl⟩ := List.exists_cons_of_ne_nil hne
  have hhead : c.head ≠ '#' := by
    rw [head_of_rest hc]
    exact fun e => hhash (by rw [e]; rfl)
  have hzero : (ch :: w).length ≠ 0 := Nat.succ_ne_zero _
  rw [plainRest, if_neg hhead]
  simp only [hc, hlength, if_neg hzero, hblanks, List.take_left' rfl, Bool.not_false, Bool.true_and]

/-- Reading goes on with the next word, where it is indented deeply enough. -/
theorem plainRest_next {written rest gap : List Char} {crossed' : Bool} {last : Cursor}
    (hne : w ≠ []) (hc : c.rest = w ++ (written ++ ch :: rest)) (hhash : w.head? ≠ some '#')
    (hlength : plainLength false (w ++ (written ++ ch :: rest)) = w.length) (hgap : gap ≠ [])
    (hblanks : plainBlanks (c.skip w.length) = (gap, crossed', c.skip (w.length + written.length)))
    (hh : ch ≠ '#') (hdeep : least ≤ (c.skip (w.length + written.length)).column)
    (hnext : plainRest false least fuel gap crossed' (c.skip (w.length + written.length))
      = (gap ++ cs, crossed, last)) :
    plainRest false least (fuel + 1) blanks cr c = (blanks ++ (w ++ (gap ++ cs)), crossed, last) := by
  have hhead : (c.skip (w.length + written.length)).head = ch := by
    refine head_of_rest (r := rest) ?_
    rw [rest_skip, hc, ← List.append_assoc]
    exact List.drop_left' List.length_append
  have hempty : gap.isEmpty = false := by
    cases gap with
    | nil => exact absurd rfl hgap
    | cons d gap => rfl
  rw [plainRest_step hne hc hhash hlength hblanks, hhead, hempty, decide_eq_false hh,
    decide_eq_false (Int.not_lt.mpr hdeep), if_neg (by decide), hnext]
  simp only [List.append_assoc]

theorem plainText_start (split : Bool) (indent column : Nat) (spaced : Bool) (cs : List Char)
    (hs : ch ≠ ' ') :
    plainText split indent column spaced (ch :: cs)
      = ch :: plainText split indent (column + 1) false cs := by
  rw [plainText, decide_eq_false hs]
  rfl

/-- **Plain texts.**  Where a space is written as a line break decides nothing, as long as the lines
are indented deeply enough. -/
theorem plainRest_plain (hends : Ends least behind crossed j)
    (hindent : split = true → 0 < indent ∧ least ≤ indent) (hform : PlainForm cs)
    (hc : c.rest = plainText split indent column spaced cs ++ behind)
    (hcolumn : least ≤ c.column + 1) (hfuel : c.rest.length < fuel) :
    plainRest false least fuel blanks cr c = (blanks ++ cs, crossed,
      c.skip ((plainText split indent column spaced cs).length + j)) := by
  -- word by word; what a word leaves of the text is plain again
  induction hlen : cs.length using Nat.strongRecOn
    generalizing cs column spaced fuel blanks cr c with
  | ind len ih =>
  subst hlen
  obtain ⟨f, rfl⟩ : ∃ f, fuel = f + 1 := ⟨fuel - 1, by omega⟩
  obtain ⟨w, n, rest, rfl, hw⟩ := hform.exists_opens
  have hpos := List.length_pos_iff.mpr hw.ne
  have hlength : ∀ {behind}, plainLength false behind = 0 →
      plainLength false (w ++ behind) = w.length :=
    plainLength_word hw.chars hw.head?_behind hform.inner
  rw [plainText_word split indent column spaced (fun ch hch => (hw.chars ch hch).2) hw.ne] at hc ⊢
  rw [List.append_assoc] at hc
  have hafter : ∀ {rest}, c.rest = w ++ rest → (c.skip w.length).rest = rest := fun h => by
    rw [rest_skip, h]
    exact List.drop_left' rfl
  cases n with
  | zero =>
    obtain rfl := hw.last rfl
    obtain ⟨gap, hblanks, hstop⟩ := hends.blanks _ (hafter hc)
    rw [plainRest_step hw.ne hc hw.noComment (hlength hends.word) hblanks, if_pos hstop, ← skip_add]
    simp only [List.replicate_zero, List.append_nil, plainText]
  | succ n =>
    have hrestForm := hform.rest hw.spaces
    obtain ⟨ch, r, rfl, hs, hh⟩ := hrestForm.start
    obtain ⟨written, column', hgap, heq⟩ := plainText_gap split indent (column + w.length) n (ch :: r)
    rw [heq] at hc ⊢
    rw [List.append_assoc] at hc
    have hwidth : (c.skip w.length).column = c.column + w.length :=
      column_skip_inline hc fun d hd => (hw.chars d hd).1
    have hnext : (c.skip (w.length + written.length)).rest
        = plainText split indent column' true (ch :: r) ++ behind := by
      rw [skip_add, rest_skip, hafter hc]
      exact List.drop_left' rfl
    have hread := plainText_start split indent column' true r hs
    obtain ⟨⟨crossed', hblanks⟩, hdeep⟩ := plainBlanks_gap hgap hindent
      (by rw [hafter hc, hread, List.cons_append]) (hrestForm.chars ch List.mem_cons_self) hs
      (by omega)
    rw [← skip_add] at hblanks hdeep
    have hgo : plainRest false least f (List.replicate (n + 1) ' ') crossed'
          (c.skip (w.length + written.length))
        = (List.replicate (n + 1) ' ' ++ ch :: r, crossed, (c.skip (w.length + written.length)).skip
            ((plainText split indent column' true (ch :: r)).length + j)) := by
      refine ih _ ?_ hrestForm hnext (by omega) ?_ rfl
      · simp only [List.length_append, List.length_replicate]
        omega
      · rw [hc] at hfuel
        rw [hnext]
        simp only [List.length_append] at hfuel ⊢
        omega
    have hlast : c.skip ((w ++ (written ++ plainText split indent column' true (ch :: r))).length + j)
        = (c.skip (w.length + written.length)).skip
          ((plainText split indent column' true (ch :: r)).length + j) := by
      rw [← skip_add]
      simp only [List.length_append, Nat.add_assoc]
    rw [hread, List.cons_append] at hc
    rw [hlast]
    exact plainRest_next hw.ne hc hw.noComment (hlength (hgap.plainLength _)) (List.cons_ne_nil _ _)
      hblanks hh hdeep hgo

/-- **A plain text is read back.** -/
theorem plainScalar_plain {s : String} (hends : Ends least behind crossed j)
    (hindent : split = true → 0 < indent ∧ least ≤ indent) (hform : PlainForm s.toList)
    (hc : c.rest = plainText split indent column false s.toList ++ behind)
    (hcolumn : least ≤ c.column + 1) :
    plainScalar false least c = (s, crossed,
      c.skip ((plainText split indent column false s.toList).length + j)) := by
  rw [plainScalar, plainRest_plain hends hindent hform hc hcolumn (Nat.lt_succ_self _)]
  exact Prod.ext String.ofList_toList rfl

end SecretForge.Yaml
