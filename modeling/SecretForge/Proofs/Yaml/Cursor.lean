import SecretForge.Yaml.Cursor

/-!
# Places in a written text

What writing puts down are printable ASCII characters and line feeds, so that a place moves in only two
ways: a column to the right, or to the start of the next line.

* `skip_inline`, `skip_newLine` — the place after a run of printable characters, and after a line break
  with the indentation of the next line.
* `span_run` — the longest run of a class.
-/

namespace SecretForge.Yaml

/-- A printable ASCII character. -/
def isInline (c : Char) : Bool := ' ' ≤ c && c ≤ '~'

theorem isInline_range {c : Char} (h : isInline c = true) : 0x20 ≤ c.toNat ∧ c.toNat ≤ 0x7E := by
  rw [isInline, Bool.and_eq_true, decide_eq_true_iff, decide_eq_true_iff] at h
  exact h

theorem isInline_ne {c d : Char} (h : isInline c = true) (hd : isInline d = false) : c ≠ d := by
  rintro rfl
  rw [h] at hd
  cases hd

theorem isBreak_inline {c : Char} (h : isInline c = true) : isBreak c = false := by
  have hr := isInline_range h
  simp only [isBreak, Bool.or_eq_false_iff, decide_eq_false_iff_not, beq_eq_false_iff_ne]
  exact ⟨⟨⟨⟨isInline_ne h rfl, isInline_ne h rfl⟩, by omega⟩, by omega⟩, by omega⟩

theorem ne_byteOrderMark {c : Char} (h : isInline c = true) : c ≠ byteOrderMark :=
  isInline_ne h rfl

theorem isBlankOrEnd_inline {c : Char} (h : isInline c = true) (hs : c ≠ ' ') :
    isBlankOrEnd c = false := by
  simp only [isBlankOrEnd, isSpaceOrEnd, isBreakOrEnd, Bool.or_eq_false_iff, isBreak_inline h,
    decide_eq_false_iff_not]
  exact ⟨isInline_ne h rfl, hs, trivial, isInline_ne h rfl⟩

theorem isTextChar_inline {c : Char} (h : isInline c = true) : isTextChar c = true := by
  have hr := isInline_range h
  simp only [isTextChar, Bool.or_eq_true, Bool.and_eq_true, decide_eq_true_iff, beq_iff_eq]
  omega

namespace Cursor

@[simp] theorem head_mk (c : Char) (cs : List Char) (i l k : Nat) :
    (Cursor.mk (c :: cs) i l k).head = c := rfl

@[simp] theorem head_nil (i l k : Nat) : (Cursor.mk [] i l k).head = endOfText := rfl

section

variable {c : Cursor} {ch : Char} {r : List Char}

theorem head_of_rest (h : c.rest = ch :: r) : c.head = ch := by
  rw [head, h]
  rfl

theorem peek_one_of_rest (h : c.rest = ch :: r) : c.peek 1 = r.headD endOfText := by
  rw [peek, h]
  cases r <;> rfl

theorem advance_rest (h : c.rest = ch :: r) : c.advance.rest = r := by
  unfold advance
  rw [h]

end

theorem rest_advance (c : Cursor) : c.advance.rest = c.rest.tail := by
  unfold advance
  cases h : c.rest with
  | nil => exact h
  | cons ch cs => rfl

theorem rest_skip (k : Nat) (c : Cursor) : (c.skip k).rest = c.rest.drop k := by
  induction k generalizing c with
  | zero => rfl
  | succ k ih => rw [skip, ih, rest_advance, List.drop_tail]

theorem skip_add (a b : Nat) (c : Cursor) : c.skip (a + b) = (c.skip a).skip b := by
  induction a generalizing c with
  | zero => rw [Nat.zero_add]; rfl
  | succ a ih => rw [Nat.succ_add, skip, ih]; rfl

theorem line_advance_le (c : Cursor) : c.line ≤ c.advance.line := by
  unfold advance
  split
  · exact Nat.le_refl _
  · show c.line ≤ if _ then c.line + 1 else c.line
    split
    · exact Nat.le_succ _
    · exact Nat.le_refl _

theorem line_skip_le (k : Nat) (c : Cursor) : c.line ≤ (c.skip k).line := by
  induction k generalizing c with
  | zero => exact Nat.le_refl _
  | succ k ih => exact Nat.le_trans c.line_advance_le (ih c.advance)

section

variable (rest : List Char) (i l k : Nat)

theorem advance_inline {c : Char} (h : isInline c = true) :
    (Cursor.mk (c :: rest) i l k).advance = ⟨rest, i + 1, l, k + 1⟩ := by
  simp only [advance, isBreak_inline h, Bool.false_and]
  rw [if_neg (by decide), if_neg (by decide), if_neg (ne_byteOrderMark h)]

theorem advance_newline : (Cursor.mk ('\n' :: rest) i l k).advance = ⟨rest, i + 1, l + 1, 0⟩ := rfl

theorem skip_inline {cs : List Char} (h : ∀ c ∈ cs, isInline c = true) :
    (Cursor.mk (cs ++ rest) i l k).skip cs.length = ⟨rest, i + cs.length, l, k + cs.length⟩ := by
  induction cs generalizing i k with
  | nil => rfl
  | cons c cs ih =>
    rw [List.length_cons, List.cons_append, skip, advance_inline _ _ _ _ (h c List.mem_cons_self),
      ih _ _ fun d hd => h d (List.mem_cons_of_mem c hd)]
    rw [Nat.add_assoc, Nat.add_assoc, Nat.add_comm 1]

theorem skip_spaces (n : Nat) :
    (Cursor.mk (List.replicate n ' ' ++ rest) i l k).skip n = ⟨rest, i + n, l, k + n⟩ := by
  have hall : ∀ ch ∈ List.replicate n ' ', isInline ch = true := fun ch hch => by
    rw [List.eq_of_mem_replicate hch]; rfl
  have h := skip_inline rest i l k hall
  rwa [List.length_replicate] at h

/-- The place after a line break and the indentation of the next line. -/
theorem skip_newLine (n : Nat) :
    (Cursor.mk ('\n' :: (List.replicate n ' ' ++ rest)) i l k).skip (n + 1)
      = ⟨rest, i + (n + 1), l + 1, n⟩ := by
  rw [skip, advance_newline, skip_spaces, Nat.zero_add, Nat.add_assoc, Nat.add_comm 1]

end

theorem column_skip_inline {c : Cursor} {cs rest : List Char} (hc : c.rest = cs ++ rest)
    (h : ∀ ch ∈ cs, isInline ch = true) : (c.skip cs.length).column = c.column + cs.length := by
  obtain ⟨_, i, l, k⟩ := c
  subst hc
  rw [skip_inline _ _ _ _ h]

theorem column_skip_newLine {c : Cursor} {n : Nat} {rest : List Char}
    (hc : c.rest = '\n' :: (List.replicate n ' ' ++ rest)) : (c.skip (n + 1)).column = n := by
  obtain ⟨_, i, l, k⟩ := c
  subst hc
  rw [skip_newLine]

/-! ### Runs of a class -/

/-- A text starts with a run of a character, and then comes another one or none. -/
theorem exists_run (ch : Char) (cs : List Char) :
    ∃ n more, cs = List.replicate n ch ++ more ∧ more.head? ≠ some ch := by
  induction cs with
  | nil => exact ⟨0, [], rfl, fun h => nomatch h⟩
  | cons d cs ih =>
    by_cases h : d = ch
    · obtain ⟨n, more, rfl, hmore⟩ := ih
      exact ⟨n + 1, more, by rw [h]; rfl, hmore⟩
    · exact ⟨0, d :: cs, rfl, fun e => h (Option.some.inj e)⟩

/-- The longest run of a class, where the characters of the class are known. -/
theorem span_run {p : Char → Bool} {c : Cursor} {cs rest : List Char} (hc : c.rest = cs ++ rest)
    (h : ∀ ch ∈ cs, p ch = true) (hrest : ∀ ch more, rest = ch :: more → p ch = false) :
    c.span p = (cs, c.skip cs.length) := by
  have htake : c.rest.takeWhile p = cs := by
    rw [hc, List.takeWhile_append_of_pos h]
    cases rest with
    | nil => exact List.append_nil cs
    | cons ch more =>
      rw [List.takeWhile_cons_of_neg (by rw [hrest ch more rfl]; decide), List.append_nil]
  rw [span, htake]

theorem span_none {p : Char → Bool} {c : Cursor} {ch : Char} {r : List Char}
    (hc : c.rest = ch :: r) (h : p ch = false) : c.span p = ([], c) := by
  rw [span, hc, List.takeWhile_cons_of_neg (by rw [h]; decide)]
  rfl

theorem skipSpaces_run {c : Cursor} {n : Nat} {rest : List Char}
    (hc : c.rest = List.replicate n ' ' ++ rest) (hrest : rest.head? ≠ some ' ') :
    c.skipSpaces = c.skip n := by
  rw [skipSpaces, span_run hc (fun ch hch => by rw [List.eq_of_mem_replicate hch]; rfl)
    (fun ch more h => by
      rw [h] at hrest
      exact decide_eq_false fun hch => hrest (by rw [hch]; rfl)), List.length_replicate]

theorem skipSpaces_none {c : Cursor} (h : c.head ≠ ' ') : c.skipSpaces = c := by
  refine skipSpaces_run (n := 0) rfl fun hs => h ?_
  rw [head, List.headD_eq_head?_getD, hs]
  rfl

theorem skipComment_none {c : Cursor} (h : c.head ≠ '#') : c.skipComment = c := if_neg h

theorem takeBreak?_none {c : Cursor} (h : isBreak c.head = false) : c.takeBreak? = none := by
  have hr : c.head ≠ '\r' := by
    intro hr
    rw [hr] at h
    cases h
  unfold takeBreak?
  simp only [decide_eq_false hr, Bool.false_and, h]
  rfl

theorem takeBreak?_newline {c : Cursor} (h : c.head = '\n') :
    c.takeBreak? = some ('\n', c.advance) := by
  unfold takeBreak?
  simp only [h]
  rfl

theorem atSeparator_of_head {c : Cursor} (hd : c.head ≠ '-') (hp : c.head ≠ '.') :
    c.atSeparator = false := by
  unfold atSeparator
  cases hr : c.rest with
  | nil => rfl
  | cons ch cs =>
    have hch : c.head = ch := by rw [head, hr]; rfl
    rw [hch] at hd hp
    rw [Bool.and_eq_false_iff]
    left
    simp only [List.take_succ_cons, Bool.or_eq_false_iff]
    exact ⟨decide_eq_false fun h => hd (List.cons.inj h).1,
      decide_eq_false fun h => hp (List.cons.inj h).1⟩

/-- A separator has three equal characters. -/
theorem atSeparator_of_second {c : Cursor} {ch d : Char} {r : List Char} (hc : c.rest = ch :: d :: r)
    (hd : d ≠ '-') (hp : d ≠ '.') : c.atSeparator = false := by
  unfold atSeparator
  rw [hc, Bool.and_eq_false_iff]
  left
  simp only [List.take_succ_cons, Bool.or_eq_false_iff]
  exact ⟨decide_eq_false fun h => hd (List.cons.inj (List.cons.inj h).2).1,
    decide_eq_false fun h => hp (List.cons.inj (List.cons.inj h).2).1⟩

/-- A place where a token stands, or the end of the text. -/
structure AtToken (c : Cursor) : Prop where
  notBreak : isBreak c.head = false
  notSpace : c.head ≠ ' '
  notHash : c.head ≠ '#'

theorem atToken_of_rest {c : Cursor} {ch : Char} {r : List Char} (hc : c.rest = ch :: r)
    (h : isInline ch = true) (hs : ch ≠ ' ') (hh : ch ≠ '#') : AtToken c := by
  rw [← head_of_rest hc] at h hs hh
  exact ⟨isBreak_inline h, hs, hh⟩

end Cursor

end SecretForge.Yaml
