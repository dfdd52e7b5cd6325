import SecretForge.Proofs.Yaml.Text
import SecretForge.Yaml.Token.Scan

/-!
# The steps of the scanner

What the scanner does at each kind of token that writing puts down.  Between two tokens of a block it is
in a state of one form, `on`: a layout, which holds the tokens so far and the open blocks, and a place,
with no pending key but the one of a node right before.

* `Leads` — one state leads to another: whatever comes of the second comes of the first.  `Scans` and
  `Jams` are the two ways it can end.
* `leads_line`, `leads_leave` — over a line break, and out of a block.
* `step_dash`, `step_question`, `step_colon` — the indicators of a block.
* `leads_value` — a text that is no key on one line; `passes_key` — a text that is one, with its colon:
  it is read back exactly if it is not too long for a pending key.
-/

namespace SecretForge.Yaml

open SecretForge.Text Cursor Render

/-! ### Layouts -/

/-- The tokens so far, last one first, and the open blocks, innermost first. -/
structure Layout where
  tokens : List Token
  indent : Int
  indents : List Int

namespace Layout

def add (ts : List Token) (y : Layout) : Layout := { y with tokens := ts.reverse ++ y.tokens }

/-- A block at a column, if the current one is shallower. -/
def enter (t : Token) (column : Int) (y : Layout) : Layout :=
  if y.indent < column then ⟨t :: y.tokens, column, y.indent :: y.indents⟩ else y

/-- Whether the end of the text has not been announced. -/
def Open (y : Layout) : Prop := Token.streamEnd ∉ y.tokens

variable {y : Layout} {t : Token} {ts us : List Token} {column : Int}

theorem add_add : (y.add ts).add us = y.add (ts ++ us) := by
  simp only [add, List.reverse_append, List.append_assoc]

@[simp] theorem indent_add : (y.add ts).indent = y.indent := rfl

theorem enter_same (h : y.indent = column) : y.enter t column = y := if_neg (by rw [h]; omega)

theorem enter_deeper (h : y.indent < column) :
    y.enter t column = ⟨t :: y.tokens, column, y.indent :: y.indents⟩ := if_pos h

theorem indent_enter (h : y.indent ≤ column) : (y.enter t column).indent = column := by
  unfold enter
  split
  · rfl
  · show y.indent = column
    omega

theorem Open.add (h : y.Open) (hts : Token.streamEnd ∉ ts) : (y.add ts).Open := by
  unfold Open Layout.add
  rw [List.mem_append, List.mem_reverse, not_or]
  exact ⟨hts, h⟩

theorem Open.enter (h : y.Open) (ht : t ≠ .streamEnd) : (y.enter t column).Open := by
  unfold Layout.enter
  split
  · exact fun hmem => (List.mem_cons.mp hmem).elim (fun e => ht e.symm) h
  · exact h

end Layout

namespace Scanner

/-- The scanner outside flow collections with a layout, at a place. -/
def on (y : Layout) (c : Cursor) (keyAllowed : Bool) (pending : List (Nat × PendingKey) := []) :
    Scanner where
  cursor := c
  emitted := y.tokens
  count := y.tokens.length
  flowLevel := 0
  indent := y.indent
  indents := y.indents
  keyAllowed
  pending

/-! ### How scanning ends -/

/-- Scanning from a state yields tokens up to the end of the text. -/
inductive Scans : Scanner → List Token → Prop where
  | last {s s' : Scanner} : s.step = .ok (s', true) → Scans s s'.emitted.reverse
  | more {s s' : Scanner} {ts : List Token} : s.step = .ok (s', false) →
      s'.cursor.rest.length < s.cursor.rest.length → Scans s' ts → Scans s ts

/-- Scanning from a state comes to a fault before the end of the text. -/
inductive Jams : Scanner → Prop where
  | fault {s : Scanner} {f : Fault} : s.step = .error f → Token.streamEnd ∉ s.emitted → Jams s
  | more {s s' : Scanner} : s.step = .ok (s', false) →
      s'.cursor.rest.length < s.cursor.rest.length → Jams s' → Jams s

variable {s s' s'' : Scanner} {ts : List Token} {fuel : Nat}

theorem stopWith_eq (f : Fault) (s : Scanner) :
    ∃ held, s.stopWith f = s.emitted.reverse.take held ++ [.fault f] := ⟨_, rfl⟩

section

-- the code points of line breaks are not to be counted out
attribute [local irreducible] Cursor.takeBreak?

theorem run_succ (fuel : Nat) (s : Scanner) :
    s.run (fuel + 1) = match s.step with
      | .error f => s.stopWith f
      | .ok (s, true) => s.emitted.reverse
      | .ok (s, false) => s.run fuel := rfl

theorem skipToToken_succ (fuel : Nat) (s : Scanner) :
    s.skipToToken (fuel + 1) = match s.cursor.skipSpaces.skipComment.takeBreak? with
      | none => s.moveTo s.cursor.skipSpaces.skipComment
      | some (_, c) => skipToToken fuel { s.moveTo c with keyAllowed := s.keyAllowed || !s.inFlow } :=
  rfl

end

theorem run_of_scans (h : Scans s ts) (hfuel : s.cursor.rest.length < fuel) : s.run fuel = ts := by
  induction h generalizing fuel with
  | last hstep =>
    obtain ⟨f, rfl⟩ : ∃ f, fuel = f + 1 := ⟨fuel - 1, by omega⟩
    rw [run_succ, hstep]
  | more hstep hlt _ ih =>
    obtain ⟨f, rfl⟩ : ∃ f, fuel = f + 1 := ⟨fuel - 1, by omega⟩
    rw [run_succ, hstep]
    exact ih (by omega)

theorem run_of_jams (h : Jams s) (hfuel : s.cursor.rest.length < fuel) :
    Token.streamEnd ∉ s.run fuel := by
  induction h generalizing fuel with
  | @fault s f hstep hopen =>
    obtain ⟨n, rfl⟩ : ∃ f, fuel = f + 1 := ⟨fuel - 1, by omega⟩
    obtain ⟨held, heq⟩ := stopWith_eq f s
    rw [run_succ, hstep]
    show _ ∉ s.stopWith f
    rw [heq, List.mem_append, not_or]
    exact ⟨fun hmem => hopen (List.mem_reverse.mp (List.mem_of_mem_take hmem)), by simp⟩
  | more hstep hlt _ ih =>
    obtain ⟨f, rfl⟩ : ∃ f, fuel = f + 1 := ⟨fuel - 1, by omega⟩
    rw [run_succ, hstep]
    exact ih (by omega)

/-- One state leads to another: however scanning ends from the second, it ends from the first. -/
structure Leads (s s' : Scanner) : Prop where
  scans : ∀ {ts}, Scans s' ts → Scans s ts
  jams : Jams s' → Jams s

theorem Leads.refl (s : Scanner) : Leads s s := ⟨id, id⟩

theorem Leads.trans (h : Leads s s') (h' : Leads s' s'') : Leads s s'' :=
  ⟨fun hs => h.scans (h'.scans hs), fun hj => h.jams (h'.jams hj)⟩

theorem leads_step (h : s.step = .ok (s', false))
    (hlt : s'.cursor.rest.length < s.cursor.rest.length) : Leads s s' := ⟨.more h hlt, .more h hlt⟩

/-- Two states with the same next token. -/
theorem leads_toNext (h : s.toNext = s'.toNext)
    (hle : s'.cursor.rest.length ≤ s.cursor.rest.length) (hsub : s.emitted ⊆ s'.emitted) :
    Leads s s' := by
  have hstep : s.step = s'.step := by rw [step, step, h]
  refine ⟨fun hs => ?_, fun hj => ?_⟩
  · cases hs with
    | last hs => exact .last (hstep.trans hs)
    | more hs hlt hrest => exact .more (hstep.trans hs) (Nat.lt_of_lt_of_le hlt hle) hrest
  · cases hj with
    | fault hs hopen => exact .fault (hstep.trans hs) fun hmem => hopen (hsub hmem)
    | more hs hlt hrest => exact .more (hstep.trans hs) (Nat.lt_of_lt_of_le hlt hle) hrest

/-! ### Between tokens -/

variable {y : Layout} {c : Cursor} {rest more : List Char} {i l j k : Nat} {ka : Bool}
  {pending : List (Nat × PendingKey)}

theorem skipToToken_here (h : AtToken s.cursor) : s.skipToToken (fuel + 1) = s := by
  rw [skipToToken_succ, skipSpaces_none h.notSpace, skipComment_none h.notHash]
  simp only [takeBreak?_none h.notBreak]
  rfl

theorem not_lapsed {key : PendingKey} (hl : key.line = s.cursor.line)
    (hi : ¬ 1024 < s.cursor.index - key.index) : s.lapsed key = false := by
  unfold lapsed
  rw [Bool.or_eq_false_iff]
  exact ⟨bne_eq_false_iff_eq.mpr hl, decide_eq_false hi⟩

theorem dropLapsed_kept (h : ∀ p ∈ s.pending, s.lapsed p.2 = false) : s.dropLapsed = .ok s := by
  have hany : (s.pending.any fun p => s.lapsed p.2 && p.2.required) = false :=
    List.any_eq_false.mpr fun p hp => by
      rw [h p hp, Bool.false_and]
      decide
  have hfilter : (s.pending.filter fun p => !s.lapsed p.2) = s.pending :=
    List.filter_eq_self.mpr fun p hp => by
      rw [h p hp]
      rfl
  unfold dropLapsed
  refine (if_neg (show ¬ (s.pending.any fun p => s.lapsed p.2 && p.2.required) = true by
    rw [hany]; decide)).trans ?_
  exact congrArg (fun kept => Except.ok { s with pending := kept }) hfilter

theorem toNext_here (h : AtToken c) :
    (on y c ka).toNext = .ok ((on y c ka).unwind c.column) := by
  rw [toNext, skipToToken_here h]
  rfl

theorem unwind_none (h : y.indent ≤ k) : (on y c ka pending).unwind (k : Int) = on y c ka pending := by
  have hgo : ∀ indents : List Int, unwind.go (k : Int) indents (on y c ka pending)
      = on y c ka pending := by
    intro indents
    cases indents with
    | nil => rfl
    | cons outer indents =>
      exact if_neg (show ¬ (k : Int) < y.indent by omega)
  exact hgo y.indents

theorem unwind_leave {column outer inner : Int} {tokens : List Token} {indents : List Int}
    (h : column < inner) :
    (on ⟨tokens, inner, outer :: indents⟩ c ka).unwind column
      = (on ⟨.blockEnd :: tokens, outer, indents⟩ c ka).unwind column := if_pos h

/-- Out of a block that is indented more deeply than the next token. -/
theorem leads_leave {outer inner : Int} {tokens : List Token} {indents : List Int} (h : AtToken c)
    (hk : (c.column : Int) < inner) :
    Leads (on ⟨tokens, inner, outer :: indents⟩ c ka)
      (on ⟨.blockEnd :: tokens, outer, indents⟩ c ka) := by
  refine leads_toNext ?_ (Nat.le_refl _) (List.subset_cons_self _ _)
  rw [toNext_here h, toNext_here h, unwind_leave hk]

theorem leads_space {ch : Char} (h : isInline ch = true) (hs : ch ≠ ' ') (hh : ch ≠ '#') :
    Leads (on y ⟨' ' :: ch :: rest, i, l, k⟩ ka) (on y ⟨ch :: rest, i + 1, l, k + 1⟩ ka) := by
  have hat : AtToken ⟨ch :: rest, i + 1, l, k + 1⟩ := ⟨isBreak_inline h, hs, hh⟩
  have hskip : (Cursor.mk (' ' :: ch :: rest) i l k).skipSpaces = ⟨ch :: rest, i + 1, l, k + 1⟩ := by
    exact skipSpaces_run (n := 1) rfl (show (ch :: rest).head? ≠ some ' ' from fun e =>
      hs (Option.some.inj e))
  refine leads_toNext ?_ (Nat.le_succ _) (List.Subset.refl _)
  rw [toNext_here hat, toNext]
  show ((skipToToken _ _).dropLapsed.bind _) = _
  rw [skipToToken_succ, show (on y ⟨' ' :: ch :: rest, i, l, k⟩ ka).cursor.skipSpaces = _ from hskip,
    skipComment_none (c := ⟨ch :: rest, i + 1, l, k + 1⟩) hh]
  simp only [takeBreak?_none hat.notBreak]
  rfl

/-- A pending key that lapses with the line `l`, as it need not become a key. -/
def Lapses (l : Nat) (pending : List (Nat × PendingKey)) : Prop :=
  ∀ p ∈ pending, p.2.required = false ∧ p.2.line ≤ l

theorem dropLapsed_line (h : Lapses l pending) (hl : l < c.line) :
    (on y c ka pending).dropLapsed = .ok (on y c ka) := by
  have hlapsed : ∀ p ∈ pending, (on y c ka pending).lapsed p.2 = true := by
    intro p hp
    have hne : p.2.line ≠ c.line := by
      have := (h p hp).2
      omega
    unfold lapsed
    rw [show (p.2.line != (on y c ka pending).cursor.line) = true from bne_iff_ne.mpr hne,
      Bool.true_or]
  have hany : (pending.any fun p => (on y c ka pending).lapsed p.2 && p.2.required) = false :=
    List.any_eq_false.mpr fun p hp => by
      rw [(h p hp).1, Bool.and_false]
      decide
  have hfilter : (pending.filter fun p => !(on y c ka pending).lapsed p.2) = [] :=
    List.filter_eq_nil_iff.mpr fun p hp => by
      rw [hlapsed p hp]
      decide
  refine (if_neg (show ¬ (pending.any fun p =>
    (on y c ka pending).lapsed p.2 && p.2.required) = true by rw [hany]; decide)).trans ?_
  exact congrArg (fun kept => Except.ok (on y c ka kept)) hfilter

theorem skipToToken_line (h : Resumes k more) :
    (on y ⟨'\n' :: (List.replicate k ' ' ++ more), i, l, j⟩ ka pending).skipToToken (fuel + 2)
      = on y ⟨more, i + (k + 1), l + 1, k⟩ true pending := by
  have hat : AtToken ⟨more, i + (k + 1), l + 1, k⟩ := h.atToken
  have hskip : (Cursor.mk (List.replicate k ' ' ++ more) (i + 1) (l + 1) 0).skipSpaces
      = ⟨more, i + (k + 1), l + 1, k⟩ := by
    rw [h.skipSpaces, Nat.add_assoc, Nat.add_comm 1]
  have hbreak : (on y ⟨'\n' :: (List.replicate k ' ' ++ more), i, l, j⟩ ka pending).skipToToken (fuel + 2)
      = skipToToken (fuel + 1)
        (on y ⟨List.replicate k ' ' ++ more, i + 1, l + 1, 0⟩ (ka || true) pending) := by
    rw [skipToToken_succ]
    rfl
  rw [hbreak, skipToToken_succ, show (on y ⟨List.replicate k ' ' ++ more, i + 1, l + 1, 0⟩ (ka || true)
    pending).cursor.skipSpaces = _ from hskip, skipComment_none hat.notHash, Bool.or_true]
  simp only [takeBreak?_none hat.notBreak]
  rfl

/-- Over a line break, which allows a key and lets pending keys lapse. -/
theorem leads_line (h : Resumes k more) (hp : Lapses l pending) :
    Leads (on y ⟨'\n' :: (List.replicate k ' ' ++ more), i, l, j⟩ ka pending)
      (on y ⟨more, i + (k + 1), l + 1, k⟩ true) := by
  refine leads_toNext ?_ ?_ (List.Subset.refl _)
  · rw [toNext_here h.atToken, toNext]
    show ((skipToToken ((List.replicate k ' ' ++ more).length + 2) _).dropLapsed.bind _) = _
    rw [skipToToken_line h, dropLapsed_line hp (Nat.lt_succ_self l)]
    rfl
  · show more.length ≤ ('\n' :: (List.replicate k ' ' ++ more)).length
    rw [List.length_cons, List.length_append]
    omega

/-- Past a line break that a plain text has crossed already. -/
theorem leads_crossed (h : AtToken c) (hp : Lapses l pending) (hl : l < c.line) :
    Leads (on y c ka pending) (on y c ka) := by
  refine leads_toNext ?_ (Nat.le_refl _) (List.Subset.refl _)
  rw [toNext_here h, toNext, skipToToken_here h, dropLapsed_line hp hl]
  rfl

/-! ### Indicators -/

variable {r : List Char} {t opener : Token}

/-- What the scanner reads where a token stands in its block. -/
theorem step_here (h : AtToken c) (hk : y.indent ≤ c.column) :
    (on y c ka).step = (on y c ka).token := by
  rw [step, toNext_here h, unwind_none hk]
  rfl

/-- Tokens put in front of the last ones. -/
theorem insert_before {ts us : List Token} :
    (on (y.add ts) c ka pending).insert y.tokens.length us = on (y.add (us ++ ts)) c ka pending := by
  have hbehind : (ts.reverse ++ y.tokens).length - y.tokens.length = ts.reverse.length := by
    rw [List.length_append]
    omega
  unfold insert
  simp only [on, Layout.add, hbehind, List.take_left' rfl, List.drop_left' rfl]
  congr 1
  · rw [List.reverse_append]
  · simp only [List.length_append, List.length_reverse]
    omega

theorem openBlock_before {ts : List Token} {column : Nat} :
    (on (y.add ts) c ka).openBlock t column y.tokens.length
      = on ((y.enter t column).add ts) c ka := by
  unfold openBlock
  by_cases h : y.indent < column
  · rw [if_pos (show (on (y.add ts) c ka).indent < column from h), insert_before,
      Layout.enter_deeper h]
    simp only [on, Layout.add, List.singleton_append, List.reverse_cons, List.append_assoc]
  · rw [if_neg (show ¬ (on (y.add ts) c ka).indent < column from h), Layout.enter, if_neg h]

theorem blockIndicator_here {keyAfter : Bool} :
    (on y c true).blockIndicator t opener keyAfter
      = .ok (on ((y.enter opener c.column).add [t]) c.advance keyAfter) := by
  unfold blockIndicator
  show (do
    let s ← { (on (y.add []) c true).openBlock opener c.column y.tokens.length with
      keyAllowed := keyAfter }.dropPending
    return (s.emit t).skip 1) = _
  rw [openBlock_before]
  rfl

/-- What the scanner sees at an indicator with a blank after it. -/
theorem sees_indicator (y : Layout) (ka : Bool) (pending : List (Nat × PendingKey)) {ch d : Char}
    (hc : c.rest = ch :: d :: r) (hd : d = ' ' ∨ d = '\n') :
    (on y c ka pending).cursor.rest.isEmpty = false ∧ (on y c ka pending).cursor.head = ch
      ∧ (on y c ka pending).cursor.atSeparator = false
      ∧ isBlankOrEnd ((on y c ka pending).cursor.peek 1) = true := by
  refine ⟨?_, head_of_rest hc, ?_, ?_⟩
  · show c.rest.isEmpty = false
    rw [hc]
    rfl
  · rcases hd with rfl | rfl <;> exact atSeparator_of_second hc (by decide) (by decide)
  · rw [show (on y c ka pending).cursor.peek 1 = d from peek_one_of_rest hc]
    rcases hd with rfl | rfl <;> rfl

/-- The hyphen of a member of a list. -/
theorem step_dash (hc : c.rest = '-' :: ' ' :: r) (hk : y.indent ≤ c.column) :
    (on y c true).step
      = .ok (on ((y.enter .blockSequenceStart c.column).add [.blockEntry]) c.advance true, false) := by
  obtain ⟨hempty, hhead, hsep, hblank⟩ := sees_indicator y true [] hc (.inl rfl)
  rw [step_here (atToken_of_rest hc rfl (by decide) (by decide)) hk]
  unfold token
  simp only [hempty, hhead, hsep, hblank, Bool.and_false]
  show ((on y c true).blockIndicator .blockEntry .blockSequenceStart true).map (·, false) = _
  rw [blockIndicator_here]
  rfl

/-- The question mark of a key on a line of its own. -/
theorem step_question (hc : c.rest = '?' :: ' ' :: r) (hk : y.indent ≤ c.column) :
    (on y c true).step
      = .ok (on ((y.enter .blockMappingStart c.column).add [.key]) c.advance true, false) := by
  obtain ⟨hempty, hhead, hsep, hblank⟩ := sees_indicator y true [] hc (.inl rfl)
  rw [step_here (atToken_of_rest hc rfl (by decide) (by decide)) hk]
  unfold token
  simp only [hempty, hhead, hsep, hblank, Bool.and_false]
  show ((on y c true).blockIndicator .key .blockMappingStart true).map (·, false) = _
  rw [blockIndicator_here]
  rfl

/-- What the scanner reads at a colon with a blank after it. -/
theorem token_colon {d : Char} (hc : c.rest = ':' :: d :: r) (hd : d = ' ' ∨ d = '\n') :
    (on y c ka pending).token = ((on y c ka pending).valueIndicator).map (·, false) := by
  obtain ⟨hempty, hhead, hsep, hblank⟩ := sees_indicator y ka pending hc hd
  unfold token
  simp only [hempty, hhead, hsep, hblank, Bool.and_false]
  rfl

/-- The colon of a value whose key has a line of its own. -/
theorem step_colon (hc : c.rest = ':' :: ' ' :: r) (hk : y.indent ≤ c.column) :
    (on y c true).step
      = .ok (on ((y.enter .blockMappingStart c.column).add [.value]) c.advance true, false) := by
  rw [step_here (atToken_of_rest hc rfl (by decide) (by decide)) hk, token_colon hc (.inl rfl)]
  show ((on y c true).blockIndicator .value .blockMappingStart true).map (·, false) = _
  rw [blockIndicator_here]
  rfl

/-! ### Nodes of one token -/

/-- The pending key of a node that starts at a place. -/
def keyAt (y : Layout) (c : Cursor) : PendingKey :=
  ⟨y.tokens.length, y.indent == c.column, c.index, c.line, c.column⟩

/-- The pending keys after a node that starts at a place. -/
def keysAt (y : Layout) (c : Cursor) (ka : Bool) : List (Nat × PendingKey) :=
  if ka then [(0, keyAt y c)] else []

theorem savePending_on : (on y c ka).savePending = .ok (on y c ka (keysAt y c ka)) := by
  cases ka <;> rfl

theorem lapses_keysAt (h : y.indent < c.column) : Lapses c.line (keysAt y c ka) := by
  intro p hp
  cases ka with
  | false => exact absurd hp (List.not_mem_nil)
  | true =>
    rw [List.mem_singleton.mp hp]
    refine ⟨?_, Nat.le_refl _⟩
    show (y.indent == (c.column : Int)) = false
    exact beq_eq_false_iff_ne.mpr (by omega)

theorem nodeToken_on {read : Cursor → Except Fault (Token × Cursor)} {last : Cursor}
    (h : read c = .ok (t, last)) :
    (on y c ka).nodeToken read = .ok (on (y.add [t]) last false (keysAt y c ka)) := by
  unfold nodeToken
  rw [savePending_on]
  show ((read c).bind fun p => _) = _
  rw [h]
  rfl

/-- A text in quotes. -/
theorem step_quoted {double : Bool} {s : String} {last : Cursor}
    (hhead : c.head = if double then '"' else '\'') (hk : y.indent ≤ c.column)
    (h : quotedScalar double c = .ok (s, last)) :
    (on y c ka).step
      = .ok (on (y.add [.scalar s false]) last false (keysAt y c ka), false) := by
  have hat : AtToken c := by
    refine ⟨?_, ?_, ?_⟩ <;> rw [hhead] <;> cases double <;> decide
  have hempty : (on y c ka).cursor.rest.isEmpty = false := by
    show c.rest.isEmpty = false
    cases hr : c.rest with
    | nil =>
      rw [Cursor.head, hr] at hhead
      cases double <;> exact absurd hhead (by decide)
    | cons ch r => rfl
  have hsep : (on y c ka).cursor.atSeparator = false := by
    refine atSeparator_of_head (c := c) ?_ ?_ <;> rw [hhead] <;> cases double <;> decide
  have hread : (quotedScalar double c).map (fun r => (Token.scalar r.1 false, r.2))
      = .ok (.scalar s false, last) := by
    rw [h]
    rfl
  rw [step_here hat hk]
  unfold token
  cases double with
  | false =>
    simp only [hempty, show (on y c ka).cursor.head = '\'' from hhead, hsep, Bool.and_false]
    exact congrArg (Except.map (·, false)) (nodeToken_on hread)
  | true =>
    simp only [hempty, show (on y c ka).cursor.head = '"' from hhead, hsep, Bool.and_false]
    exact congrArg (Except.map (·, false)) (nodeToken_on hread)

/-- The characters that no plain text starts with, and those that one starts with only before a
character that is no blank. -/
def indicators : List Char :=
  ['-', '?', ':', ',', '[', ']', '\x7b', '\x7d', '#', '&', '*', '!', '|', '>', '\'', '"', '%', '@',
    '\x60']

/-- What the scanner reads where a text starts with no indicator. -/
theorem token_of_not_indicator {ch : Char} (hc : c.rest = ch :: r) (hcolumn : 0 < c.column)
    (hblank : isBlankOrEnd ch = false) (hch : ch ∉ indicators) :
    (on y c ka).token = ((on y c ka).plainToken).map (·, false) := by
  have hempty : (on y c ka).cursor.rest.isEmpty = false := by
    show c.rest.isEmpty = false
    rw [hc]
    rfl
  have hhead : (on y c ka).cursor.head = ch := head_of_rest hc
  have hzero : ((on y c ka).cursor.column == 0) = false := beq_eq_false_iff_ne.mpr (by
    show c.column ≠ 0
    omega)
  have hne : ∀ d ∈ indicators, (ch = d) = False := fun d hd => eq_false fun h => hch (h ▸ hd)
  have hset : indicators.contains ch = false := Bool.eq_false_iff.mpr fun h =>
    hch (List.contains_iff_mem.mp h)
  unfold token startsPlain
  simp only [hempty, hhead, hzero, hblank, hne '%' (by decide), hne '[' (by decide),
    hne ']' (by decide), hne '\x7b' (by decide), hne '\x7d' (by decide), hne ',' (by decide),
    hne '-' (by decide), hne '?' (by decide), hne ':' (by decide), hne '*' (by decide),
    hne '&' (by decide), hne '!' (by decide), hne '|' (by decide), hne '>' (by decide),
    hne '\'' (by decide), hne '"' (by decide)]
  rw [← indicators, hset]
  rfl

/-- What the scanner reads where a text starts with an indicator that no blank follows. -/
theorem token_of_joined {ch : Char} (hc : c.rest = ch :: r) (hcolumn : 0 < c.column)
    (hch : ch = '-' ∨ ch = '?' ∨ ch = ':') (hnext : isBlankOrEnd (r.headD endOfText) = false) :
    (on y c ka).token = ((on y c ka).plainToken).map (·, false) := by
  have hempty : (on y c ka).cursor.rest.isEmpty = false := by
    show c.rest.isEmpty = false
    rw [hc]
    rfl
  have hhead : (on y c ka).cursor.head = ch := head_of_rest hc
  have hzero : ((on y c ka).cursor.column == 0) = false := beq_eq_false_iff_ne.mpr (by
    show c.column ≠ 0
    omega)
  have hpeek : isBlankOrEnd ((on y c ka).cursor.peek 1) = false := by
    rw [show (on y c ka).cursor.peek 1 = r.headD endOfText from peek_one_of_rest hc]
    exact hnext
  unfold token startsPlain
  rcases hch with rfl | rfl | rfl <;> simp only [hempty, hhead, hzero, hpeek] <;> rfl

/-- What the scanner reads where a text stands that may be written plain. -/
theorem token_plain {ch : Char} {cs : List Char} (hform : allowsPlain (ch :: cs) = true)
    (hch : isInline ch = true) (hs : ch ≠ ' ') (hc : c.rest = ch :: r) (hcolumn : 0 < c.column)
    (hnext : ∀ d more, cs = d :: more → d ≠ ' ' → r.headD endOfText = d) :
    (on y c ka).token = ((on y c ka).plainToken).map (·, false) := by
  simp only [allowsPlain, Bool.not_eq_true', Bool.or_eq_false_iff] at hform
  obtain ⟨hset, hcolon⟩ := Bool.or_eq_false_iff.mp hform.1.1.1.1.1.2
  by_cases hjoined : ch = '-' ∨ ch = '?' ∨ ch = ':'
  · refine token_of_joined hc hcolumn hjoined ?_
    have hblank : isBlankOrEnd (cs.headD endOfText) = false := by
      rcases hjoined with rfl | rfl | rfl <;> exact hcolon
    cases cs with
    | nil => cases hblank
    | cons d more =>
      rw [hnext d more rfl (by rintro rfl; cases hblank)]
      exact hblank
  · refine token_of_not_indicator hc hcolumn (isBlankOrEnd_inline hch hs) fun hmem => ?_
    have hall : indicators.all (fun d => d ∈ ['-', '?', ':'] ∨ d ∈ ['#', ',', '[', ']', '\x7b', '\x7d',
        '&', '*', '!', '|', '>', '\'', '"', '%', '@', '\x60']) = true := by decide
    rcases of_decide_eq_true (List.all_eq_true.mp hall ch hmem) with h | h
    · simp only [List.mem_cons, List.not_mem_nil, or_false] at h
      exact hjoined h
    · rw [List.contains_iff_mem.mpr h] at hset
      cases hset

/-- A plain text. -/
theorem step_plain (ka : Bool) {s : String} {column j indent : Nat} {split crossed : Bool} {behind : List Char}
    (hform : allowsPlain s.toList = true) (hplain : PlainForm s.toList)
    (hends : Ends (y.indent + 1) behind crossed j)
    (hindent : split = true → 0 < indent ∧ y.indent + 1 ≤ indent)
    (hc : c.rest = plainText split indent column false s.toList ++ behind)
    (hk : y.indent ≤ c.column) (hcolumn : 0 < c.column) :
    (on y c ka).step
      = .ok (on (y.add [.scalar s true])
          (c.skip ((plainText split indent column false s.toList).length + j)) crossed
          (keysAt y c ka), false) := by
  obtain ⟨ch, cs, hcs, hs, hh⟩ := hplain.start
  have hch := hplain.chars ch (by rw [hcs]; exact List.mem_cons_self)
  have ht := plainText_start split indent column false cs hs
  rw [hcs] at hform
  have hrest : c.rest = ch :: (plainText split indent (column + 1) false cs ++ behind) := by
    rw [hc, hcs, ht]
    rfl
  have hnext : ∀ d more, cs = d :: more → d ≠ ' ' →
      (plainText split indent (column + 1) false cs ++ behind).headD endOfText = d := by
    rintro d more rfl hd
    rw [plainText_start split indent (column + 1) false more hd]
    rfl
  have hleast : y.indent + 1 ≤ (c.column : Int) + 1 := by omega
  have hread : plainScalar (on y c ka (keysAt y c ka)).inFlow
      ((on y c ka (keysAt y c ka)).indent + 1) (on y c ka (keysAt y c ka)).cursor = _ :=
    plainScalar_plain hends hindent hplain hc hleast
  rw [step_here (atToken_of_rest hrest hch hs hh) hk, token_plain hform hch hs hrest hcolumn hnext]
  unfold plainToken
  rw [savePending_on]
  simp only [bind, Except.bind, hread]
  rfl

/-! ### Texts that are no keys on one line -/

theorem length_skip_lt {n : Nat} {written behind : List Char} (hc : c.rest = written ++ behind)
    (hne : written ≠ []) (hn : written.length ≤ n) :
    (c.skip n).rest.length < c.rest.length := by
  have := List.length_pos_iff.mpr hne
  rw [rest_skip, List.length_drop, hc, List.length_append]
  omega

theorem text_ne_nil (key : Bool) (indent column : Nat) (s : String) : text key indent column s ≠ [] := by
  obtain ⟨ch, r, heq, -⟩ := text_start indent column s key
  rw [heq]
  exact fun h => nomatch h

/-- A part that is written up to the end of its line is passed over, and keys lapse behind it. -/
theorem skip_to_line (ka : Bool) {written : List Char}
    (hc : c.rest = written ++ '\n' :: (List.replicate k ' ' ++ more)) (hcolumn : y.indent < c.column) :
    ∃ i l j, c.skip written.length = ⟨'\n' :: (List.replicate k ' ' ++ more), i, l, j⟩
      ∧ Lapses l (keysAt y c ka) := by
  have hrest : (c.skip written.length).rest = '\n' :: (List.replicate k ' ' ++ more) := by
    rw [rest_skip, hc]
    exact List.drop_left' rfl
  have hline : c.line ≤ (c.skip written.length).line := line_skip_le _ c
  have hkeys : Lapses (c.skip written.length).line (keysAt y c ka) := fun p hp =>
    ⟨(lapses_keysAt hcolumn p hp).1, Nat.le_trans (lapses_keysAt hcolumn p hp).2 hline⟩
  generalize c.skip written.length = last at hrest hkeys
  obtain ⟨rest, i, l, j⟩ := last
  cases hrest
  exact ⟨i, l, j, rfl, hkeys⟩

/-- A text in quotes up to the end of its line. -/
theorem leads_quoted (double : Bool) {s : String} {written : List Char}
    (hc : c.rest = written ++ '\n' :: (List.replicate k ' ' ++ more)) (hne : written ≠ [])
    (hmore : Resumes k more) (hcolumn : y.indent < c.column)
    (hhead : c.head = if double then '"' else '\'')
    (hread : quotedScalar double c = .ok (s, c.skip written.length)) :
    ∃ i l, Leads (on y c ka) (on (y.add [.scalar s false]) ⟨more, i, l, k⟩ true) := by
  obtain ⟨i, l, j, hlast, hkeys⟩ := skip_to_line ka hc hcolumn
  have hstep : Leads (on y c ka) _ := leads_step (step_quoted hhead (Int.le_of_lt hcolumn) hread)
    (length_skip_lt hc hne (Nat.le_refl _))
  rw [hlast] at hstep
  exact ⟨i + (k + 1), l + 1, hstep.trans (leads_line hmore hkeys)⟩

/-- A plain text up to the end of its line.  What is read of it goes on to the start of the next line, since
the text could go on there. -/
theorem leads_plain {s : String} {indent column : Nat} (hform : allowsPlain s.toList = true)
    (hplain : PlainForm s.toList)
    (hc : c.rest = plainText true indent column false s.toList
      ++ '\n' :: (List.replicate k ' ' ++ more))
    (hne : plainText true indent column false s.toList ≠ []) (hmore : Resumes k more)
    (hk : (k : Int) ≤ y.indent) (hindent : y.indent < indent) (hcolumn : y.indent < c.column) :
    ∃ i l, Leads (on y c ka) (on (y.add [.scalar s true]) ⟨more, i, l, k⟩ true) := by
  obtain ⟨i, l, j, hlast, hkeys⟩ := skip_to_line ka hc hcolumn
  have hstep := leads_step (step_plain ka hform hplain (ends_line hmore (Int.lt_add_one_of_le hk))
      (fun _ => ⟨by omega, hindent⟩) hc (by omega) (by omega))
    (length_skip_lt hc hne (Nat.le_add_right _ _))
  rw [skip_add, hlast, skip_newLine] at hstep
  exact ⟨_, _, hstep.trans (leads_crossed hmore.atToken hkeys (Nat.lt_succ_self l))⟩

/-- **A text that is no key on one line.**  The next line is not indented more deeply than the block
that the text is in. -/
theorem leads_value {s : String} {indent column : Nat}
    (hc : c.rest = text false indent column s ++ '\n' :: (List.replicate k ' ' ++ more))
    (hmore : Resumes k more) (hk : (k : Int) ≤ y.indent) (hindent : y.indent < indent)
    (hwide : indent < width) (hcolumn : y.indent < c.column) :
    ∃ i l, Leads (on y c ka)
      (on (y.add [.scalar s (style false s = .plain)]) ⟨more, i, l, k⟩ true) := by
  have hpos : 0 < indent := by omega
  have hne := text_ne_nil false indent column s
  rcases style_cases false s with ⟨hs, hplain, hform, -⟩ | ⟨hs, hform⟩ | hs
  · have htext : text false indent column s = plainText true indent column false s.toList := by
      rw [text, hs]
      rfl
    rw [htext] at hc hne
    rw [decide_eq_true hs]
    exact leads_plain hform hplain hc hne hmore hk hindent hcolumn
  · have htext : text false indent column s
        = '\'' :: singleText true indent (column + 1) none s.toList := by
      rw [text, hs]
      rfl
    have hbehind : ('\n' :: (List.replicate k ' ' ++ more)).head? ≠ some '\'' := fun h => nomatch h
    rw [htext] at hc hne
    rw [hs]
    exact leads_quoted false hc hne hmore hcolumn (head_of_rest hc)
      (quotedScalar_single true indent (column + 1) hpos hbehind hform hc)
  · have htext : text false indent column s
        = '"' :: doubleText true indent (column + 1) true false s.toList := by
      rw [text, hs]
      rfl
    rw [htext] at hc hne
    rw [hs]
    exact leads_quoted true hc hne hmore hcolumn (head_of_rest hc)
      (quotedScalar_double true indent (column + 1) hpos hwide hc)

/-! ### Empty collections -/

/-- The two brackets of an empty list or mapping, with their tokens. -/
inductive Brackets : Char → Char → Token → Token → Prop where
  | list : Brackets '[' ']' .flowSequenceStart .flowSequenceEnd
  | map : Brackets '\x7b' '\x7d' .flowMappingStart .flowMappingEnd

/-- The scanner between the brackets of an empty collection that starts at the place `c₀`. -/
def inside (y : Layout) (c₀ c : Cursor) (ka : Bool) (t : Token) : Scanner :=
  { on (y.add [t]) c true (keysAt y c₀ ka) with flowLevel := 1 }

variable {opening closing : Char} {t' : Token} {c₀ : Cursor}

theorem step_opening (hb : Brackets opening closing t t') (hc : c.rest = opening :: r)
    (hk : y.indent ≤ c.column) :
    (on y c ka).step = .ok (inside y c c.advance ka t, false) := by
  have hempty : (on y c ka).cursor.rest.isEmpty = false := by
    show c.rest.isEmpty = false
    rw [hc]
    rfl
  have hhead : (on y c ka).cursor.head = opening := head_of_rest hc
  have hsep : (on y c ka).cursor.atSeparator = false := by
    refine atSeparator_of_head ?_ ?_ <;> rw [hhead] <;> cases hb <;> decide
  rw [step_here (by cases hb <;> exact atToken_of_rest hc rfl (by decide) (by decide)) hk]
  unfold token
  cases hb <;> simp only [hempty, hhead, hsep, Bool.and_false]
  · show ((openFlow .flowSequenceStart (on y c ka)).map (·, false)) = _
    rw [openFlow, savePending_on]
    rfl
  · show ((openFlow .flowMappingStart (on y c ka)).map (·, false)) = _
    rw [openFlow, savePending_on]
    rfl

theorem step_closing (hb : Brackets opening closing t t') (hc : c.rest = closing :: r)
    (hl : c₀.line = c.line) (hi : c.index = c₀.index + 1) :
    (inside y c₀ c ka t).step = .ok (on (y.add [t, t']) c.advance false (keysAt y c₀ ka), false) := by
  have hat : AtToken c := by cases hb <;> exact atToken_of_rest hc rfl (by decide) (by decide)
  have hdrop : (inside y c₀ c ka t).dropLapsed = .ok (inside y c₀ c ka t) := by
    refine dropLapsed_kept fun p hp => ?_
    cases ka with
    | false => exact absurd hp List.not_mem_nil
    | true =>
      rw [List.mem_singleton.mp hp]
      refine not_lapsed hl ?_
      show ¬ 1024 < c.index - c₀.index
      omega
  have hempty : (inside y c₀ c ka t).cursor.rest.isEmpty = false := by
    show c.rest.isEmpty = false
    rw [hc]
    rfl
  have hhead : (inside y c₀ c ka t).cursor.head = closing := head_of_rest hc
  have hsep : (inside y c₀ c ka t).cursor.atSeparator = false := by
    refine atSeparator_of_head ?_ ?_ <;> rw [hhead] <;> cases hb <;> decide
  rw [step, toNext, skipToToken_here hat, hdrop]
  show (token (inside y c₀ c ka t)) = _
  unfold token
  cases hb <;> simp only [hempty, hhead, hsep, Bool.and_false] <;> cases ka <;> rfl

/-- **An empty collection.** -/
theorem leads_empty (hb : Brackets opening closing t t') (hmore : Resumes k more)
    (hj : y.indent < j) :
    ∃ i' l', Leads (on y ⟨opening :: closing :: '\n' :: (List.replicate k ' ' ++ more), i, l, j⟩ ka)
      (on (y.add [t, t']) ⟨more, i', l', k⟩ true) := by
  refine ⟨i + 1 + 1 + (k + 1), l + 1, ?_⟩
  have hk : y.indent ≤ (j : Int) := by omega
  have hopen : (Cursor.mk (opening :: closing :: '\n' :: (List.replicate k ' ' ++ more)) i l j).advance
      = ⟨closing :: '\n' :: (List.replicate k ' ' ++ more), i + 1, l, j + 1⟩ := by
    cases hb <;> exact advance_inline _ _ _ _ rfl
  have hclose : (Cursor.mk (closing :: '\n' :: (List.replicate k ' ' ++ more)) (i + 1) l (j + 1)).advance
      = ⟨'\n' :: (List.replicate k ' ' ++ more), i + 1 + 1, l, j + 1 + 1⟩ := by
    cases hb <;> exact advance_inline _ _ _ _ rfl
  have hfirst : (on y ⟨opening :: closing :: '\n' :: (List.replicate k ' ' ++ more), i, l, j⟩ ka).step
      = _ := step_opening hb rfl hk
  rw [hopen] at hfirst
  refine (leads_step hfirst (Nat.lt_succ_self _)).trans ?_
  have hlast : (inside y ⟨opening :: closing :: '\n' :: (List.replicate k ' ' ++ more), i, l, j⟩
      ⟨closing :: '\n' :: (List.replicate k ' ' ++ more), i + 1, l, j + 1⟩ ka t).step = _ :=
    step_closing hb rfl rfl rfl
  rw [hclose] at hlast
  refine (leads_step hlast (Nat.lt_succ_self _)).trans ?_
  exact leads_line hmore (lapses_keysAt (by show y.indent < (j : Int); omega))

/-! ### Keys on one line -/

/-- The text of a key on one line. -/
theorem step_keyText {s : String} {indent column : Nat} {d : Char} (hs : isSimpleKey s = true)
    (hc : c.rest = text true indent column s ++ ':' :: d :: r) (hd : d = ' ' ∨ d = '\n')
    (hk : y.indent ≤ c.column) (hcolumn : 0 < c.column) :
    (on y c true).step = .ok (on (y.add [.scalar s (style true s = .plain)])
      (c.skip (text true indent column s).length) false [(0, keyAt y c)], false) := by
  have hblank : isBlankOrEnd d = true := by rcases hd with rfl | rfl <;> rfl
  have hbehind : (':' :: d :: r).head? ≠ some '\'' := fun h => nomatch h
  rw [show text true indent column s = text true 1 0 s from text_key hs] at hc ⊢
  rcases style_cases true s with ⟨hstyle, hplain, hform, -⟩ | ⟨hstyle, hform⟩ | hstyle
  · have htext : text true 1 0 s = plainText false 1 0 false s.toList := by
      rw [text, hstyle]
      rfl
    rw [htext] at hc ⊢
    have hunsplit : false = true → 0 < 1 ∧ y.indent + 1 ≤ (1 : Nat) := fun h => nomatch h
    rw [step_plain true hform hplain (ends_colon hblank) hunsplit hc hk hcolumn,
      decide_eq_true hstyle]
    rfl
  · have htext : text true 1 0 s = '\'' :: singleText false 1 1 none s.toList := by
      rw [text, hstyle]
      rfl
    rw [htext] at hc ⊢
    rw [step_quoted (head_of_rest hc) hk
      (quotedScalar_single false 1 1 Nat.one_pos hbehind hform hc), hstyle]
    rfl
  · have htext : text true 1 0 s = '"' :: doubleText false 1 1 true false s.toList := by
      rw [text, hstyle]
      rfl
    rw [htext] at hc ⊢
    rw [step_quoted (head_of_rest hc) hk
      (quotedScalar_double false 1 1 Nat.one_pos (by decide) hc), hstyle]
    rfl

variable {key : PendingKey}

theorem dropLapsed_fits (hl : key.line = c.line) (hi : ¬ 1024 < c.index - key.index) :
    (on y c ka [(0, key)]).dropLapsed = .ok (on y c ka [(0, key)]) := by
  refine dropLapsed_kept fun p hp => ?_
  rw [List.mem_singleton.mp hp]
  exact not_lapsed hl hi

theorem dropLapsed_long (hi : 1024 < c.index - key.index) :
    (on y c ka [(0, key)]).dropLapsed
      = if key.required then .error .malformed else .ok (on y c ka) := by
  have hlapsed : (on y c ka [(0, key)]).lapsed key = true := by
    unfold lapsed
    rw [show decide (1024 < (on y c ka [(0, key)]).cursor.index - key.index) = true from
      decide_eq_true hi, Bool.or_true]
  have hany : ([(0, key)].any fun p => (on y c ka [(0, key)]).lapsed p.2 && p.2.required)
      = key.required := by
    simp only [List.any_cons, List.any_nil, hlapsed, Bool.true_and, Bool.or_false]
  have hfilter : ([(0, key)].filter fun p => !(on y c ka [(0, key)]).lapsed p.2) = [] := by
    simp only [List.filter_cons, List.filter_nil, hlapsed, Bool.not_true]
    rfl
  unfold dropLapsed
  show (if ([(0, key)].any fun p => (on y c ka [(0, key)]).lapsed p.2 && p.2.required) = true
    then _ else Except.ok (on y c ka ([(0, key)].filter fun p =>
      !(on y c ka [(0, key)]).lapsed p.2))) = _
  rw [hany, hfilter]

/-- The colon after a key announces the key in front of it, and opens its mapping. -/
theorem valueIndicator_key {c₀ : Cursor} :
    (on (y.add [t]) c false [(0, keyAt y c₀)]).valueIndicator
      = .ok (on ((y.enter .blockMappingStart c₀.column).add [.key, t, .value]) c.advance false) := by
  have hinsert : ((on (y.add [t]) c false).insert y.tokens.length [.key]).openBlock
      .blockMappingStart c₀.column y.tokens.length
      = on ((y.enter .blockMappingStart c₀.column).add [.key, t]) c false := by
    rw [insert_before, openBlock_before]
    rfl
  unfold valueIndicator
  show Except.ok ((emit .value { ((on (y.add [t]) c false).insert y.tokens.length [.key]).openBlock
    .blockMappingStart c₀.column y.tokens.length with keyAllowed := false }).skip 1) = _
  rw [hinsert]
  rfl

section

variable {s : String} {indent column : Nat} {d : Char}

/-- The place of the colon after a key. -/
theorem at_colon (hs : isSimpleKey s = true)
    (hc : c.rest = text true indent column s ++ ':' :: d :: r) :
    c.skip (text true indent column s).length = ⟨':' :: d :: r, c.index + (text true 0 0 s).length,
      c.line, c.column + (text true 0 0 s).length⟩ := by
  obtain ⟨rest, i, l, k⟩ := c
  subst hc
  rw [skip_inline _ _ _ _ (inline_key hs), text_key hs]

/-- What the scanner reads at the colon after a key, whether or not the key has lapsed. -/
theorem step_afterKey (hc : c.rest = ':' :: d :: r) (hk : y.indent ≤ c.column)
    {kept : List (Nat × PendingKey)}
    (hdrop : (on y c false [(0, key)]).dropLapsed = .ok (on y c false kept)) :
    (on y c false [(0, key)]).step = (on y c false kept).token := by
  rw [step, toNext, skipToToken_here (atToken_of_rest hc rfl (by decide) (by decide)), hdrop]
  show ((on y c false kept).unwind c.column).token = _
  rw [unwind_none hk]

/-- **A key on one line.**  A key that is not too long is announced in front of its text. -/
theorem leads_key (hs : isSimpleKey s = true) (hfits : (text true 0 0 s).length ≤ 1024)
    (hc : c.rest = text true indent column s ++ ':' :: d :: r) (hd : d = ' ' ∨ d = '\n')
    (hk : y.indent ≤ c.column) (hcolumn : 0 < c.column) :
    Leads (on y c true) (on ((y.enter .blockMappingStart c.column).add
      [.key, .scalar s (style true s = .plain), .value])
      (c.skip ((text true indent column s).length + 1)) false) := by
  refine (leads_step (step_keyText hs hc hd hk hcolumn)
    (length_skip_lt hc (text_ne_nil true indent column s) (Nat.le_refl _))).trans ?_
  rw [skip_add, at_colon hs hc]
  refine leads_step ?_ (Nat.lt_succ_self _)
  rw [step_afterKey rfl (by simp only [Layout.indent_add]; omega) (dropLapsed_fits rfl (by
    show ¬ 1024 < c.index + (text true 0 0 s).length - c.index
    omega)), token_colon rfl hd, valueIndicator_key]
  rfl

/-- **A key that is too long.**  The pending key has lapsed at the colon, which then stands where no
value may. -/
theorem jams_key (hs : isSimpleKey s = true) (hlong : ¬ (text true 0 0 s).length ≤ 1024)
    (hc : c.rest = text true indent column s ++ ':' :: d :: r) (hd : d = ' ' ∨ d = '\n')
    (hk : y.indent ≤ c.column) (hcolumn : 0 < c.column) (hopen : y.Open) :
    Jams (on y c true) := by
  refine .more (step_keyText hs hc hd hk hcolumn)
    (length_skip_lt hc (text_ne_nil true indent column s) (Nat.le_refl _)) ?_
  rw [at_colon hs hc]
  have hlapse : 1024 < c.index + (text true 0 0 s).length - (keyAt y c).index := by
    show 1024 < c.index + (text true 0 0 s).length - c.index
    omega
  have hdrop : (on (y.add [.scalar s (style true s = .plain)]) ⟨':' :: d :: r,
      c.index + (text true 0 0 s).length, c.line, c.column + (text true 0 0 s).length⟩ false
      [(0, keyAt y c)]).dropLapsed = _ := dropLapsed_long hlapse
  refine .fault (f := .malformed) ?_ (hopen.add (by simp))
  cases hrequired : (keyAt y c).required with
  | true =>
    rw [hrequired, if_pos rfl] at hdrop
    rw [step, toNext, skipToToken_here (atToken_of_rest rfl rfl (by decide) (by decide)), hdrop]
    rfl
  | false =>
    rw [hrequired, if_neg (by decide)] at hdrop
    rw [step_afterKey rfl (by simp only [Layout.indent_add]; omega) hdrop, token_colon rfl hd]
    rfl

end

end Scanner

end SecretForge.Yaml
