import SecretForge.Proofs.Yaml.Scanner

/-!
# The tokens of a written tree

Scanning what is written for a tree yields the tokens of the tree, provided that each of its keys fits.
The scanner goes over the tree as writing does: over a node after its indicator, over the members of a
list, over the entries of a mapping.  Where a key does not fit, it jams there.

* `Tree.tokens`, `Tree.KeysFit`, `Tree.height` — what a tree is scanned to, and when.
* `Passes` — a part of the text is passed over if it is good, and else the scanner jams there.
* `Passes.behind_key`, `passes_list`, `passes_map` — a part, if what is inside of it is passed over.
* `passes_after` — a node inside its block, by induction on the tree.
* **`ofText_list`** — a whole document that holds a list.
-/

namespace SecretForge

namespace Tree

open Yaml

mutual

/-- The tokens of a tree, which may come after a key on its line. -/
def tokens (afterKey : Bool) : Tree → List Token
  | .text s => [.scalar s (Render.style false s = .plain)]
  | .list [] => [.flowSequenceStart, .flowSequenceEnd]
  | .list (t :: ts) =>
    if afterKey then itemTokens (t :: ts)
    else .blockSequenceStart :: (itemTokens (t :: ts) ++ [.blockEnd])
  | .map [] => [.flowMappingStart, .flowMappingEnd]
  | .map (e :: es) => .blockMappingStart :: (entryTokens (e :: es) ++ [.blockEnd])

def itemTokens : List Tree → List Token
  | [] => []
  | t :: ts => .blockEntry :: (tokens false t ++ itemTokens ts)

def entryTokens : List (String × Tree) → List Token
  | [] => []
  | (k, t) :: es =>
    .key :: .scalar k (Render.style (Render.isSimpleKey k) k = .plain) :: .value
      :: (tokens (Render.isSimpleKey k) t ++ entryTokens es)

end

mutual

def KeysFit : Tree → Prop
  | .text _ => True
  | .list ts => ItemsFit ts
  | .map es => EntriesFit es

def ItemsFit : List Tree → Prop
  | [] => True
  | t :: ts => KeysFit t ∧ ItemsFit ts

/-- `KeysFit` for every entry of a mapping, and its key. -/
def EntriesFit : List (String × Tree) → Prop
  | [] => True
  | (k, t) :: es => KeyFits k ∧ KeysFit t ∧ EntriesFit es

end

mutual

/-- The number of collections around the innermost node of a tree. -/
def height : Tree → Nat
  | .text _ => 0
  | .list ts => itemsHeight ts + 1
  | .map es => entriesHeight es + 1

def itemsHeight : List Tree → Nat
  | [] => 0
  | t :: ts => max (height t) (itemsHeight ts)

def entriesHeight : List (String × Tree) → Nat
  | [] => 0
  | (_, t) :: es => max (height t) (entriesHeight es)

end

theorem itemsFit_iff {ts : List Tree} : ItemsFit ts ↔ ∀ t ∈ ts, t.KeysFit := by
  induction ts with
  | nil => exact ⟨fun _ _ ht => absurd ht List.not_mem_nil, fun _ => trivial⟩
  | cons t ts ih => rw [ItemsFit, List.forall_mem_cons, ih]

theorem entriesFit_iff {es : List (String × Tree)} :
    EntriesFit es ↔ ∀ e ∈ es, KeyFits e.1 ∧ e.2.KeysFit := by
  induction es with
  | nil => exact ⟨fun _ _ he => absurd he List.not_mem_nil, fun _ => trivial⟩
  | cons e es ih => rw [EntriesFit, List.forall_mem_cons, ih, and_assoc]

theorem itemsHeight_le {ts : List Tree} {n : Nat} (h : ∀ t ∈ ts, t.height ≤ n) :
    itemsHeight ts ≤ n := by
  induction ts with
  | nil => exact Nat.zero_le n
  | cons t ts ih =>
    rw [List.forall_mem_cons] at h
    exact Nat.max_le.mpr ⟨h.1, ih h.2⟩

theorem entriesHeight_le {es : List (String × Tree)} {n : Nat} (h : ∀ e ∈ es, e.2.height ≤ n) :
    entriesHeight es ≤ n := by
  induction es with
  | nil => exact Nat.zero_le n
  | cons e es ih =>
    rw [List.forall_mem_cons] at h
    exact Nat.max_le.mpr ⟨h.1, ih h.2⟩

mutual

theorem streamEnd_not_mem_tokens (afterKey : Bool) (t : Tree) :
    Token.streamEnd ∉ t.tokens afterKey := by
  cases t with
  | text s => rw [tokens]; simp
  | list ts =>
    cases ts with
    | nil => rw [tokens]; simp
    | cons t ts =>
      have h := streamEnd_not_mem_itemTokens (t :: ts)
      rw [tokens]
      split
      · exact h
      · simp [h]
  | map es =>
    cases es with
    | nil => rw [tokens]; simp
    | cons e es =>
      have h := streamEnd_not_mem_entryTokens (e :: es)
      rw [tokens]
      simp [h]

theorem streamEnd_not_mem_itemTokens (ts : List Tree) : Token.streamEnd ∉ itemTokens ts := by
  cases ts with
  | nil => rw [itemTokens]; simp
  | cons t ts =>
    rw [itemTokens]
    simp [streamEnd_not_mem_tokens false t, streamEnd_not_mem_itemTokens ts]

theorem streamEnd_not_mem_entryTokens (es : List (String × Tree)) :
    Token.streamEnd ∉ entryTokens es := by
  match es with
  | [] => rw [entryTokens]; simp
  | (k, t) :: es =>
    rw [entryTokens]
    simp [streamEnd_not_mem_tokens _ t, streamEnd_not_mem_entryTokens es]

end

end Tree

namespace Yaml

open SecretForge.Text Cursor Render Scanner

/-! ### Passing over a part of the text -/

/-- Scanning from a state passes over a part of the text if it is good, and else jams.  Then `more`
comes, at the column `k` of its line. -/
def Passes (s : Scanner) (good : Prop) (y : Layout) (more : List Char) (k : Nat) : Prop :=
  (good → ∃ i l, Leads s (on y ⟨more, i, l, k⟩ true)) ∧ (¬ good → Jams s)

section

variable {s s' : Scanner} {good good' : Prop} {y y' : Layout} {more more' : List Char} {k k' : Nat}

theorem Passes.of_leads (h : Leads s s') (hp : Passes s' good y more k) : Passes s good y more k :=
  ⟨fun hg => let ⟨i, l, hl⟩ := hp.1 hg; ⟨i, l, h.trans hl⟩, fun hb => h.jams (hp.2 hb)⟩

theorem passes_leads (h : ∃ i l, Leads s (on y ⟨more, i, l, k⟩ true)) : Passes s True y more k :=
  ⟨fun _ => h, fun hb => absurd trivial hb⟩

/-- One part after another. -/
theorem Passes.next (h : Passes s good y more k)
    (h' : ∀ i l, Passes (on y ⟨more, i, l, k⟩ true) good' y' more' k') :
    Passes s (good ∧ good') y' more' k' := by
  refine ⟨fun hg => ?_, fun hb => ?_⟩
  · obtain ⟨i, l, hl⟩ := h.1 hg.1
    obtain ⟨i', l', hl'⟩ := (h' i l).1 hg.2
    exact ⟨i', l', hl.trans hl'⟩
  · by_cases hg : good
    · obtain ⟨i, l, hl⟩ := h.1 hg
      exact hl.jams ((h' i l).2 fun hg' => hb ⟨hg, hg'⟩)
    · exact h.2 hg

end

/-- Out of the block of a collection, when the next line is not part of it. -/
theorem Passes.leave {s : Scanner} {good : Prop} {y : Layout} {more : List Char} {k indent : Nat}
    {t : Token} {ts : List Token} (h : Passes s good ((y.enter t indent).add ts) more k)
    (hmore : Resumes k more) (hy : y.indent < indent) (hk : k < indent) :
    Passes s good (y.add (t :: (ts ++ [.blockEnd]))) more k := by
  refine ⟨fun hg => ?_, h.2⟩
  obtain ⟨i, l, hl⟩ := h.1 hg
  rw [Layout.enter_deeper hy] at hl
  have hleave : Leads (on ⟨ts.reverse ++ t :: y.tokens, indent, y.indent :: y.indents⟩
      ⟨more, i, l, k⟩ true) _ := leads_leave hmore.atToken (by show (k : Int) < indent; omega)
  refine ⟨i, l, hl.trans ?_⟩
  unfold Layout.add
  rw [List.reverse_cons, List.reverse_append, List.append_assoc]
  exact hleave

/-! ### What stands where -/

theorem after_space (indent column : Nat) (t : Tree) :
    ∃ r, after indent column false t = ' ' :: r := by
  unfold after
  cases t with
  | text s => exact ⟨_, rfl⟩
  | list ts =>
    cases ts with
    | nil => exact ⟨_, rfl⟩
    | cons t ts => exact ⟨_, rfl⟩
  | map es =>
    match es with
    | [] => exact ⟨_, rfl⟩
    | (k, t) :: es => exact ⟨_, rfl⟩

theorem after_start (indent column : Nat) (t : Tree) :
    ∃ d r, after indent column true t = d :: r ∧ (d = ' ' ∨ d = '\n') := by
  unfold after
  cases t with
  | text s => exact ⟨_, _, rfl, .inl rfl⟩
  | list ts =>
    cases ts with
    | nil => exact ⟨_, _, rfl, .inl rfl⟩
    | cons t ts => exact ⟨_, _, rfl, .inr rfl⟩
  | map es =>
    match es with
    | [] => exact ⟨_, _, rfl, .inl rfl⟩
    | (k, t) :: es => exact ⟨_, _, rfl, .inr rfl⟩

theorem items_cons (indent : Nat) (gap : List Char) (t : Tree) (ts : List Tree) :
    items indent gap (t :: ts) = gap ++ items indent [] (t :: ts) := by
  rw [items, items, List.append_assoc, List.append_assoc]
  rfl

theorem entries_cons (indent : Nat) (gap : List Char) (e : String × Tree)
    (es : List (String × Tree)) :
    entries indent gap (e :: es) = gap ++ entries indent [] (e :: es) := by
  obtain ⟨k, t⟩ := e
  rw [entries, entries, List.append_assoc, List.append_assoc]
  rfl

/-- What comes after a member: the next line, of this collection or of one around it. -/
def lineBreak (k : Nat) (more : List Char) : List Char := '\n' :: (List.replicate k ' ' ++ more)

theorem newLine_append (k : Nat) (more : List Char) : newLine k ++ more = lineBreak k more := rfl

theorem resumes_dash (k indent column : Nat) (t : Tree) (r : List Char) :
    Resumes k ('-' :: (after indent column false t ++ r)) := by
  obtain ⟨u, hu⟩ := after_space indent column t
  refine .inr ⟨⟨'-', _, rfl, rfl, by decide, by decide⟩, fun _ i l => ?_⟩
  rw [hu]
  exact atSeparator_of_second rfl (by decide) (by decide)

/-! ### The parts of a tree -/

section

variable {y : Layout} {c : Cursor} {more : List Char} {k : Nat}

/-- From a space to the token after it. -/
theorem leads_blank {ka : Bool} {ch : Char} {r : List Char} (hc : c.rest = ' ' :: ch :: r)
    (h : isInline ch = true) (hs : ch ≠ ' ') (hh : ch ≠ '#') :
    Leads (on y c ka) (on y ⟨ch :: r, c.index + 1, c.line, c.column + 1⟩ ka) := by
  obtain ⟨rest, i, l, j⟩ := c
  subst hc
  exact leads_space h hs hh

theorem leads_after_text (ka : Bool) {indent column : Nat} {s : String}
    (hy : y.indent = (indent : Int)) (hwide : indent + 2 < width) (hmore : Resumes k more) (hk : k ≤ indent) (hcolumn : indent < c.column)
    (hc : c.rest = ' ' :: text false (indent + 2) column s ++ lineBreak k more) :
    ∃ i l, Leads (on y c ka)
      (on (y.add [.scalar s (style false s = .plain)]) ⟨more, i, l, k⟩ true) := by
  obtain ⟨ch, r, htext, hch, hs, hh⟩ := text_start (indent + 2) column s false
  have hblank : c.rest = ' ' :: ch :: (r ++ lineBreak k more) := by
    rw [hc, htext]
    rfl
  obtain ⟨i, l, hl⟩ := leads_value (y := y) (c := ⟨ch :: (r ++ lineBreak k more), c.index + 1, c.line,
    c.column + 1⟩) (s := s) (k := k) (by rw [htext]; rfl) hmore (by omega)
    (show y.indent < ((indent + 2 : Nat) : Int) by omega) hwide
    (show y.indent < ((c.column + 1 : Nat) : Int) by omega)
  exact ⟨i, l, (leads_blank hblank hch hs hh).trans hl⟩

theorem after_items (indent column : Nat) (afterKey : Bool) (t : Tree) (ts : List Tree) :
    after indent column afterKey (.list (t :: ts))
      = if afterKey then newLine indent ++ items indent [] (t :: ts)
        else ' ' :: items (indent + 2) [] (t :: ts) := by
  rw [after, items_cons indent (newLine indent), items_cons (indent + 2) [' ']]
  rfl

theorem after_entries (indent column : Nat) (afterKey : Bool) (e : String × Tree)
    (es : List (String × Tree)) :
    after indent column afterKey (.map (e :: es))
      = if afterKey then newLine (indent + 2) ++ entries (indent + 2) [] (e :: es)
        else ' ' :: entries (indent + 2) [] (e :: es) := by
  rw [after, entries_cons (indent + 2) (newLine (indent + 2)), entries_cons (indent + 2) [' ']]
  rfl

theorem items_start (indent : Nat) (t : Tree) (ts : List Tree) :
    items indent [] (t :: ts)
      = '-' :: (after indent (indent + 1) false t ++ items indent (newLine indent) ts) := by
  rw [items]
  rfl

theorem entries_simple {indent : Nat} {s : String} {t : Tree} {es : List (String × Tree)}
    (hs : isSimpleKey s = true) :
    entries indent [] ((s, t) :: es) = text true (indent + 2) indent s
      ++ ':' :: (after indent (indent + (text true (indent + 2) indent s).length + 1) true t
        ++ entries indent (newLine indent) es) := by
  rw [entries]
  simp only [hs, if_true, List.nil_append, List.append_assoc, List.cons_append]

theorem entries_question {indent : Nat} {s : String} {t : Tree} {es : List (String × Tree)}
    (hs : isSimpleKey s = false) :
    entries indent [] ((s, t) :: es) = '?' :: ' ' :: (text false (indent + 2) (indent + 2) s
      ++ lineBreak indent (':' :: (after indent (indent + 1) false t
        ++ entries indent (newLine indent) es))) := by
  rw [entries]
  simp only [hs, Bool.false_eq_true, if_false, List.nil_append, List.append_assoc, List.cons_append,
    newLine_append]
  rw [← newLine_append, List.append_assoc]
  rfl

/-- The entries of a mapping start with a key or with a question mark. -/
theorem entries_start (indent : Nat) (e : String × Tree) (es : List (String × Tree)) :
    ∃ ch r, entries indent [] (e :: es) = ch :: r ∧ isInline ch = true ∧ ch ≠ ' ' ∧ ch ≠ '#' := by
  obtain ⟨k, t⟩ := e
  rw [entries]
  simp only
  split
  · obtain ⟨ch, r, htext, h⟩ := text_start (indent + 2) indent k true
    rw [htext]
    exact ⟨ch, _, rfl, h⟩
  · exact ⟨'?', _, rfl, rfl, by decide, by decide⟩

theorem resumes_entries {indent : Nat} (hpos : 0 < indent) (e : String × Tree)
    (es : List (String × Tree)) (r : List Char) :
    Resumes indent (entries indent [] (e :: es) ++ r) := by
  obtain ⟨ch, u, heq, h⟩ := entries_start indent e es
  exact .inr ⟨⟨ch, u ++ r, by rw [heq]; rfl, h⟩, fun hz => absurd hz (by omega)⟩

theorem resumes_items (indent : Nat) (t : Tree) (ts : List Tree) (r : List Char) :
    Resumes indent (items indent [] (t :: ts) ++ r) := by
  rw [items_start, List.cons_append, List.append_assoc]
  exact resumes_dash _ _ _ _ _

theorem leads_lineBreak {ka : Bool} (hmore : Resumes k more) (hc : c.rest = lineBreak k more) :
    ∃ i l, Leads (on y c ka) (on y ⟨more, i, l, k⟩ true) := by
  obtain ⟨rest, i, l, j⟩ := c
  subst hc
  exact ⟨_, _, leads_line hmore fun p hp => absurd hp List.not_mem_nil⟩

theorem leads_after_empty {ka : Bool} {opening closing : Char} {t t' : Token}
    (hb : Brackets opening closing t t') (hmore : Resumes k more) (hcolumn : y.indent < c.column)
    (hc : c.rest = ' ' :: opening :: closing :: lineBreak k more) :
    ∃ i l, Leads (on y c ka) (on (y.add [t, t']) ⟨more, i, l, k⟩ true) := by
  obtain ⟨i, l, hl⟩ := leads_empty hb hmore (show y.indent < ((c.column + 1 : Nat) : Int) by omega)
  have hstart : isInline opening = true ∧ opening ≠ ' ' ∧ opening ≠ '#' := by
    cases hb <;> exact ⟨rfl, by decide, by decide⟩
  exact ⟨i, l, (leads_blank hc hstart.1 hstart.2.1 hstart.2.2).trans hl⟩

/-- Past an indicator of a block. -/
theorem leads_indicator {ch : Char} {r : List Char} {t opener : Token} (hc : c.rest = ch :: r)
    (hch : isInline ch = true) (h : (on y c true).step
      = .ok (on ((y.enter opener c.column).add [t]) c.advance true, false)) :
    Leads (on y c true) (on ((y.enter opener c.column).add [t])
      ⟨r, c.index + 1, c.line, c.column + 1⟩ true) := by
  obtain ⟨rest, i, l, j⟩ := c
  subst hc
  rw [advance_inline _ _ _ _ hch] at h
  exact leads_step h (Nat.lt_succ_self _)

variable {indent : Nat} {s : String} {r : List Char}

/-- A key on one line, with its colon. -/
theorem passes_key {d : Char} (hs : isSimpleKey s = true) (hd : d = ' ' ∨ d = '\n')
    (hy : y.indent ≤ c.column) (hopen : y.Open) (hpos : 0 < c.column)
    (hc : c.rest = text true (indent + 2) indent s ++ ':' :: d :: r) :
    (KeyFits s → ∃ i l j, c.column < j ∧ Leads (on y c true)
      (on ((y.enter .blockMappingStart c.column).add
          [.key, .scalar s (style true s = .plain), .value]) ⟨d :: r, i, l, j⟩ false))
      ∧ (¬ KeyFits s → Jams (on y c true)) := by
  refine ⟨fun hfits => ?_, fun hlong => ?_⟩
  · have hl := leads_key hs (hfits hs) hc hd hy hpos
    rw [skip_add, at_colon hs hc, Cursor.skip, Cursor.skip, advance_inline _ _ _ _ rfl] at hl
    exact ⟨_, _, _, by omega, hl⟩
  · exact jams_key hs (fun h => hlong fun _ => h) hc hd hy hpos hopen

/-- Past the colon of a value whose key has a line of its own. -/
theorem leads_colon (hc : c.rest = ':' :: ' ' :: r) (hy : y.indent = c.column) :
    Leads (on y c true) (on (y.add [.value]) ⟨' ' :: r, c.index + 1, c.line, c.column + 1⟩ true) := by
  have h : Leads (on y c true) _ := leads_indicator hc rfl (step_colon hc (by omega))
  rwa [Layout.enter_same hy] at h

/-- A key on a line of its own, with the colon on the next line. -/
theorem leads_question (hy : y.indent ≤ indent) (hwide : indent + 2 < width)
    (hcolumn : c.column = indent)
    (hc : c.rest = '?' :: ' ' :: (text false (indent + 2) (indent + 2) s
      ++ lineBreak indent (':' :: ' ' :: r))) :
    ∃ i l, Leads (on y c true)
      (on ((y.enter .blockMappingStart indent).add
          [.key, .scalar s (style false s = .plain), .value])
        ⟨' ' :: r, i, l, indent + 1⟩ true) := by
  have hlevel : (y.enter .blockMappingStart indent).indent = indent := Layout.indent_enter hy
  have hcolon : Resumes indent (':' :: ' ' :: r) :=
    .inr ⟨⟨':', _, rfl, rfl, by decide, by decide⟩, fun _ i l =>
      atSeparator_of_second rfl (by decide) (by decide)⟩
  have hquestion : Leads (on y c true) _ := leads_indicator hc rfl (step_question hc (by omega))
  rw [hcolumn] at hquestion
  obtain ⟨i, l, htext⟩ := leads_after_text true
    (y := (y.enter .blockMappingStart indent).add [.key])
    (c := ⟨' ' :: text false (indent + 2) (indent + 2) s ++ lineBreak indent (':' :: ' ' :: r),
      c.index + 1, c.line, indent + 1⟩) hlevel hwide hcolon (Nat.le_refl _) (Nat.lt_succ_self indent) rfl
  exact ⟨_, _, hquestion.trans (htext.trans (leads_colon (c := ⟨_, i, l, indent⟩) rfl hlevel))⟩

/-- A key on one line and what is behind its colon. -/
theorem Passes.behind_key {t : Tree} {good : Prop} {y' : Layout} {column : Nat}
    (hs : isSimpleKey s = true) (hy : y.indent ≤ indent) (hopen : y.Open) (hpos : 0 < indent)
    (hcolumn : c.column = indent)
    (hc : c.rest = text true (indent + 2) indent s ++ ':' :: (after indent column true t ++ r))
    (hvalue : ∀ i l j, indent < j → Passes (on ((y.enter .blockMappingStart indent).add
      [.key, .scalar s (style true s = .plain), .value]) ⟨after indent column true t ++ r, i, l, j⟩
      false) good y' more k) :
    Passes (on y c true) (KeyFits s ∧ good) y' more k := by
  obtain ⟨d, u, hu, hd⟩ := after_start indent column t
  simp only [hu, List.cons_append] at hc hvalue
  have hkey := passes_key hs hd (by omega) hopen (by omega) hc
  rw [hcolumn] at hkey
  by_cases hfits : KeyFits s
  · obtain ⟨i, l, j, hj, hl⟩ := hkey.1 hfits
    rw [and_iff_right hfits]
    exact (hvalue i l j hj).of_leads hl
  · exact ⟨fun hg => absurd hg.1 hfits, fun _ => hkey.2 hfits⟩

/-- A key on a line of its own and what is behind the colon on the next line. -/
theorem Passes.behind_question {t : Tree} {good : Prop} {y' : Layout} {column : Nat}
    (hs : isSimpleKey s = false) (hy : y.indent ≤ indent) (hwide : indent + 2 < width)
    (hcolumn : c.column = indent)
    (hc : c.rest = '?' :: ' ' :: (text false (indent + 2) (indent + 2) s
      ++ lineBreak indent (':' :: (after indent column false t ++ r))))
    (hvalue : ∀ i l, Passes (on ((y.enter .blockMappingStart indent).add
      [.key, .scalar s (style false s = .plain), .value])
      ⟨after indent column false t ++ r, i, l, indent + 1⟩ true) good y' more k) :
    Passes (on y c true) (KeyFits s ∧ good) y' more k := by
  have hfits : KeyFits s := fun h => absurd (hs.symm.trans h) (by decide)
  obtain ⟨u, hu⟩ := after_space indent column t
  simp only [hu, List.cons_append] at hc hvalue
  obtain ⟨i, l, hl⟩ := leads_question hy hwide hcolumn hc
  rw [and_iff_right hfits]
  exact (hvalue i l).of_leads hl

/-- A list of some members in its place: behind a key it starts on the next line, at the column of the
key, and behind a hyphen on the same line. -/
theorem passes_list {column : Nat} {afterKey : Bool} {t : Tree} {ts : List Tree}
    (hy : y.indent = (indent : Int)) (hmore : Resumes k more) (hk : k ≤ indent)
    (hline : afterKey = false → c.column = indent + 1)
    (hc : c.rest = after indent column afterKey (.list (t :: ts)) ++ lineBreak k more)
    (hitems : ∀ i l j, indent ≤ j → j ≤ indent + 2 →
      Passes (on y ⟨items j [] (t :: ts) ++ lineBreak k more, i, l, j⟩ true)
        (Tree.ItemsFit (t :: ts)) ((y.enter .blockSequenceStart j).add (Tree.itemTokens (t :: ts)))
        more k) :
    Passes (on y c (!afterKey)) (Tree.list (t :: ts)).KeysFit
      (y.add ((Tree.list (t :: ts)).tokens afterKey)) more k := by
  rw [after_items] at hc
  rw [Tree.KeysFit, Tree.tokens]
  cases afterKey with
  | true =>
    rw [if_pos rfl, List.append_assoc, newLine_append] at hc
    obtain ⟨i, l, hl⟩ := leads_lineBreak (resumes_items indent t ts _) hc
    have hmembers := hitems i l indent (Nat.le_refl _) (by omega)
    rw [Layout.enter_same hy] at hmembers
    exact hmembers.of_leads hl
  | false =>
    have hstart : c.rest = ' ' :: '-' :: (after (indent + 2) (indent + 3) false t
        ++ items (indent + 2) (newLine (indent + 2)) ts ++ lineBreak k more) := by
      rw [hc, items_start]
      rfl
    have hmembers := hitems (c.index + 1) c.line (indent + 2) (by omega) (Nat.le_refl _)
    have hl : Leads (on y c true) _ := leads_blank hstart rfl (by decide) (by decide)
    rw [hline rfl] at hl
    rw [items_start] at hmembers
    exact Passes.of_leads hl (hmembers.leave hmore (by omega) (by omega))

/-- A mapping of some entries in its place: behind a key it starts on the next line, two columns
further in, and behind a hyphen on the same line. -/
theorem passes_map {column : Nat} {afterKey : Bool} {e : String × Tree} {es : List (String × Tree)}
    (hy : y.indent = (indent : Int)) (hmore : Resumes k more) (hk : k ≤ indent)
    (hline : afterKey = false → c.column = indent + 1)
    (hc : c.rest = after indent column afterKey (.map (e :: es)) ++ lineBreak k more)
    (hentries : ∀ i l, Passes (on y ⟨entries (indent + 2) [] (e :: es) ++ lineBreak k more, i, l,
        indent + 2⟩ true) (Tree.EntriesFit (e :: es)) ((y.enter .blockMappingStart
          (indent + 2 : Nat)).add (Tree.entryTokens (e :: es))) more k) :
    Passes (on y c (!afterKey)) (Tree.map (e :: es)).KeysFit
      (y.add ((Tree.map (e :: es)).tokens afterKey)) more k := by
  rw [after_entries] at hc
  rw [Tree.KeysFit, Tree.tokens]
  have hblock (i l : Nat) := (hentries i l).leave hmore (by omega) (by omega)
  cases afterKey with
  | true =>
    rw [if_pos rfl, List.append_assoc, newLine_append] at hc
    obtain ⟨i, l, hl⟩ := leads_lineBreak (resumes_entries (Nat.succ_pos _) e es _) hc
    exact (hblock i l).of_leads hl
  | false =>
    obtain ⟨ch, r, heq, hch, hs, hh⟩ := entries_start (indent + 2) e es
    have hblank : c.rest = ' ' :: ch :: (r ++ lineBreak k more) := by
      rw [hc, heq]
      rfl
    have hl : Leads (on y c true) _ := leads_blank hblank hch hs hh
    have hstart := hblock (c.index + 1) c.line
    rw [heq] at hstart
    rw [hline rfl] at hl
    exact hstart.of_leads hl

end

mutual

/-- **A node inside its block.**  It is passed over exactly if its keys fit. -/
theorem passes_after {y : Layout} {c : Cursor} {more : List Char} {k indent column : Nat}
    (afterKey : Bool) (t : Tree)
    (hy : y.indent = (indent : Int)) (hopen : y.Open) (hwide : indent + 2 * t.height + 2 < width)
    (hmore : Resumes k more) (hk : k ≤ indent) (hcolumn : indent < c.column)
    (hline : afterKey = false → c.column = indent + 1)
    (hc : c.rest = after indent column afterKey t ++ lineBreak k more) :
    Passes (on y c (!afterKey)) t.KeysFit (y.add (t.tokens afterKey)) more k := by
  have hcolumn' : y.indent < c.column := by omega
  match t with
  | .text s =>
    rw [after] at hc
    rw [Tree.KeysFit, Tree.tokens]
    exact passes_leads
      (leads_after_text _ hy (by rw [Tree.height] at hwide; omega) hmore hk hcolumn hc)
  | .list [] =>
    rw [after] at hc
    exact passes_leads (leads_after_empty .list hmore hcolumn' hc)
  | .map [] =>
    rw [after] at hc
    exact passes_leads (leads_after_empty .map hmore hcolumn' hc)
  | .list (t :: ts) =>
    rw [Tree.height] at hwide
    exact passes_list hy hmore hk hline hc fun i l j hj hwithin =>
      passes_items t ts (by omega) hopen (by omega) hmore (by omega) rfl rfl
  | .map (e :: es) =>
    rw [Tree.height] at hwide
    exact passes_map hy hmore hk hline hc fun i l =>
      passes_entries e es (by omega) hopen (by omega) (by omega) hmore (by omega) rfl rfl
termination_by sizeOf t

/-- The members of a list, from the hyphen of the first one. -/
theorem passes_items {y : Layout} {c : Cursor} {more : List Char} {k indent : Nat} (t : Tree)
    (ts : List Tree)
    (hy : y.indent ≤ indent) (hopen : y.Open)
    (hwide : indent + 2 * Tree.itemsHeight (t :: ts) + 2 < width) (hmore : Resumes k more)
    (hk : k ≤ indent) (hcolumn : c.column = indent)
    (hc : c.rest = items indent [] (t :: ts) ++ lineBreak k more) :
    Passes (on y c true) (Tree.ItemsFit (t :: ts))
      ((y.enter .blockSequenceStart indent).add (Tree.itemTokens (t :: ts))) more k := by
  obtain ⟨u, hu⟩ := after_space indent (indent + 1) t
  have hstart : c.rest = '-' :: ' ' :: (u ++ (items indent (newLine indent) ts ++ lineBreak k more)) := by
    rw [hc, items_start, hu, List.cons_append, List.append_assoc]
    rfl
  have hdash : Leads (on y c true) _ := leads_indicator hstart rfl (step_dash hstart (by omega))
  rw [hcolumn] at hdash
  have hlevel : (y.enter .blockSequenceStart indent).indent = indent := Layout.indent_enter hy
  have hopen' : ((y.enter .blockSequenceStart indent).add [.blockEntry]).Open :=
    (hopen.enter (by decide)).add (by decide)
  rw [Tree.itemsHeight] at hwide
  rw [Tree.itemTokens, Tree.ItemsFit, ← List.singleton_append, ← Layout.add_add]
  refine Passes.of_leads hdash ?_
  cases ts with
  | nil =>
    rw [Tree.itemTokens, Tree.ItemsFit, and_true, List.append_nil]
    exact passes_after false t (c := ⟨_, c.index + 1, c.line, indent + 1⟩) hlevel hopen' (by omega)
      hmore hk (Nat.lt_succ_self _) (fun _ => rfl) (by rw [hu]; rfl)
  | cons t' ts =>
    have hrest : ' ' :: (u ++ (items indent (newLine indent) (t' :: ts) ++ lineBreak k more))
        = after indent (indent + 1) false t
          ++ lineBreak indent (items indent [] (t' :: ts) ++ lineBreak k more) := by
      rw [hu, items_cons indent (newLine indent), List.append_assoc, newLine_append]
      rfl
    have hfirst := passes_after false t
      (y := (y.enter .blockSequenceStart indent).add [.blockEntry])
      (c := ⟨_, c.index + 1, c.line, indent + 1⟩) hlevel hopen' (by omega)
      (resumes_items indent t' ts (lineBreak k more)) (Nat.le_refl _) (Nat.lt_succ_self indent)
      (fun _ => rfl) hrest
    refine Passes.next hfirst fun i l => ?_
    have hlevel' : (((y.enter .blockSequenceStart indent).add [.blockEntry]).add
        (t.tokens false)).indent = indent := hlevel
    have hlast := passes_items (c := ⟨_, i, l, indent⟩) t' ts (Int.le_of_eq hlevel')
      (hopen'.add (Tree.streamEnd_not_mem_tokens false t)) (by omega) hmore hk rfl rfl
    rw [Layout.enter_same hlevel'] at hlast
    rwa [← Layout.add_add]
termination_by sizeOf t + sizeOf ts

/-- The value behind a key, and the entries after it. -/
theorem passes_value {y : Layout} {c : Cursor} {more : List Char} {k indent column : Nat}
    (afterKey : Bool) (t : Tree) (es : List (String × Tree))
    (hy : y.indent = (indent : Int)) (hopen : y.Open) (hpos : 0 < indent)
    (hwide : indent + 2 * max t.height (Tree.entriesHeight es) + 2 < width) (hmore : Resumes k more)
    (hk : k ≤ indent) (hcolumn : indent < c.column)
    (hline : afterKey = false → c.column = indent + 1)
    (hc : c.rest = after indent column afterKey t
      ++ (entries indent (newLine indent) es ++ lineBreak k more)) :
    Passes (on y c (!afterKey)) (t.KeysFit ∧ Tree.EntriesFit es)
      (y.add (t.tokens afterKey ++ Tree.entryTokens es)) more k := by
  cases es with
  | nil =>
    rw [Tree.entryTokens, Tree.EntriesFit, and_true, List.append_nil]
    exact passes_after afterKey t hy hopen (by omega) hmore hk hcolumn hline hc
  | cons e es =>
    rw [entries_cons indent (newLine indent), List.append_assoc, newLine_append] at hc
    refine Passes.next (passes_after afterKey t hy hopen (by omega)
      (resumes_entries hpos e es _) (Nat.le_refl _) hcolumn hline hc) fun i l => ?_
    have hlevel : (y.add (t.tokens afterKey)).indent = indent := hy
    have hlast := passes_entries (c := ⟨_, i, l, indent⟩) e es (Int.le_of_eq hlevel)
      (hopen.add (Tree.streamEnd_not_mem_tokens afterKey t)) hpos (by omega) hmore hk rfl rfl
    rw [Layout.enter_same hlevel] at hlast
    rwa [← Layout.add_add]
termination_by sizeOf t + sizeOf es

/-- The entries of a mapping, from the key of the first one. -/
theorem passes_entries {y : Layout} {c : Cursor} {more : List Char} {k indent : Nat}
    (e : String × Tree) (es : List (String × Tree))
    (hy : y.indent ≤ indent) (hopen : y.Open) (hpos : 0 < indent)
    (hwide : indent + 2 * Tree.entriesHeight (e :: es) + 2 < width) (hmore : Resumes k more)
    (hk : k ≤ indent) (hcolumn : c.column = indent)
    (hc : c.rest = entries indent [] (e :: es) ++ lineBreak k more) :
    Passes (on y c true) (Tree.EntriesFit (e :: es))
      ((y.enter .blockMappingStart indent).add (Tree.entryTokens (e :: es))) more k := by
  match e with
  | (s, t) =>
    have hlevel : (y.enter .blockMappingStart indent).indent = indent := Layout.indent_enter hy
    rw [Tree.entriesHeight] at hwide
    have hopen' : ((y.enter .blockMappingStart indent).add
        [.key, .scalar s (style (isSimpleKey s) s = .plain), .value]).Open :=
      (hopen.enter (by decide)).add (by simp)
    have htokens : Tree.entryTokens ((s, t) :: es)
        = [.key, .scalar s (style (isSimpleKey s) s = .plain), .value]
          ++ (t.tokens (isSimpleKey s) ++ Tree.entryTokens es) := by
      rw [Tree.entryTokens]
      rfl
    rw [htokens, Tree.EntriesFit, ← Layout.add_add]
    cases hs : isSimpleKey s with
    | true =>
      rw [hs] at hopen'
      have hstart : c.rest = text true (indent + 2) indent s ++ ':' :: (after indent
          (indent + (text true (indent + 2) indent s).length + 1) true t
            ++ (entries indent (newLine indent) es ++ lineBreak k more)) := by
        simp only [hc, entries_simple hs, List.append_assoc, List.cons_append]
      exact Passes.behind_key hs hy hopen hpos hcolumn hstart fun i l j hj =>
        passes_value true t es hlevel hopen' hpos hwide hmore hk hj (fun h => nomatch h) rfl
    | false =>
      rw [hs] at hopen'
      have hstart : c.rest = '?' :: ' ' :: (text false (indent + 2) (indent + 2) s
          ++ lineBreak indent (':' :: (after indent (indent + 1) false t
            ++ (entries indent (newLine indent) es ++ lineBreak k more)))) := by
        simp only [hc, entries_question hs, List.cons_append, List.append_assoc, lineBreak]
      exact Passes.behind_question hs hy (by omega) hcolumn hstart fun i l =>
        passes_value false t es hlevel hopen' hpos hwide hmore hk (Nat.lt_succ_self indent)
          (fun _ => rfl) rfl
termination_by sizeOf e + sizeOf es

end

/-! ### Whole documents -/

section

variable {cs ds : List Char}

theorem written_append (h : cs.all isWritten = true) (h' : ds.all isWritten = true) :
    (cs ++ ds).all isWritten = true := by
  rw [List.all_append, h, h']
  rfl

theorem written_cons {ch : Char} (h : isWritten ch = true) (h' : cs.all isWritten = true) :
    (ch :: cs).all isWritten = true := by
  rw [List.all_cons, h, h']
  rfl

mutual

theorem written_after (indent column : Nat) (afterKey : Bool) (t : Tree) :
    (after indent column afterKey t).all isWritten = true := by
  match t with
  | .text s =>
    rw [after]
    exact written_cons rfl (written_text false)
  | .list [] => rw [after]; rfl
  | .map [] => rw [after]; rfl
  | .list (t :: ts) =>
    have h := fun indent => written_items indent (t :: ts)
    rw [after_items]
    split
    · exact written_append (written_newLine indent) (h indent)
    · exact written_cons rfl (h (indent + 2))
  | .map (e :: es) =>
    have h := fun indent => written_entries indent (e :: es)
    rw [after_entries]
    split
    · exact written_append (written_newLine (indent + 2)) (h (indent + 2))
    · exact written_cons rfl (h (indent + 2))

theorem written_items (indent : Nat) (ts : List Tree) :
    (items indent [] ts).all isWritten = true := by
  match ts with
  | [] => rw [items]; rfl
  | t :: ts =>
    have hrest : (items indent (newLine indent) ts).all isWritten = true := by
      cases ts with
      | nil => rw [items]; rfl
      | cons t' ts =>
        rw [items_cons indent (newLine indent)]
        exact written_append (written_newLine indent) (written_items indent (t' :: ts))
    rw [items_start]
    exact written_cons rfl (written_append (written_after indent (indent + 1) false t) hrest)

theorem written_entries (indent : Nat) (es : List (String × Tree)) :
    (entries indent [] es).all isWritten = true := by
  match es with
  | [] => rw [entries]; rfl
  | (s, t) :: es =>
    have hrest : (entries indent (newLine indent) es).all isWritten = true := by
      cases es with
      | nil => rw [entries]; rfl
      | cons e es =>
        rw [entries_cons indent (newLine indent)]
        exact written_append (written_newLine indent) (written_entries indent (e :: es))
    cases hs : isSimpleKey s with
    | true =>
      rw [entries_simple hs]
      exact written_append (written_text true) (written_cons rfl (written_append
        (written_after _ _ true t) hrest))
    | false =>
      rw [entries_question hs]
      refine written_cons rfl (written_cons rfl (written_append (written_text false) ?_))
      rw [← newLine_append]
      exact written_append (written_newLine indent) (written_cons rfl (written_append
        (written_after _ _ false t) hrest))

end

end

/-- What the scanner starts with. -/
theorem ofText_written {cs : List Char} (h : cs.all isWritten = true) {ch : Char} {r : List Char}
    (hcs : cs = ch :: r) (hch : isInline ch = true) :
    Token.ofText (String.ofList cs) = Scanner.run (cs.length + 2) (on ⟨[], -1, []⟩ ⟨cs, 0, 0, 0⟩ true) := by
  have hall : cs.all isTextChar = true := List.all_eq_true.mpr fun d hd =>
    isTextChar_written (List.all_eq_true.mp h d hd)
  unfold Token.ofText
  simp only [String.toList_ofList, hall, Bool.not_true, Bool.false_eq_true, if_false]
  rw [if_neg (show ¬ (Cursor.mk cs 0 0 0).head = byteOrderMark by
    subst hcs
    exact ne_byteOrderMark hch)]
  rfl

theorem ofText_empty :
    Token.ofText (render (.list [])) = (Tree.list []).tokens false ++ [.streamEnd] := by
  decide +kernel

/-- The end of a text, where a block of the outermost column is still open. -/
theorem scans_end (tokens : List Token) (i l : Nat) :
    Scans (on ⟨tokens, 0, [-1]⟩ ⟨[], i, l, 0⟩ true) (.streamEnd :: .blockEnd :: tokens).reverse := by
  have hat : AtToken ⟨[], i, l, 0⟩ := Resumes.atToken (k := 0) (.inl ⟨rfl, rfl⟩)
  have hstep : (on ⟨tokens, 0, [-1]⟩ ⟨[], i, l, 0⟩ true).step
      = .ok (on ⟨.streamEnd :: .blockEnd :: tokens, -1, []⟩ ⟨[], i, l, 0⟩ false, true) := by
    rw [step_here hat (Int.le_refl 0)]
    rfl
  exact .last hstep

/-- What writing puts down for a list that is not empty is passed over exactly if its keys fit. -/
theorem passes_document (t : Tree) (ts : List Tree)
    (hwide : 2 * Tree.itemsHeight (t :: ts) + 2 < width) :
    Passes (on ⟨[], -1, []⟩ ⟨items 0 [] (t :: ts) ++ ['\n'], 0, 0, 0⟩ true) (Tree.ItemsFit (t :: ts))
      ⟨(Tree.itemTokens (t :: ts)).reverse ++ [.blockSequenceStart], 0, [-1]⟩ [] 0 :=
  passes_items t ts (y := ⟨[], -1, []⟩) (k := 0) (by decide) List.not_mem_nil
    (by rw [Nat.zero_add]; exact hwide) (.inl ⟨rfl, rfl⟩) (Nat.le_refl 0) rfl rfl

/-- **The tokens of a written list.**  They are those of the list if every key in it fits, and else
they break off before the end of the text. -/
theorem ofText_list (ts : List Tree) (hwide : 2 * (Tree.list ts).height < width) :
    ((Tree.list ts).KeysFit
        → Token.ofText (render (.list ts)) = (Tree.list ts).tokens false ++ [.streamEnd])
      ∧ (¬ (Tree.list ts).KeysFit → Token.streamEnd ∉ Token.ofText (render (.list ts))) := by
  rw [Tree.KeysFit]
  rw [Tree.height] at hwide
  cases ts with
  | nil => exact ⟨fun _ => ofText_empty, fun hb => absurd trivial hb⟩
  | cons t ts =>
    have hpass := passes_document t ts (by omega)
    have hstart : Token.ofText (render (.list (t :: ts)))
        = run ((items 0 [] (t :: ts) ++ ['\n']).length + 2)
          (on ⟨[], -1, []⟩ ⟨items 0 [] (t :: ts) ++ ['\n'], 0, 0, 0⟩ true) :=
      ofText_written (written_append (written_items 0 (t :: ts)) rfl)
        (congrArg (· ++ ['\n']) (items_start 0 t ts)) (by decide : isInline '-' = true)
    rw [hstart]
    refine ⟨fun hg => ?_, fun hb => run_of_jams (hpass.2 hb) (Nat.lt_add_of_pos_right Nat.two_pos)⟩
    obtain ⟨i, l, hl⟩ := hpass.1 hg
    refine (run_of_scans (hl.scans (scans_end _ i l)) (Nat.lt_add_of_pos_right Nat.two_pos)).trans ?_
    rw [Tree.tokens, if_neg (by decide)]
    simp only [List.reverse_cons, List.reverse_append, List.reverse_reverse, List.reverse_nil,
      List.nil_append, List.append_assoc, List.cons_append]

end Yaml

end SecretForge
