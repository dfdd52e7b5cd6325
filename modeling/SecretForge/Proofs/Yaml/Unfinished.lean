import SecretForge.Proofs.Yaml.Reading

/-!
# Tokens that break off

Tokens that break off before the end of the text are no document: a reading only ever takes tokens
away, and a document is complete only at the end of the text.

* `Drops`, `passes_drops` — every reading only takes tokens away.
* `NeedsEnd` — a reading that comes through only where the end of the text is still ahead.
* **`ofTokens_unfinished`** — without the end of the text there is no document.
-/

namespace SecretForge.Yaml.Node

/-! ### Readings that only take tokens away -/

/-- A reading that only takes tokens away. -/
def Drops {α : Type} (m : Reading α) : Prop := ∀ r a r', m r = .ok (a, r') → r'.tokens ⊆ r.tokens

section

variable {α β : Type} {m : Reading α} {k : α → Reading β}

theorem drops_pure (a : α) : Drops (pure a : Reading α) := by
  intro r a' r' h
  cases h
  exact List.Subset.refl _

theorem drops_throw (f : Fault) : Drops (throw f : Reading α) := fun _ _ _ h => nomatch h

theorem drops_bind (h : Drops m) (h' : ∀ a, Drops (k a)) : Drops (m >>= k) := by
  intro r b r' hrun
  have hbind : (m r).bind (fun p => k p.1 p.2) = .ok (b, r') := hrun
  cases hm : m r with
  | error f =>
    rw [hm] at hbind
    cases hbind
  | ok p =>
    rw [hm] at hbind
    exact fun x hx => h r p.1 p.2 hm (h' p.1 p.2 b r' hbind hx)

theorem drops_get : Drops (get : Reading Reader) := by
  intro r a r' h
  cases h
  exact List.Subset.refl _

theorem drops_modify {f : Reader → Reader} (h : ∀ r, (f r).tokens ⊆ r.tokens) :
    Drops (modify f : Reading Unit) := by
  intro r a r' hrun
  cases hrun
  exact h r

end

theorem drops_peek : Drops peek := by
  intro r a r' h
  obtain ⟨tokens, nodes, anchors, handles⟩ := r
  cases tokens with
  | nil => cases h
  | cons t ts => cases t <;> cases h <;> exact List.Subset.refl _

/-- A node is numbered, unless its anchor is not new. -/
theorem number_run (anchor : Option String) (node : Node) (r : Reader) :
    number anchor node r = .error .malformed
      ∨ ∃ anchors, number anchor node r
        = .ok (r.nodes.size, { r with nodes := r.nodes.push node, anchors }) := by
  cases anchor with
  | none => exact .inr ⟨r.anchors, rfl⟩
  | some name =>
    by_cases hs : (r.anchors.lookup name).isSome = true
    · left
      unfold number
      show (if (r.anchors.lookup name).isSome = true then _ else _ : Reading Nat) r = _
      rw [if_pos hs]
      rfl
    · refine .inr ⟨(name, r.nodes.size) :: r.anchors, ?_⟩
      unfold number
      show (if (r.anchors.lookup name).isSome = true then _ else _ : Reading Nat) r = _
      rw [if_neg hs]
      rfl

theorem drops_number (anchor : Option String) (node : Node) : Drops (number anchor node) := by
  intro r a r' h
  rcases number_run anchor node r with hrun | ⟨anchors, hrun⟩
  · rw [hrun] at h
    cases h
  · rw [hrun] at h
    cases h
    exact List.Subset.refl _

/-- Every reading only takes tokens away. -/
theorem passes_drops : Passes Drops where
  pure := drops_pure
  bind := drops_bind
  throw := drops_throw _
  peek := drops_peek
  get := drops_get
  modify := drops_modify
  number := drops_number

/-! ### Readings that need the end of the text -/

/-- A reading that comes through only where the end of the text is still ahead. -/
def NeedsEnd {α : Type} (m : Reading α) : Prop := ∀ r a r', m r = .ok (a, r') → Token.streamEnd ∈ r.tokens

section

variable {α β : Type} {m : Reading α} {k : α → Reading β}

theorem needsEnd_bind (h : Drops m) (h' : ∀ a, NeedsEnd (k a)) : NeedsEnd (m >>= k) := by
  intro r b r' hrun
  have hbind : (m r).bind (fun p => k p.1 p.2) = .ok (b, r') := hrun
  cases hm : m r with
  | error f =>
    rw [hm] at hbind
    cases hbind
  | ok p =>
    rw [hm] at hbind
    exact h r p.1 p.2 hm (h' p.1 p.2 b r' hbind)

theorem needsEnd_ite {c : Prop} [Decidable c] {m m' : Reading α} (h : NeedsEnd m)
    (h' : NeedsEnd m') : NeedsEnd (if c then m else m') := by
  split
  · exact h
  · exact h'

theorem needsEnd_first (h : NeedsEnd m) : NeedsEnd (m >>= k) := by
  intro r b r' hrun
  have hbind : (m r).bind (fun p => k p.1 p.2) = .ok (b, r') := hrun
  cases hm : m r with
  | error f =>
    rw [hm] at hbind
    cases hbind
  | ok p => exact h r p.1 p.2 hm

theorem peek_mem {t : Token} {r r' : Reader} (h : peek r = .ok (t, r')) : t ∈ r.tokens := by
  obtain ⟨tokens, nodes, anchors, handles⟩ := r
  cases tokens with
  | nil => cases h
  | cons t ts => cases t <;> cases h <;> exact List.mem_cons_self

/-- A reading that goes on without the end of the text only where it is not next. -/
theorem needsEnd_peek {k : Token → Reading α} (h : ∀ t ≠ .streamEnd, NeedsEnd (k t)) :
    NeedsEnd (peek >>= k) := by
  intro r b r' hrun
  have hbind : (peek r).bind (fun p => k p.1 p.2) = .ok (b, r') := hrun
  cases hm : peek r with
  | error f =>
    rw [hm] at hbind
    cases hbind
  | ok p =>
    rw [hm] at hbind
    by_cases ht : p.1 = .streamEnd
    · exact ht ▸ peek_mem hm
    · exact drops_peek r p.1 p.2 hm (h p.1 ht p.2 b r' hbind)

end

theorem needsEnd_throw {α : Type} (f : Fault) : NeedsEnd (throw f : Reading α) :=
  fun _ _ _ h => nomatch h

theorem needsEnd_expect : NeedsEnd (expect .streamEnd) :=
  needsEnd_peek fun t ht => by
    rw [if_neg ht]
    exact needsEnd_throw _

theorem needsEnd_readStream (fuel : Nat) : NeedsEnd (readStream fuel) := by
  have hend : ∀ root : Nat, NeedsEnd (do
      skipEnds fuel
      expect .streamEnd
      return some root) := fun root =>
    needsEnd_bind (passes_drops.skipEnds fuel) fun _ => needsEnd_first needsEnd_expect
  have homitted : Drops omitted := drops_number _ _
  have hread : Drops (read true false fuel) := (passesAt passes_drops fuel).read true false
  unfold readStream ahead
  rw [bind_assoc]
  refine needsEnd_peek fun t ht => ?_
  have hnext : ¬ [Token.streamEnd].contains t = true := fun h =>
    ht (List.mem_singleton.mp (List.contains_iff_mem.mp h))
  rw [pure_bind, if_neg hnext]
  refine needsEnd_bind passes_drops.atDocumentHead fun head => needsEnd_ite ?_ ?_
  · refine needsEnd_bind (passes_drops.readDirectives _ _ _) fun handles => needsEnd_bind
      (drops_modify fun _ => List.Subset.refl _) fun _ => needsEnd_bind (passes_drops.expect _) fun _ =>
      needsEnd_bind drops_peek fun t => ?_
    split <;> first | exact needsEnd_bind homitted hend | exact needsEnd_bind hread hend
  · exact needsEnd_bind (drops_modify fun _ => List.Subset.refl _) fun _ => needsEnd_bind hread hend

/-- **Tokens that break off are no document.** -/
theorem ofTokens_unfinished {ts : List Token} (h : Token.streamEnd ∉ ts) (doc : Option Document) :
    Document.ofTokens ts ≠ .ok doc := by
  intro hdoc
  unfold Document.ofTokens at hdoc
  cases hrun : (readStream (4 * ts.length + 8)).run { tokens := ts } with
  | error f =>
    rw [hrun] at hdoc
    cases hdoc
  | ok p => exact h (needsEnd_readStream _ _ _ _ hrun)

end SecretForge.Yaml.Node
