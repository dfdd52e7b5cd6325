import SecretForge.Yaml.Node

/-!
# What every reading of tokens keeps

A reading of tokens is put together from a few steps: it looks at the next token, takes tokens away, numbers
a node, changes what it knows, or gives up because the text is malformed.  A property of readings that holds
of these and passes from two readings to one after the other holds of every reading.

* `Passes` — the properties of readings that pass from the steps to the whole.
* `PassesAt` — what is claimed of all readings at a limit; `PassesAt.read_succ` and its siblings take each
  reading from one limit to the next.
* **`passesAt`**, `Passes.readStream` — every reading has such a property, by induction on its limit.
-/

namespace SecretForge.Yaml.Node

/-- A property of readings that passes from the steps of a reading to the whole. -/
structure Passes (P : ∀ {α : Type}, Reading α → Prop) : Prop where
  pure : ∀ {α : Type} (a : α), P (pure a : Reading α)
  bind : ∀ {α β : Type} {m : Reading α} {k : α → Reading β}, P m → (∀ a, P (k a)) → P (m >>= k)
  throw : ∀ {α : Type}, P (throw .malformed : Reading α)
  peek : P peek
  get : P (get : Reading Reader)
  modify : ∀ {f : Reader → Reader}, (∀ r, (f r).tokens ⊆ r.tokens) → P (modify f : Reading Unit)
  number : ∀ (anchor : Option String) (node : Node), P (Node.number anchor node)

variable {P : ∀ {α : Type}, Reading α → Prop}

section

variable {α β : Type} {m : Reading α} {k : α → Reading β}

theorem holds_ite {c : Prop} [Decidable c] {m m' : Reading α} (h : P m) (h' : P m') :
    P (if c then m else m') := by
  split
  · exact h
  · exact h'

variable (hP : Passes P)

include hP

/-- Where two ways join again. -/
theorem Passes.join {c : Prop} [Decidable c] {m m' : Reading α} (h : P m) (h' : P m')
    (hk : ∀ a, P (k a)) : P (if c then m >>= k else m' >>= k) :=
  holds_ite (hP.bind h hk) (hP.bind h' hk)

/-- A step that is not always made. -/
theorem Passes.guard {c : Prop} [Decidable c] {m : Reading Unit} {k : Unit → Reading β} (h : P m)
    (hk : P (k ())) : P (if c then m >>= k else k ()) :=
  holds_ite (hP.bind h fun _ => hk) hk

end

/-! ### Small readings -/

section

variable (hP : Passes P)

include hP

theorem Passes.next : P Node.next := hP.modify fun _ => (List.tail_sublist _).subset

theorem Passes.ahead (ts : List Token) : P (Node.ahead ts) := hP.bind hP.peek fun _ => hP.pure _

theorem Passes.expect (t : Token) : P (Node.expect t) :=
  hP.bind hP.peek fun _ => holds_ite hP.next (hP.throw)

theorem Passes.anchorHere : P Node.anchorHere := by
  refine hP.bind hP.peek fun t => ?_
  split
  · exact hP.bind hP.next fun _ => hP.pure _
  · exact hP.pure _

theorem Passes.tagHere : P Node.tagHere := by
  refine hP.bind hP.peek fun t => ?_
  split
  · exact hP.bind hP.next fun _ => hP.pure _
  · exact hP.pure _

theorem Passes.tagName (tag : Option (Option String × String)) : P (Node.tagName tag) := by
  unfold Node.tagName
  split
  · exact hP.pure _
  · exact hP.pure _
  · refine hP.bind hP.get fun r => ?_
    split
    · exact hP.pure _
    · exact hP.throw

theorem Passes.complete (n : Nat) (node : Node) : P (Node.complete n node) :=
  hP.bind (hP.modify fun _ => List.Subset.refl _) fun _ => hP.pure _

theorem Passes.sequenceOf {members : Reading (List Nat)} (anchor tag : Option String)
    (h : P members) : P (Node.sequenceOf anchor tag members) :=
  hP.bind (hP.number _ _) fun _ => hP.bind h fun _ => hP.complete _ _

theorem Passes.mappingOf {entries : Reading (List (Nat × Nat))} (anchor tag : Option String)
    (h : P entries) : P (Node.mappingOf anchor tag entries) :=
  hP.bind (hP.number _ _) fun _ => hP.bind h fun _ => hP.complete _ _

theorem Passes.readOmitted (anchor tag : Option String) : P (Node.readOmitted anchor tag) := by
  rw [Node.readOmitted]
  exact hP.guard (hP.throw) (hP.number _ _)

end

/-! ### All readings -/

/-- All readings at a limit have a property. -/
structure PassesAt (P : ∀ {α : Type}, Reading α → Prop) (fuel : Nat) : Prop where
  read : ∀ block indentless, P (Node.read block indentless fuel)
  orOmitted : ∀ ends block indentless, P (readUnless ends block indentless fuel)
  blockSequence : P (readBlockSequence fuel)
  indentless : P (readIndentless fuel)
  blockMapping : P (readBlockMapping fuel)
  blockValue : P (readBlockValue fuel)
  flowSequence : ∀ first, P (readFlowSequence first fuel)
  flowMapping : ∀ first, P (readFlowMapping first fuel)
  flowValue : ∀ closing, P (readFlowValue closing fuel)

section

variable (hP : Passes P)

include hP

namespace PassesAt

variable {fuel : Nat} (ih : PassesAt P fuel)

include ih

theorem read_succ (block indentless : Bool) : P (Node.read block indentless (fuel + 1)) := by
  rw [Node.read]
  refine hP.bind hP.peek fun t => ?_
  split
  · refine hP.bind hP.next fun _ => hP.bind hP.get fun r => ?_
    split
    · exact hP.pure _
    · exact hP.throw
  · refine hP.bind hP.anchorHere fun before => hP.bind hP.tagHere fun written =>
      hP.join hP.anchorHere (hP.pure before) fun anchor =>
      hP.bind (hP.tagName written) fun tag => hP.bind hP.peek fun t => ?_
    split
    · exact hP.bind hP.next fun _ => hP.number _ _
    · exact hP.bind hP.next fun _ => hP.sequenceOf _ _ (ih.flowSequence true)
    · exact hP.bind hP.next fun _ => hP.mappingOf _ _ (ih.flowMapping true)
    · exact holds_ite (hP.sequenceOf _ _ ih.indentless) (hP.readOmitted _ _)
    · exact holds_ite (hP.bind hP.next fun _ => hP.sequenceOf _ _ ih.blockSequence)
        (hP.readOmitted _ _)
    · exact holds_ite (hP.bind hP.next fun _ => hP.mappingOf _ _ ih.blockMapping)
        (hP.readOmitted _ _)
    · exact hP.readOmitted _ _

theorem orOmitted_succ (ends : List Token) (block indentless : Bool) :
    P (readUnless ends block indentless (fuel + 1)) := by
  rw [readUnless]
  exact hP.bind (hP.ahead _) fun _ => holds_ite (hP.number _ _) (ih.read _ _)

theorem blockSequence_succ : P (readBlockSequence (fuel + 1)) := by
  rw [readBlockSequence]
  refine hP.bind (hP.ahead _) fun _ => holds_ite (hP.bind hP.next fun _ => ?_) ?_
  · exact hP.bind (ih.orOmitted _ _ _) fun _ => hP.bind ih.blockSequence fun _ => hP.pure _
  · exact hP.bind (hP.expect _) fun _ => hP.pure _

theorem indentless_succ : P (readIndentless (fuel + 1)) := by
  rw [readIndentless]
  refine hP.bind (hP.ahead _) fun _ => holds_ite (hP.bind hP.next fun _ => ?_) (hP.pure _)
  exact hP.bind (ih.orOmitted _ _ _) fun _ => hP.bind ih.indentless fun _ => hP.pure _

theorem blockMapping_succ : P (readBlockMapping (fuel + 1)) := by
  rw [readBlockMapping]
  refine hP.bind (hP.ahead _) fun _ => holds_ite (hP.bind hP.next fun _ => ?_) ?_
  · exact hP.bind (ih.orOmitted _ _ _) fun _ => hP.bind ih.blockValue fun _ =>
      hP.bind ih.blockMapping fun _ => hP.pure _
  · exact hP.bind (hP.expect _) fun _ => hP.pure _

theorem blockValue_succ : P (readBlockValue (fuel + 1)) := by
  rw [readBlockValue]
  exact hP.bind (hP.ahead _) fun _ => holds_ite (hP.bind hP.next fun _ => ih.orOmitted _ _ _)
    (hP.number _ _)

theorem flowSequence_succ (first : Bool) : P (readFlowSequence first (fuel + 1)) := by
  rw [readFlowSequence]
  refine hP.bind (hP.ahead _) fun _ => holds_ite (hP.bind hP.next fun _ => hP.pure _)
    (hP.guard (hP.expect _) (hP.bind hP.peek fun t => ?_))
  split
  · exact hP.bind hP.next fun _ => hP.pure _
  · -- A pair that stands in the list without braces is a mapping of one entry.
    refine hP.bind hP.next fun _ => hP.bind (hP.mappingOf _ _ ?_) fun _ =>
      hP.bind (ih.flowSequence false) fun _ => hP.pure _
    exact hP.bind (ih.orOmitted _ _ _) fun _ => hP.bind (ih.flowValue _) fun _ => hP.pure _
  · exact hP.bind (ih.read _ _) fun _ => hP.bind (ih.flowSequence false) fun _ => hP.pure _

theorem flowMapping_succ (first : Bool) : P (readFlowMapping first (fuel + 1)) := by
  rw [readFlowMapping]
  refine hP.bind (hP.ahead _) fun _ => holds_ite (hP.bind hP.next fun _ => hP.pure _)
    (hP.guard (hP.expect _) (hP.bind hP.peek fun t => ?_))
  split
  · exact hP.bind hP.next fun _ => hP.pure _
  · exact hP.bind hP.next fun _ => hP.bind (ih.orOmitted _ _ _) fun _ =>
      hP.bind (ih.flowValue _) fun _ => hP.bind (ih.flowMapping false) fun _ => hP.pure _
  · exact hP.bind (ih.read _ _) fun _ => hP.bind (hP.number _ _) fun _ =>
      hP.bind (ih.flowMapping false) fun _ => hP.pure _

theorem flowValue_succ (closing : Token) : P (readFlowValue closing (fuel + 1)) := by
  rw [readFlowValue]
  exact hP.bind (hP.ahead _) fun _ => holds_ite (hP.bind hP.next fun _ => ih.orOmitted _ _ _)
    (hP.number _ _)

end PassesAt

/-- **Every reading at a limit** has a property that passes from the steps to the whole. -/
theorem passesAt (fuel : Nat) : PassesAt P fuel := by
  induction fuel with
  | zero =>
    constructor <;> intros <;> exact hP.throw
  | succ fuel ih =>
    exact {
      read := ih.read_succ hP
      orOmitted := ih.orOmitted_succ hP
      blockSequence := ih.blockSequence_succ hP
      indentless := ih.indentless_succ hP
      blockMapping := ih.blockMapping_succ hP
      blockValue := ih.blockValue_succ hP
      flowSequence := ih.flowSequence_succ hP
      flowMapping := ih.flowMapping_succ hP
      flowValue := ih.flowValue_succ hP }

theorem Passes.readDirectives (fuel : Nat) (versioned : Bool) (handles : List (String × String)) :
    P (Node.readDirectives fuel versioned handles) := by
  induction fuel generalizing versioned handles with
  | zero => exact hP.throw
  | succ fuel ih =>
    rw [Node.readDirectives]
    refine hP.bind hP.peek fun t => ?_
    split
    · exact hP.bind hP.next fun _ => hP.guard (hP.throw) (ih _ _)
    · exact hP.bind hP.next fun _ => hP.guard (hP.throw) (ih _ _)
    · exact hP.bind hP.next fun _ => ih _ _
    · exact hP.pure _

theorem Passes.skipEnds (fuel : Nat) : P (Node.skipEnds fuel) := by
  induction fuel with
  | zero => exact hP.throw
  | succ fuel ih =>
    rw [Node.skipEnds]
    exact hP.bind (hP.ahead _) fun _ => holds_ite (hP.bind hP.next fun _ => ih) (hP.pure _)

theorem Passes.atDocumentHead : P Node.atDocumentHead := by
  refine hP.bind hP.peek fun t => ?_
  split <;> exact hP.pure _

/-- The reading of a whole document. -/
theorem Passes.readStream (fuel : Nat) : P (Node.readStream fuel) := by
  have hend (root : Nat) : P (do
      Node.skipEnds fuel
      Node.expect .streamEnd
      return some root) :=
    hP.bind (hP.skipEnds fuel) fun _ => hP.bind (hP.expect _) fun _ => hP.pure _
  have homitted : P omitted := hP.number _ _
  have hread : P (read true false fuel) := (passesAt hP fuel).read true false
  unfold Node.readStream
  refine hP.bind (hP.ahead _) fun none => holds_ite (hP.pure _) ?_
  refine hP.bind hP.atDocumentHead fun head => holds_ite ?_ ?_
  · refine hP.bind (hP.readDirectives _ _ _) fun handles => hP.bind
      (hP.modify fun _ => List.Subset.refl _) fun _ => hP.bind (hP.expect _) fun _ =>
      hP.bind hP.peek fun t => ?_
    split <;> first | exact hP.bind homitted hend | exact hP.bind hread hend
  · exact hP.bind (hP.modify fun _ => List.Subset.refl _) fun _ => hP.bind hread hend

end

end SecretForge.Yaml.Node
