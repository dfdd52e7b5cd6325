import SecretForge.Proofs.Except
import SecretForge.Proofs.Yaml.Scanner
import SecretForge.Proofs.Yaml.Unfinished
import SecretForge.Yaml.Load

/-!
# Why a text has no document

A text that is split into tokens gives a document unless it is malformed.  Splitting it can fail in two
other ways: an escape in a quoted scalar may name no code point, and a part of a version number may be too
long to be converted.

* `Unsplit` — the ways in which splitting fails; **`ofText_fault`** — there are no others.
* `Blames`, `passes_blames` — a reading of tokens fails only because the text is malformed, or with a fault
  that stands among the tokens.
* **`ofTokens_error`** — why tokens are no document.
-/

namespace SecretForge.Yaml

/-! ### Texts that cannot be split into tokens -/

/-- The ways in which the splitting of a text into tokens fails. -/
inductive Unsplit : Fault → Prop where
  | malformed : Unsplit .malformed
  /-- An escape names a code point beyond the last one. -/
  | codePointTooLarge : Unsplit .codePointTooLarge
  /-- An escape names a code point that does not even fit a machine integer. -/
  | codePointOverflow : Unsplit .codePointOverflow
  /-- A part of a version number cannot be converted. -/
  | version (fault : Number.IntegerFault) : Unsplit (.integer fault)

section

open Unsplit

theorem charOfCode_unsplit (n : Nat) : FailsAs Unsplit (charOfCode n) :=
  .ite codePointOverflow (.ite codePointTooLarge (.ite trivial trivial))

theorem quotedBreaks_unsplit (fuel : Nat) (c : Cursor) : FailsAs Unsplit (quotedBreaks fuel c) := by
  induction fuel generalizing c with
  | zero => exact malformed
  | succ fuel ih =>
    rw [quotedBreaks]
    refine .ite malformed ?_
    dsimp only
    split
    · trivial
    · exact .map (ih _) fun _ _ => trivial

theorem quotedBlanks_unsplit (c : Cursor) : FailsAs Unsplit (quotedBlanks c) := by
  rw [quotedBlanks]
  dsimp only
  split
  · exact .ite malformed trivial
  · exact .map (quotedBreaks_unsplit _ _) fun _ _ => trivial

theorem escaped_unsplit (c : Cursor) : FailsAs Unsplit (escaped c) := by
  rw [escaped]
  split
  · trivial
  · dsimp only
    split
    · exact .ite malformed (.map (charOfCode_unsplit _) fun _ _ => trivial)
    · exact malformed
  · split
    · exact quotedBreaks_unsplit _ _
    · exact malformed

theorem quotedRest_unsplit (double : Bool) (fuel : Nat) (c : Cursor) :
    FailsAs Unsplit (quotedRest double fuel c) := by
  induction fuel generalizing c with
  | zero => exact malformed
  | succ fuel ih =>
    have hrest (part : List Char × Cursor) : FailsAs Unsplit (do
        let rest ← quotedRest double fuel part.2
        return (part.1 ++ rest.1, rest.2)) := .bind (ih _) fun _ _ => .given _
    have hpart (part : List Char × Cursor) : FailsAs Unsplit (do
        let part ← pure part
        let rest ← quotedRest double fuel part.2
        return (part.1 ++ rest.1, rest.2)) := .bind (.given part) fun p _ => hrest p
    rw [quotedRest]
    refine .ite (hpart _) ?_
    refine .ite (hpart _) ?_
    refine .ite (.given _) ?_
    refine .ite (.bind (escaped_unsplit _) fun p _ => hrest p) ?_
    refine .ite (hpart _) ?_
    exact .bind (quotedBlanks_unsplit _) fun p _ => hrest p

theorem quotedScalar_unsplit (double : Bool) (c : Cursor) : FailsAs Unsplit (quotedScalar double c) :=
  .map (quotedRest_unsplit _ _ _) fun _ _ => trivial

theorem ignoredLine_unsplit (c : Cursor) : FailsAs Unsplit (ignoredLine c) := by
  rw [ignoredLine]
  split
  · trivial
  · exact .ite trivial malformed

theorem blockScalar_unsplit (folded : Bool) (parent : Int) (c : Cursor) :
    FailsAs Unsplit (blockScalar folded parent c) := by
  refine .bind (Q := fun _ => True) ?_ fun _ _ => .bind (ignoredLine_unsplit _) fun _ _ => trivial
  rw [blockHeader]
  exact .ite malformed trivial

theorem word_unsplit (c : Cursor) : FailsAs Unsplit (word c) := by
  rw [word]
  split
  · exact malformed
  · trivial

theorem versionNumber_unsplit (c : Cursor) : FailsAs Unsplit (versionNumber c) := by
  rw [versionNumber]
  split
  · exact malformed
  · generalize Number.readInteger 10 _ = part
    exact .bind (.mapError (.anyway part) fun f _ => version f) fun _ _ => trivial

theorem percentBytes_unsplit (fuel : Nat) (c : Cursor) : FailsAs Unsplit (percentBytes fuel c) := by
  induction fuel generalizing c with
  | zero => trivial
  | succ fuel ih =>
    rw [percentBytes]
    refine .ite trivial ?_
    split
    · exact .map (ih _) fun _ _ => trivial
    · exact malformed

theorem tagChars_unsplit (fuel : Nat) (c : Cursor) : FailsAs Unsplit (tagChars fuel c) := by
  induction fuel generalizing c with
  | zero => trivial
  | succ fuel ih =>
    rw [tagChars]
    refine .ite (.bind (percentBytes_unsplit _ _) fun bytes _ => ?_) trivial
    dsimp only
    split
    · exact malformed
    · exact .bind (ih _) fun _ _ => trivial

theorem tagText_unsplit (c : Cursor) : FailsAs Unsplit (tagText c) := by
  rw [tagText]
  exact .guard malformed (.bind (tagChars_unsplit _ _) fun _ _ => trivial)

theorem tagHandle_unsplit (c : Cursor) : FailsAs Unsplit (tagHandle c) :=
  .ite malformed (.ite trivial (.ite malformed trivial))

theorem anchorName_unsplit (c : Cursor) : FailsAs Unsplit (anchorName c) := by
  rw [anchorName]
  exact .bind (word_unsplit _) fun _ _ => .ite trivial malformed

def Token.isFault : Token → Bool
  | .fault _ => true
  | _ => false

abbrev Token.Clear (t : Token) : Prop := t.isFault = false

theorem directive_ends (c : Cursor) : EndsAs Unsplit (fun p => p.1.Clear) (directive c) := by
  have hend (p : Token × Cursor) (hp : p.1.Clear) : EndsAs Unsplit (fun p => p.1.Clear) (do
      let p ← pure p
      let c ← ignoredLine p.2
      return (p.1, c)) :=
    .bind (.pure (Q := fun p => p.1.Clear) hp) fun _ hp => .bind (ignoredLine_unsplit _) fun _ _ =>
      .pure hp
  rw [directive]
  refine .bind (word_unsplit _) fun name _ => .guard malformed ?_
  refine .ite ?_ (.ite ?_ (hend _ rfl))
  · exact .bind (versionNumber_unsplit _) fun major _ => .guard malformed <|
      .bind (versionNumber_unsplit _) fun _ _ => .guard malformed (hend _ rfl)
  · exact .bind (tagHandle_unsplit _) fun handle _ => .guard malformed <|
      .bind (tagText_unsplit _) fun _ _ => .guard malformed (hend _ rfl)

theorem tagToken_ends (c : Cursor) : EndsAs Unsplit (fun p => p.1.Clear) (tagToken c) := by
  have hend (p : Token × Cursor) (hp : p.1.Clear) : EndsAs Unsplit (fun p => p.1.Clear) (do
      let p ← pure p
      if isSpaceOrEnd p.2.head then return (p.1, p.2) else throw .malformed) :=
    .bind (.pure (Q := fun p => p.1.Clear) hp) fun _ hp => .ite (.pure hp) (.throw malformed)
  rw [tagToken]
  refine .ite ?_ (.ite (hend _ rfl) ?_)
  · exact .bind (tagText_unsplit _) fun _ _ => .guard malformed (hend _ rfl)
  · have hsuffix (p : String × Cursor) : EndsAs Unsplit (fun p => p.1.Clear) (do
        let suffix ← tagText p.2
        let q ← pure (Token.tag (some p.1) suffix.1, suffix.2)
        if isSpaceOrEnd q.2.head then return (q.1, q.2) else throw .malformed) :=
      .bind (tagText_unsplit _) fun _ _ => hend _ rfl
    exact .ite (.bind (tagHandle_unsplit _) fun p _ => hsuffix p)
      (.bind (.given _) fun p _ => hsuffix p)

end

/-! ### The division into tokens -/

namespace Scanner

open Unsplit

/-- A state whose tokens so far are no faults. -/
def Clear (s : Scanner) : Prop := ∀ t ∈ s.emitted, t.Clear

variable {s : Scanner} {t : Token}

theorem Clear.emit (hs : s.Clear) (ht : t.Clear) : (s.emit t).Clear := fun u hu =>
  (List.mem_cons.mp hu).elim (fun h => h ▸ ht) (hs u)

theorem Clear.insert {position : Nat} (hs : s.Clear) (ht : t.Clear) :
    (s.insert position [t]).Clear := by
  intro u hu
  rcases List.mem_append.mp hu with hu | hu
  · rcases List.mem_append.mp hu with hu | hu
    · exact hs u (List.mem_of_mem_take hu)
    · exact List.mem_singleton.mp hu ▸ ht
  · exact hs u (List.mem_of_mem_drop hu)

theorem Clear.openBlock {column position : Nat} (hs : s.Clear) (ht : t.Clear) :
    (s.openBlock t column position).Clear := by
  rw [Scanner.openBlock]
  split
  · exact Clear.insert hs ht
  · exact hs

theorem Clear.unwind (column : Int) (hs : s.Clear) : (s.unwind column).Clear := by
  have hgo (indents : List Int) : ∀ s : Scanner, s.Clear → (unwind.go column indents s).Clear := by
    induction indents with
    | nil => exact fun s hs => hs
    | cons outer indents ih =>
      intro s hs
      rw [unwind.go]
      split
      · exact ih _ (Clear.emit hs rfl)
      · exact hs
  rw [Scanner.unwind]
  split
  · exact hs
  · exact hgo _ _ hs

theorem Clear.skipToToken (fuel : Nat) (hs : s.Clear) : (s.skipToToken fuel).Clear := by
  induction fuel generalizing s with
  | zero => exact hs
  | succ fuel ih =>
    rw [skipToToken_succ]
    split
    · exact hs
    · exact ih hs

/-- A step of the division that keeps the state clear. -/
abbrev Divides (x : Except Fault Scanner) : Prop := EndsAs Unsplit Clear x

theorem dropLapsed_divides (hs : s.Clear) : Divides s.dropLapsed := .ite malformed hs

theorem dropPending_divides (hs : s.Clear) : Divides s.dropPending := by
  rw [dropPending]
  split
  · exact .ite malformed hs
  · exact hs

theorem savePending_divides (hs : s.Clear) : Divides s.savePending :=
  .ite hs (.bind (dropPending_divides hs) fun _ h => h)

theorem leaveBlocks_divides (hs : s.Clear) : Divides s.leaveBlocks :=
  .bind (dropPending_divides (hs.unwind _)) fun _ h => h

theorem outerToken_divides (ht : t.Clear) (width : Nat) (hs : s.Clear) : Divides (s.outerToken t width) :=
  .bind (leaveBlocks_divides hs) fun _ h => Clear.emit h ht

theorem openFlow_divides (ht : t.Clear) (hs : s.Clear) : Divides (s.openFlow t) :=
  .bind (savePending_divides hs) fun _ h => Clear.emit h ht

theorem closeFlow_divides (ht : t.Clear) (hs : s.Clear) : Divides (s.closeFlow t) :=
  .bind (dropPending_divides hs) fun _ h => .guard malformed (Clear.emit h ht)

theorem flowEntry_divides (hs : s.Clear) : Divides s.flowEntry :=
  .bind (dropPending_divides (s := { s with keyAllowed := true }) hs) fun _ h => Clear.emit h rfl

/-- A block collection is opened unless the place is inside a flow collection. -/
theorem Clear.openUnlessFlow {column position : Nat} (hs : s.Clear) (ht : t.Clear) :
    (if s.inFlow then s else s.openBlock t column position).Clear := by
  split
  · exact hs
  · exact Clear.openBlock hs ht

theorem blockIndicator_divides (t opener : Token) (ht : t.Clear) (hopener : opener.Clear)
    (keyAfter : Bool) (hs : s.Clear) : Divides (s.blockIndicator t opener keyAfter) := by
  rw [blockIndicator]
  refine .guard malformed (.bind (dropPending_divides (Clear.openUnlessFlow hs hopener)) fun _ h => ?_)
  exact .pure (Clear.emit h ht)

theorem valueIndicator_divides (hs : s.Clear) : Divides s.valueIndicator := by
  rw [valueIndicator]
  split
  · exact Clear.emit (Clear.openUnlessFlow (Clear.insert hs rfl) rfl) rfl
  · exact blockIndicator_divides _ _ rfl rfl _ hs

theorem nodeToken_divides {read : Cursor → Except Fault (Token × Cursor)}
    (hread : ∀ c, EndsAs Unsplit (fun p => p.1.Clear) (read c)) (hs : s.Clear) :
    Divides (s.nodeToken read) :=
  .bind (savePending_divides hs) fun _ h => .bind (hread _) fun _ ht => Clear.emit h ht

theorem plainToken_divides (hs : s.Clear) : Divides s.plainToken :=
  .bind (savePending_divides hs) fun _ h => Clear.emit h rfl

theorem blockToken_divides (folded : Bool) (hs : s.Clear) : Divides (s.blockToken folded) :=
  .bind (dropPending_divides (s := { s with keyAllowed := true }) hs) fun _ h =>
    .bind (blockScalar_unsplit _ _ _) fun _ _ => Clear.emit h rfl

theorem token_divides (hs : s.Clear) : EndsAs Unsplit (fun p => p.1.Clear) s.token := by
  have more {x : Except Fault Scanner} (hx : Divides x) :
      EndsAs Unsplit (fun p : Scanner × Bool => p.1.Clear) (x.map (·, false)) := .map hx fun _ h => h
  have name {make : String → Token} (hmake : ∀ n, (make n).Clear) (c : Cursor) :
      EndsAs Unsplit (fun p => p.1.Clear) ((anchorName c).map fun p => (make p.1, p.2)) :=
    .map (anchorName_unsplit c) fun _ _ => hmake _
  unfold token
  refine .ite (.bind (leaveBlocks_divides hs) fun _ h => Clear.emit h rfl) ?_
  refine .ite (.bind (leaveBlocks_divides hs) fun _ h => .bind (directive_ends _) fun _ ht =>
    Clear.emit h ht) ?_
  refine .ite (more (outerToken_divides (by split <;> rfl) _ hs)) ?_
  refine .ite (more (openFlow_divides rfl hs)) <| .ite (more (openFlow_divides rfl hs)) ?_
  refine .ite (more (closeFlow_divides rfl hs)) <| .ite (more (closeFlow_divides rfl hs)) ?_
  refine .ite (more (flowEntry_divides hs)) ?_
  refine .ite (more (blockIndicator_divides _ _ rfl rfl _ hs)) <|
    .ite (more (blockIndicator_divides _ _ rfl rfl _ hs)) <|
    .ite (more (valueIndicator_divides hs)) ?_
  refine .ite (more (nodeToken_divides (name fun _ => rfl) hs)) <|
    .ite (more (nodeToken_divides (name fun _ => rfl) hs)) <|
    .ite (more (nodeToken_divides tagToken_ends hs)) ?_
  refine .ite (more (blockToken_divides _ hs)) <| .ite (more (nodeToken_divides (fun c => ?_) hs)) <|
    .ite (more (plainToken_divides hs)) malformed
  exact .map (quotedScalar_unsplit _ c) fun _ _ => rfl

theorem step_divides (hs : s.Clear) : EndsAs Unsplit (fun p => p.1.Clear) s.step :=
  .bind (.bind (dropLapsed_divides (hs.skipToToken _)) fun _ h => .pure (Clear.unwind _ h))
    fun _ h => token_divides h

theorem fault_mem_stopWith {f f' : Fault} (hs : s.Clear) (h : .fault f ∈ s.stopWith f') : f = f' := by
  rcases List.mem_append.mp h with h | h
  · exact nomatch hs _ (List.mem_reverse.mp (List.mem_of_mem_take h))
  · cases List.mem_singleton.mp h
    rfl

theorem run_unsplit (fuel : Nat) (hs : s.Clear) {f : Fault} (h : .fault f ∈ s.run fuel) :
    Unsplit f := by
  induction fuel generalizing s with
  | zero =>
    have h : .fault f ∈ s.stopWith .malformed := h
    rw [fault_mem_stopWith hs h]
    exact malformed
  | succ fuel ih =>
    have hstep := step_divides hs
    rw [run_succ] at h
    rcases hresult : s.step with f' | ⟨s', _ | _⟩ <;> rw [hresult] at h hstep
    · rw [fault_mem_stopWith hs h]
      exact hstep
    · exact ih hstep h
    · exact nomatch hstep _ (List.mem_reverse.mp h)

end Scanner

/-- **A text is split into tokens** unless it is malformed, an escape in it names no code point, or a version
number cannot be converted. -/
theorem ofText_fault {text : String} {f : Fault} (h : .fault f ∈ Token.ofText text) : Unsplit f := by
  rw [Token.ofText] at h
  dsimp only at h
  split at h
  · cases List.mem_singleton.mp h
    exact .malformed
  · exact Scanner.run_unsplit _ (fun _ ht => absurd ht List.not_mem_nil) h

end SecretForge.Yaml

namespace SecretForge.Yaml.Node

/-! ### Readings of tokens -/

/-- A reading that takes tokens away, and fails only because the text is malformed or with a fault that
stands among the tokens. -/
def Blames {α : Type} (m : Reading α) : Prop :=
  Drops m ∧ ∀ r f, m r = .error f → f = .malformed ∨ .fault f ∈ r.tokens

theorem blames_bind {α β : Type} {m : Reading α} {k : α → Reading β} (h : Blames m)
    (h' : ∀ a, Blames (k a)) : Blames (m >>= k) := by
  refine ⟨drops_bind h.1 fun a => (h' a).1, fun r f hrun => ?_⟩
  have hbind : (m r).bind (fun p => k p.1 p.2) = .error f := hrun
  cases hm : m r with
  | error f' =>
    rw [hm] at hbind
    cases hbind
    exact h.2 r f hm
  | ok p =>
    rw [hm] at hbind
    exact ((h' p.1).2 p.2 f hbind).imp_right (h.1 r p.1 p.2 hm ·)

theorem blames_peek : Blames peek := by
  refine ⟨drops_peek, fun r f hrun => ?_⟩
  obtain ⟨tokens, nodes, anchors, handles⟩ := r
  cases tokens with
  | nil =>
    cases hrun
    exact .inl rfl
  | cons t ts =>
    cases t <;> cases hrun
    exact .inr List.mem_cons_self

theorem blames_number (anchor : Option String) (node : Node) : Blames (number anchor node) := by
  refine ⟨drops_number anchor node, fun r f h => .inl ?_⟩
  rcases number_run anchor node r with hrun | ⟨anchors, hrun⟩
  · rw [hrun] at h
    cases h
    rfl
  · rw [hrun] at h
    cases h

theorem passes_blames : Passes Blames where
  pure a := ⟨drops_pure a, fun _ _ h => nomatch h⟩
  bind := blames_bind
  throw := ⟨drops_throw _, fun _ _ h => by cases h; exact .inl rfl⟩
  peek := blames_peek
  get := ⟨drops_get, fun _ _ h => nomatch h⟩
  modify h := ⟨drops_modify h, fun _ _ h => nomatch h⟩
  number := blames_number

/-- **Tokens are no document** only because the text is malformed, or because it could not be split into
tokens to its end. -/
theorem ofTokens_error {ts : List Token} {f : Fault} (h : Document.ofTokens ts = .error f) :
    f = .malformed ∨ .fault f ∈ ts := by
  unfold Document.ofTokens at h
  cases hrun : (readStream (4 * ts.length + 8)).run { tokens := ts } with
  | ok p =>
    rw [hrun] at h
    cases h
  | error f' =>
    rw [hrun] at h
    cases h
    exact (passes_blames.readStream _).2 _ _ hrun

end SecretForge.Yaml.Node
