import SecretForge.Proofs.Update.Ending

/-!
# A run from the templates as two parts

A run reports what went wrong in two places: templates that did not expand, as one failure in front, and
values that were not set, one by one.  The first has no influence on the second: the store is asked for
exactly what an update with the items of the other templates asks it for.

* `StandIn` — texts that stand in a text one after the other; `standIn_combined` says that the message of
  several failures has the messages of all of them in it, in order.
* `length_runFailures`, `report?_runFailures` — how many failures a run has, and when it has none.
* **`generate_composes`** — a run, from the expansion and the update that it consists of.
-/

namespace SecretForge

open Act

/-! ### Messages in a message -/

/-- The texts stand in the text one after the other. -/
def StandIn : List String → String → Prop
  | [], _ => True
  | t :: ts, text => ∃ front rest, text = front ++ t ++ rest ∧ StandIn ts rest

theorem StandIn.after {ts : List String} {text : String} (h : StandIn ts text) (front : String) :
    StandIn ts (front ++ text) := by
  cases ts with
  | nil => trivial
  | cons t ts =>
    obtain ⟨front', rest, rfl, hrest⟩ := h
    exact ⟨front ++ front', rest, by simp only [String.append_assoc], hrest⟩

theorem standIn_intercalate (separator : String) (ts : List String) (tail : String) :
    StandIn ts (String.intercalate separator ts ++ tail) := by
  induction ts with
  | nil => trivial
  | cons t ts ih =>
    cases ts with
    | nil => exact ⟨"", tail, by rw [String.intercalate_singleton, String.empty_append], trivial⟩
    | cons t' ts =>
      refine ⟨"", separator ++ (String.intercalate separator (t' :: ts) ++ tail), ?_, ih.after separator⟩
      rw [String.intercalate_cons_cons, String.empty_append]
      simp only [String.append_assoc]

/-- **The message of several failures** has the message of each of them in it, in order. -/
theorem standIn_combined (messages : List String) : StandIn messages (combined messages) := by
  unfold combined
  split
  · next m =>
    exact ⟨"", "", by rw [String.empty_append, String.append_empty], trivial⟩
  · rw [String.append_assoc]
    exact (standIn_intercalate ", " messages "]").after "["

/-! ### The failures of both parts -/

/-- The failures of attempts are as many as the attempts that are not accepted. -/
theorem length_failures_eq_countP (attempts : List Attempt) :
    (attempts.filterMap Attempt.failure?).length
      = attempts.countP (fun attempt => !attempt.accepted) := by
  have hattempt (a : Attempt) : a.failure?.isSome = !a.accepted := by
    cases h : a.failure? with
    | none =>
      rw [a.failure?_isNone.mp h]
      rfl
    | some failure =>
      have ha : a.accepted = false := Bool.eq_false_iff.mpr fun ha => by
        cases h.symm.trans (a.failure?_isNone.mpr ha)
      rw [ha]
      rfl
  simp only [List.length_filterMap_eq_countP, hattempt]

theorem length_runFailures (notExpanded : List ExpansionFailure) (failures : List UpdateFailure) :
    (runFailures notExpanded failures).length
      = (if notExpanded = [] then 0 else 1) + failures.length := by
  cases notExpanded <;> simp [runFailures, Nat.add_comm]

/-- There is no report exactly when neither part has failures. -/
theorem report?_runFailures (notExpanded : List ExpansionFailure) (failures : List UpdateFailure) :
    report? ((runFailures notExpanded failures).map RunFailure.message) = none
      ↔ notExpanded = [] ∧ failures = [] := by
  rw [report?_map_eq_none_iff, runFailures_eq_nil_iff]

/-! ### The run -/

variable {σ ρ : Type}

/-- **A run composes expansion and update, and loses no failure.** Whatever the params hold, the
commands write and the store answers, as long as nobody breaks the run off: the run makes the calls, and
ends in the state, of an update with the items of the templates that expand; its failures are those of
the update, in order, behind one for all templates that did not expand, if there are any, with the
message of each of them in its own in order; and there is no report exactly when every template expands
and every value is accepted. -/
theorem generate_composes (range : ρ → Range) (shell : Shell σ) (store : Store σ)
    (hshell : shell.Uninterrupted) (hstore : store.Uninterrupted) (ts : List (Template ρ))
    (o : Observed σ) :
    let items := (expandedItems range ts).map (·.toItem)
    let notExpanded := unexpanded range ts
    let alone := update shell.observed store.observed items o
    let out := generate shell.observed store.observed range ts o
    ((expandAll range ts : Act (Observed σ) Interrupted _) o).result
        = .ok (expandedItems range ts, notExpanded)
      ∧ (notExpanded = [] ↔ ∀ t ∈ ts, ∃ items, t.expand range = .ok items)
      ∧ out.state = alone.state
      ∧ ∃ (attempts : List Attempt) (values : List UpdateFailure) (failures : List RunFailure),
        attempts.map Attempt.value = items.flatMap Item.declared
        ∧ alone.state.calls = o.calls ++ attempts.flatMap Attempt.calls
        ∧ alone.result = .ok values ∧ values = attempts.filterMap Attempt.failure?
        ∧ out.result = .ok failures
        ∧ failures = (if notExpanded = [] then [] else [.expansion notExpanded]) ++ values.map .value
        ∧ StandIn (notExpanded.map ExpansionFailure.message) (RunFailure.expansion notExpanded).message
        ∧ failures.length
          = (if notExpanded = [] then 0 else 1) + attempts.countP (fun attempt => !attempt.accepted)
        ∧ (report? (failures.map RunFailure.message) = none
          ↔ notExpanded = [] ∧ ∀ attempt ∈ attempts, attempt.accepted = true)
        ∧ generate shell store range ts o.state = ⟨.ok failures, out.events, out.state.state⟩ := by
  intro items notExpanded alone out
  obtain ⟨es, hexpand⟩ := expandAll_run range ts
  obtain ⟨es', hrun⟩ := generate_run range ts
  obtain ⟨attempts, hdeclared, hresult, hcalls⟩ := update_attempts hshell hstore items o
  have hout : out = ⟨alone.result.map (runFailures notExpanded), es' ++ alone.events, alone.state⟩ :=
    hrun shell.observed store.observed o
  have hfailures : out.result
      = .ok (runFailures notExpanded (attempts.filterMap Attempt.failure?)) := by
    rw [hout, show alone.result = .ok (attempts.filterMap Attempt.failure?) from hresult]
    rfl
  have hmessage : StandIn (notExpanded.map ExpansionFailure.message)
      (RunFailure.expansion notExpanded).message := (standIn_combined _).after _
  have hnone : report? ((runFailures notExpanded (attempts.filterMap Attempt.failure?)).map
      RunFailure.message) = none ↔ notExpanded = [] ∧ ∀ attempt ∈ attempts, attempt.accepted = true := by
    rw [report?_runFailures, List.filterMap_eq_nil_iff]
    exact and_congr_right fun _ => forall₂_congr fun a _ => a.failure?_isNone
  have hobserved := generate_observed range shell store ts o
  rw [show (generate shell.observed store.observed range ts o).result = _ from hfailures] at hobserved
  refine ⟨by rw [hexpand o], unexpanded_eq_nil_iff range ts, by rw [hout], attempts, _, _, hdeclared,
    hcalls, hresult, rfl, hfailures, ?_, hmessage, ?_, hnone, hobserved⟩
  · simp only [runFailures, List.isEmpty_iff]
  · rw [length_runFailures, length_failures_eq_countP]

/-- Two templates that do not expand, for different reasons, and an item. -/
def mixedTemplates : List (Template Value) :=
  [{ name := "db", params := [("zone", .scalar (.int 5))] },
    { toItem := plainItem },
    { name := "queue", params := [("zone", .list [.text "eu", .null])] }]

/-- The templates that do not expand are one failure, and the values that are not set one each. -/
theorem generate_composes_mixed :
    (plainShell.Uninterrupted ∧ (Recorder.store ["set_notes"]).Uninterrupted)
      ∧ ∃ (attempts : List Attempt) (failures : List RunFailure),
        (generate plainShell.observed (Recorder.store ["set_notes"]).observed Range.ofValue
          mixedTemplates ⟨[], []⟩).result = .ok failures
        ∧ attempts.map Attempt.value = plainItem.declared
        ∧ StandIn ["error copying item db: 'int' object is not iterable",
            "error copying item queue: replace() argument 2 must be str, not None"]
          (RunFailure.expansion (unexpanded Range.ofValue mixedTemplates)).message
        ∧ failures.length = 1 + attempts.countP (fun attempt => !attempt.accepted)
        ∧ failures.length = 3 := by
  have hstore : (Recorder.store ["set_notes"]).Uninterrupted := Recorder.uninterrupted_store _
  obtain ⟨-, -, -, attempts, values, failures, hvalues, -, -, -, hresult, -, hmessage, hlength, -, -⟩ :=
    generate_composes Range.ofValue plainShell (Recorder.store ["set_notes"]) uninterrupted_plainShell
      hstore mixedTemplates ⟨[], []⟩
  have hrun : (generate plainShell.observed (Recorder.store ["set_notes"]).observed Range.ofValue
      mixedTemplates ⟨[], []⟩).result = .ok [.expansion (unexpanded Range.ofValue mixedTemplates),
        .value (.command "web" (.field "token") ⟨"false", "", some 1⟩),
        .value (.notes "web" (.rejected "set_notes"))] := by rfl
  have hthree : failures.length = 3 := by
    rw [Except.ok.inj (hresult.symm.trans hrun)]
    rfl
  exact ⟨⟨uninterrupted_plainShell, hstore⟩, attempts, failures, hresult, hvalues.trans rfl, hmessage,
    hlength, hthree⟩

end SecretForge
