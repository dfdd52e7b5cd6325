import SecretForge.Proofs.Expansion.Product
import SecretForge.Proofs.Update.Accounting

/-!
# How a run from the templates ends

A run expands its templates, which needs neither a shell nor a store, and then updates the store with the
items.  It ends with its failures unless the user breaks it off, and it ends without any exactly when
every template expands and every call succeeds.

* `generate_run` — a run is the update with these items, and its failures are those of both.
* `generate_ends`, **`generate_succeeds_iff`** — how a run ends.
* `generate_leads` — what every command and every operation keeps is kept by a run.
-/

namespace SecretForge

open Act

/-! ### The run as an update -/

section

variable {σ ρ : Type} (range : ρ → Range)

/-- The failures of a run, from those of its two parts. -/
def runFailures (notExpanded : List ExpansionFailure) (failures : List UpdateFailure) :
    List RunFailure :=
  (if notExpanded.isEmpty then [] else [.expansion notExpanded]) ++ failures.map .value

theorem runFailures_eq_nil_iff (notExpanded : List ExpansionFailure) (failures : List UpdateFailure) :
    runFailures notExpanded failures = [] ↔ notExpanded = [] ∧ failures = [] := by
  cases notExpanded <;> simp [runFailures]

/-- **A run is the update with the items of the templates that expand**, after a trace that depends on
neither the shell nor the store. -/
theorem generate_run (ts : List (Template ρ)) :
    ∃ es, ∀ {σ : Type} (shell : Shell σ) (store : Store σ) (s : σ),
      let out := update shell store ((expandedItems range ts).map (·.toItem)) s
      generate shell store range ts s
        = ⟨out.result.map (runFailures (unexpanded range ts)), es ++ out.events, out.state⟩ := by
  obtain ⟨es, hexpand⟩ := expandAll_run range ts
  refine ⟨es ++ [.logged ⟨.info, .update,
    s!"Expanded {ts.length} templates into {(expandedItems range ts).length} items"⟩],
    fun shell store s => ?_⟩
  simp only [generate, bind_run_ok (hexpand s), log_bind_run]
  rcases h : update shell store ((expandedItems range ts).map (·.toItem)) s with ⟨e | failures, fs, t⟩
  · simp only [bind_run_error h, h, List.append_assoc]
    rfl
  · simp only [bind_run_ok h, h, List.append_assoc, pure_run, List.append_nil]
    rfl

/-- An observed run is the run. -/
theorem generate_observed (shell : Shell σ) (store : Store σ) (ts : List (Template ρ))
    (o : Observed σ) :
    generate shell store range ts o.state
      = ⟨(generate shell.observed store.observed range ts o).result,
          (generate shell.observed store.observed range ts o).events,
          (generate shell.observed store.observed range ts o).state.state⟩ := by
  obtain ⟨es, hrun⟩ := generate_run range ts
  simp only [hrun, update_observed shell store _ o]

/-! ### The ways to end -/

/-- **A run is accounted for** by one attempt for each value that its items declare, unless the user
breaks it off. -/
theorem generate_ends (shell : Shell σ) (store : Store σ) (ts : List (Template ρ)) (o : Observed σ) :
    let out := generate shell.observed store.observed range ts o
    (∃ attempts : List Attempt,
        attempts.map Attempt.value
          = ((expandedItems range ts).map (·.toItem)).flatMap Item.declared
        ∧ out.result = .ok (runFailures (unexpanded range ts) (attempts.filterMap Attempt.failure?))
        ∧ out.state.calls = o.calls ++ attempts.flatMap Attempt.calls)
      ∨ BrokenOff shell store o.calls out := by
  obtain ⟨es, hrun⟩ := generate_run range ts
  simp only [hrun]
  rcases performAll_ends shell store (((expandedItems range ts).map (·.toItem)).flatMap fun item =>
      item.tasks.map fun task => (item.name, task)) o
    with ⟨attempts, hvalues, hresult, hcalls⟩ | hbroken
  · simp only [Item.tasks_eq_declared] at hvalues
    exact .inl ⟨attempts, hvalues, by rw [update, hresult]; rfl, hcalls⟩
  · exact .inr ⟨by rw [update, hbroken.result]; rfl, hbroken.calls, hbroken.cause⟩

/-- No call of attempts fails exactly when each attempt is accepted. -/
theorem calls_succeed_iff (attempts : List Attempt) :
    (∀ call ∈ attempts.flatMap Attempt.calls, call.isFailure = false)
      ↔ attempts.filterMap Attempt.failure? = [] := by
  rw [← List.length_eq_zero_iff, length_failures, List.countP_eq_zero]
  exact forall₂_congr fun call _ => (Bool.not_eq_true _).symm.to_iff

/-- **A run ends without failures** exactly when every template expands and every call succeeds. -/
theorem generate_succeeds_iff (shell : Shell σ) (store : Store σ) (ts : List (Template ρ)) (s : σ) :
    let out := generate shell.observed store.observed range ts ⟨s, []⟩
    out.result = .ok [] ↔ (∀ t ∈ ts, ∃ items, t.expand range = .ok items)
      ∧ ∀ call ∈ out.state.calls, call.isFailure = false := by
  intro out
  rw [← unexpanded_eq_nil_iff]
  rcases generate_ends range shell store ts ⟨s, []⟩ with ⟨attempts, -, hresult, hcalls⟩ | hbroken
  · rw [hresult, hcalls, Except.ok.injEq, runFailures_eq_nil_iff, List.nil_append, calls_succeed_iff]
  · -- the call that was broken off has failed
    obtain ⟨calls, hcalls, call, hcall, hfailed⟩ := hbroken.calls
    refine iff_of_false (fun h => nomatch hbroken.result.symm.trans h) fun h => ?_
    have := h.2 call (by rw [hcalls]; exact List.mem_append_right _ hcall)
    rw [hfailed] at this
    cases this

/-- **In a run that ends without failures** each value that its items declare was tried and accepted. -/
theorem accepted_of_generate {shell : Shell σ} {store : Store σ} {ts : List (Template ρ)} {s : σ}
    (h : (generate shell.observed store.observed range ts ⟨s, []⟩).result = .ok []) :
    ∃ attempts : List Attempt,
      attempts.map Attempt.value
        = ((expandedItems range ts).map (·.toItem)).flatMap Item.declared
      ∧ (generate shell.observed store.observed range ts ⟨s, []⟩).state.calls
        = attempts.flatMap Attempt.calls
      ∧ ∀ attempt ∈ attempts, attempt.accepted = true := by
  rcases generate_ends range shell store ts ⟨s, []⟩ with ⟨attempts, hvalues, hresult, hcalls⟩ | hbroken
  · rw [hresult, Except.ok.injEq, runFailures_eq_nil_iff, List.filterMap_eq_nil_iff] at h
    exact ⟨attempts, hvalues, hcalls, fun a ha => a.failure?_isNone.mp (h.2 a ha)⟩
  · exact nomatch hbroken.result.symm.trans h

end

/-! ### What every command and every operation keeps -/

section

variable {σ : Type} {R : σ → σ → Prop} {shell : Shell σ} {store : Store σ} (hrefl : ∀ s, R s s)
  (htrans : ∀ {s t u}, R s t → R t u → R s u) (hrun : ∀ command s, R s (shell.run command s).2)
  (happly : ∀ op, Leads R (store.apply op))

include happly

theorem offer_leads (op : Operation) : Leads R (offer store op) := fun s => by
  rw [offer_run]
  exact happly op s

include hrefl htrans hrun

theorem perform_leads (item : String) (task : Task) : Leads R (perform shell store item task) := by
  have hstill {α : Type} (l : Level) (m : String) (a : α) :
      Leads R (do Act.log l .update m; return a : Act σ Interrupted α) :=
    leads_of_state hrefl fun _ => rfl
  cases task with
  | produce place command =>
    refine .bind htrans (leads_of_state hrefl fun _ => rfl) fun _ => .bind htrans (fun s => ?_) fun r => ?_
    · rw [settle_run, execute_run]
      exact hrun command s
    · cases r with
      | error failure => exact hstill _ _ _
      | ok output =>
        refine .bind htrans (offer_leads happly _) fun r => ?_
        cases r with
        | error failure => exact hstill _ _ _
        | ok u => exact leads_of_state hrefl fun _ => rfl
  | annotate text =>
    refine .bind htrans (leads_of_state hrefl fun _ => rfl) fun _ =>
      .bind htrans (offer_leads happly _) fun r => ?_
    cases r with
    | error failure => exact hstill _ _ _
    | ok u => exact leads_of_state hrefl fun _ => rfl

/-- **A run keeps** what every command and every operation keeps. -/
theorem generate_leads {ρ : Type} (range : ρ → Range) (ts : List (Template ρ)) :
    Leads R (generate shell store range ts) := by
  have htasks (tasks : List (String × Task)) : Leads R (performAll shell store tasks) := by
    induction tasks with
    | nil => exact leads_of_state hrefl fun _ => rfl
    | cons entry tasks ih =>
      exact .bind htrans (perform_leads hrefl htrans hrun happly entry.1 entry.2) fun _ =>
        .bind htrans ih fun _ => leads_of_state hrefl fun _ => rfl
  obtain ⟨es, hgenerate⟩ := generate_run range ts
  intro s
  rw [hgenerate]
  exact htasks _ s

end

end SecretForge
