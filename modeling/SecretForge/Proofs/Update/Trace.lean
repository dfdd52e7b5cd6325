import SecretForge.Proofs.Trace
import SecretForge.Update

/-!
# What an update leaves in the trace

The trace of an update is put together from records, commands and the traces of the operations that it
hands to the store, so a property of traces that joins holds of an update as soon as it holds of these.

* `update_emits`, **`generate_emits`** — an update, and a whole run from the templates.
-/

namespace SecretForge

open Act

variable {P : List Event → Prop}

section

variable (hP : Joins P) (hlogged : ∀ r, P [.logged r])

include hP hlogged

/-- Expanding templates leaves records only. -/
theorem expandAll_emits {σ ε ρ : Type} (range : ρ → Range) (ts : List (Template ρ)) :
    Emits P (expandAll range ts : Act σ ε _) := by
  induction ts with
  | nil => exact .pure hP _
  | cons t ts ih =>
    rw [expandAll]
    split
    · exact .bind hP (.emit (hlogged _)) fun _ => .bind hP ih fun _ => .pure hP _
    · split
      · exact .bind hP (.emit (hlogged _)) fun _ => .bind hP ih fun _ => .pure hP _
      · exact .bind hP ih fun _ => .pure hP _

variable {σ : Type} {shell : Shell σ} {store : Store σ} (hran : ∀ c, P [.ran c])
  (hoffer : ∀ op, Emits P (offer store op))

include hran

theorem execute_emits (command : String) : Emits P (execute shell command) := by
  refine .bind hP (.emit (hlogged _)) fun _ => .bind hP (.emit (hran _)) fun _ =>
    .bind hP (emits_of_silent hP fun _ => rfl) fun s => ?_
  exact .bind hP (emits_of_silent hP fun _ => rfl) fun _ => .ofExcept hP _

include hoffer

theorem perform_emits (item : String) (task : Task) : Emits P (perform shell store item task) := by
  cases task with
  | produce place command =>
    refine .bind hP (.emit (hlogged _)) fun _ =>
      .bind hP (.settle (execute_emits hP hlogged hran command)) fun r => ?_
    cases r with
    | error failure => exact .bind hP (.emit (hlogged _)) fun _ => .pure hP _
    | ok output =>
      refine .bind hP (hoffer _) fun r => ?_
      cases r with
      | error failure => exact .bind hP (.emit (hlogged _)) fun _ => .pure hP _
      | ok u => exact .pure hP _
  | annotate text =>
    refine .bind hP (.emit (hlogged _)) fun _ => .bind hP (hoffer _) fun r => ?_
    cases r with
    | error failure => exact .bind hP (.emit (hlogged _)) fun _ => .pure hP _
    | ok u => exact .pure hP _

theorem update_emits (items : List Item) : Emits P (update shell store items) := by
  rw [update]
  generalize items.flatMap (fun item => item.tasks.map fun task => (item.name, task)) = tasks
  induction tasks with
  | nil => exact .pure hP _
  | cons entry tasks ih =>
    exact .bind hP (perform_emits hP hlogged hran hoffer entry.1 entry.2) fun _ =>
      .bind hP ih fun _ => .pure hP _

/-- **A run from the templates** has a property of traces that records, commands and the operations handed
to the store have. -/
theorem generate_emits {ρ : Type} (range : ρ → Range) (ts : List (Template ρ)) :
    Emits P (generate shell store range ts) :=
  .bind hP (expandAll_emits hP hlogged range ts) fun _ => .bind hP (.emit (hlogged _)) fun _ =>
    .bind hP (update_emits hP hlogged hran hoffer _) fun _ => .pure hP _

end

end SecretForge
