import SecretForge.Proofs.Trace
import SecretForge.Store.Versioned

/-!
# What an operation leaves in the trace

An operation of the versioned store makes its value known as a secret first, if it is one and secrets are
announced; after that it leaves nothing in the trace but records of the log.

* `LogsOnly` — the trace has nothing but records.
* `announcement` — what an assignment puts in front of the trace of its operation.
* **`apply_events`** — the trace of an operation.
* `logout_emits` — the end of a session leaves none.
-/

namespace SecretForge.Versioned

open Act

/-- The trace has nothing but records of the log. -/
def LogsOnly (es : List Event) : Prop := ∀ e ∈ es, ∃ r, e = .logged r

theorem joins_logsOnly : Joins LogsOnly := joins_forall _

variable (settings : Settings)

theorem request_logsOnly {α : Type} (f : Server → Except ServerFault α × Server) :
    Emits LogsOnly (request f) := emits_of_silent joins_logsOnly fun _ => rfl

theorem onSession_logsOnly {ε : Type} (f : Session → Session) :
    Emits LogsOnly (onSession f : Act State ε Unit) := emits_of_silent joins_logsOnly fun _ => rfl

theorem connect_logsOnly : Emits LogsOnly (connect settings) := by
  refine .bind joins_logsOnly (emits_of_silent joins_logsOnly fun _ => rfl) fun s => ?_
  split
  · exact .pure joins_logsOnly _
  · exact .bind joins_logsOnly (request_logsOnly _) fun _ => onSession_logsOnly _

theorem fetch_logsOnly (item : String) : Emits LogsOnly (fetch settings item) :=
  .bind joins_logsOnly (connect_logsOnly settings) fun _ => request_logsOnly _

theorem create_logsOnly (item : String) : Emits LogsOnly (create settings item) := by
  refine .bind joins_logsOnly (.emit fun e he => ⟨_, List.mem_singleton.mp he⟩) fun _ =>
    .bind joins_logsOnly (.attempt (.bind joins_logsOnly (connect_logsOnly settings) fun _ =>
      request_logsOnly _)) fun r => ?_
  rcases r with (e | _ | _ | _) | _
  · simp only
    split
    · exact .pure joins_logsOnly _
    · exact .fail joins_logsOnly _
  case ok => exact .pure joins_logsOnly _
  all_goals exact .fail joins_logsOnly _

theorem stored_logsOnly (item : String) : Emits LogsOnly (stored settings item) := by
  refine .bind joins_logsOnly (.attempt (fetch_logsOnly settings item)) fun r => ?_
  rcases r with (e | _ | _ | _) | version
  · simp only
    split
    · exact .bind joins_logsOnly (create_logsOnly settings item) fun _ => .pure joins_logsOnly _
    · exact .fail joins_logsOnly _
  case ok =>
    simp only
    split
    · exact .pure joins_logsOnly _
    · exact .fail joins_logsOnly _
  all_goals exact .fail joins_logsOnly _

theorem load_logsOnly (item : String) : Emits LogsOnly (load settings item) := by
  refine .bind joins_logsOnly (emits_of_silent joins_logsOnly fun _ => rfl) fun s => ?_
  split
  · exact .pure joins_logsOnly _
  · split
    · exact .fail joins_logsOnly _
    · exact .bind joins_logsOnly (stored_logsOnly settings item) fun _ =>
        .bind joins_logsOnly (onSession_logsOnly _) fun _ => .pure joins_logsOnly _

theorem save_logsOnly (item : String) (d : Document) : Emits LogsOnly (save settings item d) := by
  refine .bind joins_logsOnly (.attempt (.bind joins_logsOnly (connect_logsOnly settings) fun _ =>
    request_logsOnly _)) fun r => ?_
  rcases r with (e | _ | _ | _) | _
  · exact .bind joins_logsOnly (onSession_logsOnly _) fun _ => .fail joins_logsOnly _
  case ok => exact .pure joins_logsOnly _
  all_goals exact .fail joins_logsOnly _

/-- What an assignment makes known before anything else is done with it. -/
def announcement (a : Assignment) : List Event :=
  if settings.announces then a.secret?.toList.map Event.learned else []

theorem announce_eq (a : Assignment) (s : State) :
    announce settings a s = ⟨.ok (), announcement settings a, s⟩ := by
  rw [announce, announcement]
  cases settings.announces <;> cases a.secret? <;> rfl

/-- **The trace of an operation** is its announcement and records of the log. -/
theorem apply_events (op : Operation) (s : State) :
    ∃ logs, (apply settings op s).events = announcement settings op.assignment ++ logs
      ∧ LogsOnly logs := by
  rw [apply, bind_run_ok (announce_eq settings op.assignment s)]
  refine ⟨_, rfl, ?_⟩
  refine Emits.bind joins_logsOnly (load_logsOnly settings op.item) (fun d => ?_) s
  split
  · exact .fail joins_logsOnly _
  · exact .bind joins_logsOnly (onSession_logsOnly _) fun _ => save_logsOnly settings op.item _

/-- The end of a session leaves nothing in the trace. -/
theorem logout_emits {P : List Event → Prop} (hP : Joins P) : Emits P logout := by
  have hsilent {ε : Type} (f : Session → Session) : Emits P (onSession f : Act State ε Unit) :=
    emits_of_silent hP fun _ => rfl
  refine .bind hP (emits_of_silent hP fun _ => rfl) fun s => ?_
  dsimp only
  split
  · refine .bind hP (.attempt (emits_of_silent hP fun _ => rfl)) fun r => ?_
    cases r with
    | error f => exact .bind hP (.fail hP _) fun _ => hsilent _
    | ok u => exact hsilent _
  · exact hsilent _

end SecretForge.Versioned
