import SecretForge.Proofs.Trace
import SecretForge.Store.Recorder
import SecretForge.Update

/-!
# The accounts of an update

Nothing is lost between the values that a list of items declares, the commands that are run, the
operations that a store is asked for, and the failures that are reported.  A shell and a store are
*observed* by a list in which every call is written down with its answer; the observation changes
nothing else (`update_observed`).

* `Attempt` is what became of one value: its command failed, or it was handed to the store, which
  answered.  An attempt fixes the value it is about, the calls it took and the failure it leaves.
* `perform_ends` is the account of one task, `performAll_ends` of a list of them; a run of tasks may also
  be `BrokenOff` by the user.
* **`update_accounts`** — the calls of an update and its failures are those of one attempt for each
  value declared, in the order of the declarations.
-/

namespace SecretForge

open Act

/-! ### Observation -/

/-- A call of a run with its answer. -/
inductive Call where
  /-- A command was run. -/
  | ran (command : String) (answer : Except (Stop CommandFailure) (List UInt8))
  /-- An operation was handed to the store. -/
  | stored (operation : Operation) (answer : Except (Stop StoreFailure) Unit)

namespace Call

def command? : Call → Option String
  | .ran command _ => some command
  | .stored _ _ => none

def isFailure : Call → Bool
  | .ran _ (.error _) => true
  | .stored _ (.error _) => true
  | _ => false

end Call

/-- A state together with the calls so far. -/
structure Observed (σ : Type) where
  state : σ
  calls : List Call := []

variable {σ : Type}

/-- The shell with every command written down. -/
def Shell.observed (shell : Shell σ) : Shell (Observed σ) where
  run command o :=
    let (answer, t) := shell.run command o.state
    (answer, ⟨t, o.calls ++ [.ran command (answer.value command)]⟩)

/-- The store with every operation written down. -/
def Store.observed (store : Store σ) : Store (Observed σ) where
  apply op o :=
    let out := store.apply op o.state
    ⟨out.result, out.events, ⟨out.state, o.calls ++ [.stored op out.result]⟩⟩
  logout := store.logout.within Observed.state fun t o => { o with state := t }

/-- No command is broken off by the user. -/
def Shell.Uninterrupted (shell : Shell σ) : Prop :=
  ∀ command s, (shell.run command s).1 ≠ .interrupted

/-- No operation is broken off by the user: each is carried out or fails. -/
def Store.Uninterrupted (store : Store σ) : Prop :=
  ∀ op s, (store.apply op s).result ≠ .error .interrupted

/-! ### Attempts -/

/-- What became of one value. -/
inductive Attempt where
  /-- Its command failed. -/
  | spoiled (item : String) (place : Place) (command : String) (failure : CommandFailure)
  /-- Its command wrote bytes, and the store answered to them. -/
  | uploaded (item : String) (place : Place) (command : String) (output : List UInt8)
      (answer : Except StoreFailure Unit)
  /-- It is a text that needs no command, and the store answered to it. -/
  | annotated (item text : String) (answer : Except StoreFailure Unit)

namespace Attempt

def value : Attempt → String × Task
  | .spoiled item place command _ => (item, .produce place command)
  | .uploaded item place command _ _ => (item, .produce place command)
  | .annotated item text _ => (item, .annotate text)

/-- The calls of an attempt: the command exactly once where there is one, and the store exactly once
unless the command failed, for the item and the entry that declare the value and with the very bytes
that the command wrote. -/
def calls : Attempt → List Call
  | .spoiled _ _ command failure => [.ran command (.error (.failed failure))]
  | .uploaded item (.field name) command output answer =>
    [.ran command (.ok output), .stored ⟨item, .field name output⟩ (answer.mapError .failed)]
  | .uploaded item (.attachment name) command output answer =>
    [.ran command (.ok output), .stored ⟨item, .attachment name output⟩ (answer.mapError .failed)]
  | .uploaded item .password command output answer =>
    [.ran command (.ok output), .stored ⟨item, .password output⟩ (answer.mapError .failed)]
  | .annotated item text answer => [.stored ⟨item, .notes text⟩ (answer.mapError .failed)]

def failure? : Attempt → Option UpdateFailure
  | .spoiled item place _ failure => some (.command item place failure)
  | .uploaded item place _ _ (.error failure) => some (.upload item place failure)
  | .annotated item _ (.error failure) => some (.notes item failure)
  | _ => none

/-- Whether the store accepted the value. -/
def accepted : Attempt → Bool
  | .uploaded _ _ _ _ (.ok ()) => true
  | .annotated _ _ (.ok ()) => true
  | _ => false

theorem failure?_isNone (a : Attempt) : a.failure? = none ↔ a.accepted = true := by
  cases a with
  | spoiled => simp [failure?, accepted]
  | uploaded item place command output answer => cases answer <;> simp [failure?, accepted]
  | annotated item text answer => cases answer <;> simp [failure?, accepted]

/-- An attempt that fails has one failing call, and one that is accepted has none. -/
theorem countP_calls (a : Attempt) :
    a.calls.countP Call.isFailure = a.failure?.toList.length := by
  cases a with
  | spoiled => rfl
  | uploaded item place command output answer => cases place <;> cases answer <;> rfl
  | annotated item text answer => cases answer <;> rfl

/-- The store is offered the value of an upload at its place. -/
theorem calls_uploaded (item : String) (place : Place) (command : String) (output : List UInt8)
    (answer : Except StoreFailure Unit) :
    (uploaded item place command output answer).calls
      = [.ran command (.ok output)]
        ++ [.stored ⟨item, place.assign output⟩ (answer.mapError .failed)] := by
  cases place <;> rfl

end Attempt

/-- Each attempt is accepted or leaves a failure. -/
theorem attempts_balance (attempts : List Attempt) :
    attempts.length
      = attempts.countP Attempt.accepted + (attempts.filterMap Attempt.failure?).length := by
  induction attempts with
  | nil => rfl
  | cons a attempts ih =>
    rw [List.length_cons, ih, List.countP_cons]
    cases h : a.failure? with
    | none =>
      rw [List.filterMap_cons_none h, if_pos (a.failure?_isNone.mp h)]
      omega
    | some f =>
      have ha : ¬ a.accepted = true := fun ha => by simp [a.failure?_isNone.mpr ha] at h
      rw [List.filterMap_cons_some h, if_neg ha, List.length_cons]
      omega

/-- The failures of attempts are as many as their failing calls. -/
theorem length_failures (attempts : List Attempt) :
    (attempts.filterMap Attempt.failure?).length
      = (attempts.flatMap Attempt.calls).countP Call.isFailure := by
  induction attempts with
  | nil => rfl
  | cons a attempts ih =>
    rw [List.flatMap_cons, List.countP_append, a.countP_calls, ← ih]
    cases h : a.failure? with
    | none => rw [List.filterMap_cons_none h]; simp
    | some f => rw [List.filterMap_cons_some h]; simp; omega

/-- There is no report exactly when there is no failure. -/
theorem report?_map_eq_none_iff {α : Type} (message : α → String) (failures : List α) :
    report? (failures.map message) = none ↔ failures = [] := by
  cases failures <;> simp [report?]

/-- There is no report exactly when every attempt is accepted. -/
theorem report?_attempts (attempts : List Attempt) :
    report? ((attempts.filterMap Attempt.failure?).map UpdateFailure.message) = none
      ↔ ∀ a ∈ attempts, a.accepted = true := by
  rw [report?_map_eq_none_iff, List.filterMap_eq_nil_iff]
  exact forall₂_congr fun a _ => a.failure?_isNone

/-! ### The account of one task -/

/-- A command is run once, and its answer decides. -/
theorem execute_run (shell : Shell σ) (command : String) (s : σ) :
    execute shell command s
      = ⟨(shell.run command s).1.value command,
          [.logged ⟨.debug, .command, s!"Running: {command}"⟩, .ran command],
          (shell.run command s).2⟩ := by
  simp only [execute, log_bind_run, emit_bind_run, get_bind_run, set_bind_run, ofExcept_run]

/-- The store is asked once. -/
theorem offer_run (store : Store σ) (op : Operation) (s : σ) :
    offer store op s
      = ⟨settled (store.apply op s).result, .offered op :: (store.apply op s).events,
          (store.apply op s).state⟩ := by
  simp only [offer, emit_bind_run, settle_run]

/-- A command is run once: it fails, it yields bytes, or the user breaks it off. -/
theorem command_ends (shell : Shell σ) (command : String) (o : Observed σ) :
    let out := Act.settle (execute shell.observed command) o
    (∃ answer : Except CommandFailure (List UInt8), out.result = .ok answer
        ∧ out.state.calls = o.calls ++ [.ran command (answer.mapError .failed)])
      ∨ out.result = .error .byUser ∧ out.state.calls = o.calls ++ [.ran command (.error .interrupted)]
        ∧ ¬ shell.Uninterrupted := by
  have hcalls : (shell.observed.run command o).2.calls
      = o.calls ++ [.ran command ((shell.run command o.state).1.value command)] := rfl
  have hvalue : (shell.observed.run command o).1.value command
      = (shell.run command o.state).1.value command := rfl
  simp only [settle_run, execute_run, hvalue, hcalls]
  cases h : (shell.run command o.state).1 with
  | ended output status =>
    simp only [ShellAnswer.value]
    split
    · exact .inl ⟨.ok output, rfl, rfl⟩
    · exact .inl ⟨.error _, rfl, rfl⟩
  | notRun reason => exact .inl ⟨.error _, rfl, rfl⟩
  | interrupted => exact .inr ⟨rfl, rfl, fun huninterrupted => huninterrupted command o.state h⟩

/-- The store is asked once: it carries the operation out, it refuses it, or the user breaks it off. -/
theorem offer_ends (store : Store σ) (op : Operation) (o : Observed σ) :
    let out := offer store.observed op o
    (∃ answer : Except StoreFailure Unit, out.result = .ok answer
        ∧ out.state.calls = o.calls ++ [.stored op (answer.mapError .failed)])
      ∨ out.result = .error .byUser ∧ out.state.calls = o.calls ++ [.stored op (.error .interrupted)]
        ∧ ¬ store.Uninterrupted := by
  have hresult : (store.observed.apply op o).result = (store.apply op o.state).result := rfl
  have hcalls : (store.observed.apply op o).state.calls
      = o.calls ++ [.stored op (store.apply op o.state).result] := rfl
  simp only [offer_run, hresult, hcalls]
  rcases h : (store.apply op o.state).result with (failure | _) | _
  · exact .inl ⟨.error failure, rfl, rfl⟩
  · exact .inr ⟨rfl, rfl, fun huninterrupted => huninterrupted op o.state h⟩
  · exact .inl ⟨.ok (), rfl, rfl⟩

/-- A computation was broken off by the user, and the call that was broken off is among its calls. -/
structure BrokenOff {α : Type} (shell : Shell σ) (store : Store σ) (earlier : List Call)
    (out : Outcome (Observed σ) Interrupted α) : Prop where
  result : out.result = .error .byUser
  calls : ∃ calls, out.state.calls = earlier ++ calls ∧ ∃ call ∈ calls, call.isFailure = true
  cause : ¬ (shell.Uninterrupted ∧ store.Uninterrupted)

section

variable (shell : Shell σ) (store : Store σ)

/-- **The account of one task** is one attempt at its value, unless the user breaks it off. -/
theorem perform_ends (item : String) (task : Task) (o : Observed σ) :
    let out := perform shell.observed store.observed item task o
    (∃ attempt : Attempt, attempt.value = (item, task) ∧ out.result = .ok attempt.failure?
        ∧ out.state.calls = o.calls ++ attempt.calls)
      ∨ BrokenOff shell store o.calls out := by
  cases task with
  | produce place command =>
    simp only [perform, log_bind_run]
    rcases command_ends shell command o with ⟨answer, hresult, hcalls⟩ | ⟨hresult, hcalls, hcause⟩
    · rw [bind_run_of_result hresult]
      cases answer with
      | error failure => exact .inl ⟨.spoiled item place command failure, rfl, rfl, hcalls⟩
      | ok output =>
        rcases offer_ends store ⟨item, place.assign output⟩
            (Act.settle (execute shell.observed command) o).state
          with ⟨answer, hanswer, hstored⟩ | ⟨hanswer, hstored, hcause⟩
        · rw [hcalls, List.append_assoc] at hstored
          refine .inl ⟨.uploaded item place command output answer, rfl, ?_⟩
          simp only [bind_run_of_result hanswer, Attempt.calls_uploaded]
          cases answer <;> exact ⟨rfl, hstored⟩
        · rw [hcalls, List.append_assoc] at hstored
          simp only [bind_run_of_failure hanswer]
          exact .inr ⟨rfl, ⟨_, hstored, _, List.mem_of_getLast? rfl, rfl⟩, fun h => hcause h.2⟩
    · rw [bind_run_of_failure hresult]
      exact .inr ⟨rfl, ⟨_, hcalls, _, List.mem_singleton_self _, rfl⟩, fun h => hcause h.1⟩
  | annotate text =>
    simp only [perform, log_bind_run]
    rcases offer_ends store ⟨item, .notes text⟩ o
      with ⟨answer, hanswer, hcalls⟩ | ⟨hanswer, hcalls, hcause⟩
    · rw [bind_run_of_result hanswer]
      refine .inl ⟨.annotated item text answer, rfl, ?_⟩
      cases answer <;> exact ⟨rfl, hcalls⟩
    · rw [bind_run_of_failure hanswer]
      exact .inr ⟨rfl, ⟨_, hcalls, _, List.mem_singleton_self _, rfl⟩, fun h => hcause h.2⟩

/-- **The account of tasks** is one attempt at the value of each, in order, unless the user breaks them
off. -/
theorem performAll_ends (tasks : List (String × Task)) (o : Observed σ) :
    let out := performAll shell.observed store.observed tasks o
    (∃ attempts : List Attempt, attempts.map Attempt.value = tasks
        ∧ out.result = .ok (attempts.filterMap Attempt.failure?)
        ∧ out.state.calls = o.calls ++ attempts.flatMap Attempt.calls)
      ∨ BrokenOff shell store o.calls out := by
  induction tasks generalizing o with
  | nil => exact .inl ⟨[], rfl, rfl, (List.append_nil _).symm⟩
  | cons entry tasks ih =>
    obtain ⟨item, task⟩ := entry
    simp only [performAll]
    rcases perform_ends shell store item task o with ⟨attempt, hvalue, hresult, hcalls⟩ | hbroken
    · rw [bind_run_of_result hresult]
      rcases ih (perform shell.observed store.observed item task o).state
        with ⟨attempts, hvalues, hresults, hallCalls⟩ | hbroken
      · rw [bind_run_of_result hresults]
        refine .inl ⟨attempt :: attempts, by rw [List.map_cons, hvalue, hvalues], ?_, ?_⟩
        · cases h : attempt.failure? with
          | none => rw [List.filterMap_cons_none h]; rfl
          | some f => rw [List.filterMap_cons_some h]; rfl
        · show (performAll shell.observed store.observed tasks _).state.calls = _
          rw [hallCalls, hcalls, List.flatMap_cons, List.append_assoc]
      · -- the calls of the first task stand before the one that was broken off
        obtain ⟨calls, hlater, call, hcall, hfailed⟩ := hbroken.calls
        rw [bind_run_of_failure hbroken.result]
        rw [hcalls, List.append_assoc] at hlater
        exact .inr ⟨rfl, ⟨_, hlater, call, List.mem_append_right _ hcall, hfailed⟩, hbroken.cause⟩
    · rw [bind_run_of_failure hbroken.result]
      exact .inr ⟨rfl, hbroken.calls, hbroken.cause⟩

/-- Tasks that nobody breaks off are accounted for. -/
theorem performAll_accounts {shell : Shell σ} {store : Store σ} (hshell : shell.Uninterrupted)
    (hstore : store.Uninterrupted) (tasks : List (String × Task)) (o : Observed σ) :
    ∃ attempts : List Attempt, attempts.map Attempt.value = tasks
      ∧ (performAll shell.observed store.observed tasks o).result
        = .ok (attempts.filterMap Attempt.failure?)
      ∧ (performAll shell.observed store.observed tasks o).state.calls
        = o.calls ++ attempts.flatMap Attempt.calls :=
  (performAll_ends shell store tasks o).resolve_right fun h => h.cause ⟨hshell, hstore⟩

end

/-! ### Observation changes nothing -/

/-- A computation over an observed state does what another does over the state alone. -/
def Erases {ε α : Type} (x : Act (Observed σ) ε α) (y : Act σ ε α) : Prop :=
  ∀ o, y o.state = ⟨(x o).result, (x o).events, (x o).state.state⟩

namespace Erases

variable {ε α β : Type}

theorem pure (a : α) : Erases (Pure.pure a : Act (Observed σ) ε α) (Pure.pure a) := fun _ => rfl

theorem emit (e : Event) : Erases (Act.emit e : Act (Observed σ) ε Unit) (Act.emit e) := fun _ => rfl

theorem log (l : Level) (p : Origin) (m : String) :
    Erases (Act.log l p m : Act (Observed σ) ε Unit) (Act.log l p m) := fun _ => rfl

theorem bind {x : Act (Observed σ) ε α} {y : Act σ ε α} {f : α → Act (Observed σ) ε β}
    {g : α → Act σ ε β} (hx : Erases x y) (hf : ∀ a, Erases (f a) (g a)) :
    Erases (x >>= f) (y >>= g) := by
  intro o
  have hy := hx o
  rcases h : x o with ⟨r, es, t⟩
  rw [h] at hy
  cases r with
  | error e => rw [bind_run_error h, bind_run_error hy]
  | ok a => rw [bind_run_ok h, bind_run_ok hy, hf a t]

theorem settle {x : Act (Observed σ) (Stop ε) α} {y : Act σ (Stop ε) α} (h : Erases x y) :
    Erases (Act.settle x) (Act.settle y) := by
  intro o
  simp only [settle_run, h o]

end Erases

theorem erases_execute (shell : Shell σ) (command : String) :
    Erases (execute shell.observed command) (execute shell command) := by
  intro o
  simp only [execute_run]
  rfl

theorem erases_offer (store : Store σ) (op : Operation) :
    Erases (offer store.observed op) (offer store op) :=
  (Erases.emit _).bind fun _ => Erases.settle fun _ => rfl

theorem erases_perform (shell : Shell σ) (store : Store σ) (item : String) (task : Task) :
    Erases (perform shell.observed store.observed item task) (perform shell store item task) := by
  cases task with
  | produce place command =>
    refine (Erases.log _ _ _).bind fun _ =>
      (Erases.settle (erases_execute shell command)).bind fun r => ?_
    cases r with
    | error failure => exact (Erases.log _ _ _).bind fun _ => Erases.pure _
    | ok output =>
      refine (erases_offer store _).bind fun r => ?_
      cases r with
      | error failure => exact (Erases.log _ _ _).bind fun _ => Erases.pure _
      | ok u => exact Erases.pure _
  | annotate text =>
    refine (Erases.log _ _ _).bind fun _ => (erases_offer store _).bind fun r => ?_
    cases r with
    | error failure => exact (Erases.log _ _ _).bind fun _ => Erases.pure _
    | ok u => exact Erases.pure _

/-- An observed run of tasks is the run of the tasks. -/
theorem erases_performAll (shell : Shell σ) (store : Store σ) (tasks : List (String × Task)) :
    Erases (performAll shell.observed store.observed tasks) (performAll shell store tasks) := by
  induction tasks with
  | nil => exact Erases.pure _
  | cons entry tasks ih =>
    exact (erases_perform shell store entry.1 entry.2).bind fun _ =>
      ih.bind fun _ => Erases.pure _

/-- **Observation changes nothing**: an observed update ends as the update does, with the same
events and the same state. -/
theorem update_observed (shell : Shell σ) (store : Store σ) (items : List Item) (o : Observed σ) :
    update shell store items o.state
      = ⟨(update shell.observed store.observed items o).result,
          (update shell.observed store.observed items o).events,
          (update shell.observed store.observed items o).state.state⟩ :=
  erases_performAll shell store _ o

/-! ### The account of an update -/

/-- The values that an item declares: its fields, its attachments, its password and its notes, where
an empty password and empty notes are none. -/
def Item.declared (item : Item) : List (String × Task) :=
  item.fields.map (fun e => (item.name, .produce (.field e.name) e.cmd))
    ++ item.attachments.map (fun e => (item.name, .produce (.attachment e.name) e.cmd))
    ++ (if item.password = "" then [] else [(item.name, .produce .password item.password)])
    ++ (if item.notes = "" then [] else [(item.name, .annotate item.notes)])

def Item.commands (item : Item) : List String :=
  item.fields.map (·.cmd) ++ item.attachments.map (·.cmd)
    ++ (if item.password = "" then [] else [item.password])

theorem Item.tasks_eq_declared (item : Item) :
    item.tasks.map (fun task => (item.name, task)) = item.declared := by
  have hempty (s : String) : s.isEmpty = true ↔ s = "" := String.isEmpty_iff
  simp only [Item.tasks, Item.declared, List.map_append, List.map_map, hempty]
  congr 1
  · congr 1
    split <;> rfl
  · split <;> rfl

/-- The command that a value needs. -/
def Task.command? : Task → Option String
  | .produce _ command => some command
  | .annotate _ => none

theorem Attempt.commands_calls (a : Attempt) :
    a.calls.filterMap Call.command? = a.value.2.command?.toList := by
  cases a with
  | uploaded item place command output answer => cases place <;> rfl
  | _ => rfl

theorem Item.commands_declared (item : Item) :
    item.declared.filterMap (·.2.command?) = item.commands := by
  have hcmds (place : Entry → Place) (es : List Entry) :
      (es.map fun e => (item.name, Task.produce (place e) e.cmd)).filterMap (·.2.command?)
        = es.map (·.cmd) := by
    rw [List.filterMap_map, ← List.filterMap_eq_map]
    rfl
  simp only [Item.declared, Item.commands, List.filterMap_append, hcmds]
  rw [List.append_assoc]
  congr 1
  by_cases hp : item.password = "" <;> by_cases hn : item.notes = "" <;>
    simp [hp, hn, Task.command?]

/-- The commands that attempts run are those of their values. -/
theorem commands_attempts (attempts : List Attempt) :
    (attempts.flatMap Attempt.calls).filterMap Call.command?
      = (attempts.map Attempt.value).filterMap (·.2.command?) := by
  induction attempts with
  | nil => rfl
  | cons a attempts ih =>
    rw [List.flatMap_cons, List.filterMap_append, a.commands_calls, ih, List.map_cons,
      List.filterMap_cons]
    cases a.value.2.command? <;> rfl

/-- The commands of a list of items are those of the values that it declares. -/
theorem commands_flatMap (items : List Item) :
    (items.flatMap Item.declared).filterMap (·.2.command?) = items.flatMap Item.commands := by
  induction items with
  | nil => rfl
  | cons item items ih =>
    rw [List.flatMap_cons, List.filterMap_append, item.commands_declared, ih, List.flatMap_cons]

/-- An update makes one attempt for each value that the items declare. -/
theorem update_attempts {shell : Shell σ} {store : Store σ} (hshell : shell.Uninterrupted)
    (hstore : store.Uninterrupted) (items : List Item) (o : Observed σ) :
    ∃ attempts : List Attempt, attempts.map Attempt.value = items.flatMap Item.declared
      ∧ (update shell.observed store.observed items o).result
        = .ok (attempts.filterMap Attempt.failure?)
      ∧ (update shell.observed store.observed items o).state.calls
        = o.calls ++ attempts.flatMap Attempt.calls := by
  obtain ⟨attempts, hvalues, hresult, hcalls⟩ := performAll_accounts hshell hstore
    (items.flatMap fun item => item.tasks.map fun task => (item.name, task)) o
  refine ⟨attempts, ?_, hresult, hcalls⟩
  rw [hvalues]
  simp only [Item.tasks_eq_declared]

/-- **The account of an update.**  Whatever the commands write and however the store answers, as long
as nobody breaks the run off: there is one attempt for each value that the items declare, in order;
the calls of the update are the calls of these attempts, so that every command is run exactly once and
the store is asked exactly once for each value whose command succeeded, with the bytes it wrote; the
failures reported are those of the attempts, so that the values are the accepted ones and the failed
ones together; and there is no report exactly when every value was accepted. -/
theorem update_accounts (shell : Shell σ) (store : Store σ) (hshell : shell.Uninterrupted)
    (hstore : store.Uninterrupted) (items : List Item) (o : Observed σ) :
    ∃ attempts : List Attempt, ∃ failures : List UpdateFailure,
      (update shell.observed store.observed items o).result = .ok failures
      ∧ (update shell.observed store.observed items o).state.calls
          = o.calls ++ attempts.flatMap Attempt.calls
      ∧ attempts.map Attempt.value = items.flatMap Item.declared
      ∧ (attempts.flatMap Attempt.calls).filterMap Call.command? = items.flatMap Item.commands
      ∧ failures = attempts.filterMap Attempt.failure?
      ∧ failures.length = (attempts.flatMap Attempt.calls).countP Call.isFailure
      ∧ attempts.length = attempts.countP Attempt.accepted + failures.length
      ∧ (report? (failures.map UpdateFailure.message) = none
          ↔ ∀ a ∈ attempts, a.accepted = true)
      ∧ update shell store items o.state
          = ⟨.ok failures, (update shell.observed store.observed items o).events,
              (update shell.observed store.observed items o).state.state⟩ := by
  obtain ⟨attempts, hdeclared, hresult, hcalls⟩ := update_attempts hshell hstore items o
  have hobserved := update_observed shell store items o
  rw [hresult] at hobserved
  refine ⟨attempts, attempts.filterMap Attempt.failure?, hresult, hcalls, hdeclared, ?_, rfl,
    length_failures attempts, attempts_balance attempts, report?_attempts attempts, hobserved⟩
  rw [commands_attempts, hdeclared, commands_flatMap]

/-- Nobody breaks off the store that records. -/
theorem Recorder.uninterrupted_store (refused : List String) : (Recorder.store refused).Uninterrupted := by
  intro op s
  show ((if _ then Act.fail _ else Act.modify _ : Act _ (Stop StoreFailure) Unit) s).result ≠ _
  split <;> simp

/-- A shell in which `false` fails, one command writes bytes that are no text, and every other command
writes a letter. -/
def plainShell : Shell (List Operation) :=
  Shell.ofAnswers fun command =>
    if command = "false" then .ended [] 1
    else if command = "openssl rand 2" then .ended [0xd3, 0x0a] 0
    else .ended [0x61] 0

theorem uninterrupted_plainShell : plainShell.Uninterrupted := by
  intro command s
  show (if command = "false" then ShellAnswer.ended [] 1
    else if command = "openssl rand 2" then .ended [0xd3, 0x0a] 0 else .ended [0x61] 0) ≠ _
  split
  · simp
  · split <;> simp

/-- An item with a value of each kind, the first of which has a failing command. -/
def plainItem : Item where
  name := "web"
  fields := [⟨"token", "false"⟩, ⟨"key", "openssl rand 2"⟩]
  attachments := [⟨"cert", "cat cert"⟩]
  password := "pwgen"
  notes := "by hand"

/-- Of five values the first has a failing command and the last is refused; the others are handed over
as they were written, each under its own name. -/
theorem update_accounts_plain :
    (plainShell.Uninterrupted ∧ (Recorder.store ["set_notes"]).Uninterrupted)
      ∧ ∃ attempts : List Attempt, ∃ failures : List UpdateFailure,
        attempts.map Attempt.value = plainItem.declared
          ∧ attempts.flatMap Attempt.calls
            = [.ran "false" (.error (.failed ⟨"false", "", some 1⟩)),
                .ran "openssl rand 2" (.ok [0xd3, 0x0a]),
                .stored ⟨"web", .field "key" [0xd3, 0x0a]⟩ (.ok ()),
                .ran "cat cert" (.ok [0x61]), .stored ⟨"web", .attachment "cert" [0x61]⟩ (.ok ()),
                .ran "pwgen" (.ok [0x61]), .stored ⟨"web", .password [0x61]⟩ (.ok ()),
                .stored ⟨"web", .notes "by hand"⟩ (.error (.failed (.rejected "set_notes")))]
          ∧ failures = [.command "web" (.field "token") ⟨"false", "", some 1⟩,
              .notes "web" (.rejected "set_notes")]
          ∧ attempts.countP Attempt.accepted = 3 := by
  have hstore : (Recorder.store ["set_notes"]).Uninterrupted := Recorder.uninterrupted_store _
  obtain ⟨attempts, failures, hresult, hcalls, hvalues, -, -, -, hbalance, -⟩ :=
    update_accounts plainShell (Recorder.store ["set_notes"]) uninterrupted_plainShell hstore [plainItem]
      ⟨[], []⟩
  have hvalues' : attempts.map Attempt.value = plainItem.declared := by simpa using hvalues
  have hfailures : failures = [.command "web" (.field "token") ⟨"false", "", some 1⟩,
      .notes "web" (.rejected "set_notes")] := by
    have hrun : (update plainShell.observed (Recorder.store ["set_notes"]).observed [plainItem]
        ⟨[], []⟩).result = .ok [.command "web" (.field "token") ⟨"false", "", some 1⟩,
          .notes "web" (.rejected "set_notes")] := by rfl
    exact Except.ok.inj (hresult.symm.trans hrun)
  have hfive : attempts.length = 5 := by
    rw [← List.length_map Attempt.value, hvalues']
    rfl
  have htwo : failures.length = 2 := by
    rw [hfailures]
    rfl
  have hthree : attempts.countP Attempt.accepted = 3 := by omega
  exact ⟨⟨uninterrupted_plainShell, hstore⟩, attempts, failures, hvalues', hcalls.symm.trans rfl,
    hfailures, hthree⟩

end SecretForge
