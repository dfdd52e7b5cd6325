import SecretForge.Proofs.Store.Cache
import SecretForge.Proofs.Update.Ending
import SecretForge.Proofs.Update.Forecast

/-!
# A run and the same run again

A run that is repeated starts from what the first one has left.  Its documents are not those that the
first run started from, but they answer every operation alike, since an operation is answered alike
before and after any other.  So the second run comes to the same operations with the same answers.  What
it sets is set already, and setting it again leaves every form as it is.

* `Store.AnswersAlike` — states that a store cannot tell apart by its answers.
* `Alike` — a computation that comes to the same operations and the same end in such states;
  `Alike.bind` passes from its parts to the whole.
* `generate_alike` — a run is one of these computations.
* `answersAlike_plain`, `getLast?_afterAll_again` — the versioned store, and its operations done again.
* **`generate_again`** — a run and the same run again.
-/

namespace SecretForge

open Act

/-! ### States that are not told apart -/

/-- A store answers alike in related states, and stays in related states. -/
structure Store.AnswersAlike {σ : Type} (store : Store σ) (R : σ → σ → Prop) : Prop where
  result : ∀ s t op, R s t → (store.apply op s).result = (store.apply op t).result
  keeps : ∀ s t op, R s t → R (store.apply op s).state (store.apply op t).state

section

variable {σ ε α β : Type} {store : Store σ} {R : σ → σ → Prop} {answer : String → ShellAnswer}

theorem Store.AnswersAlike.applyAll (h : store.AnswersAlike R) {s t : σ} (hst : R s t)
    (ops : List Operation) : R (applyAll store ops s) (applyAll store ops t) := by
  induction ops generalizing s t with
  | nil => exact hst
  | cons op ops ih => exact ih (h.keeps s t op hst)

/-- From related states the computation comes to the same operations and to the same end. -/
def Alike (store : Store σ) (R : σ → σ → Prop) (x : Act σ ε α) : Prop :=
  ∀ s t, R s t → ∃ ops, (x s).result = (x t).result ∧ (x s).state = applyAll store ops s
    ∧ (x t).state = applyAll store ops t

/-- A computation that comes to no operation. -/
theorem Alike.still {x : Act σ ε α} {r : Except ε α} (hx : ∀ s, ∃ es, x s = ⟨r, es, s⟩) :
    Alike store R x := by
  intro s t _
  obtain ⟨es, hs⟩ := hx s
  obtain ⟨fs, ht⟩ := hx t
  rw [hs, ht]
  exact ⟨[], rfl, rfl, rfl⟩

theorem Alike.bind (h : store.AnswersAlike R) {x : Act σ ε α} {f : α → Act σ ε β}
    (hx : Alike store R x) (hf : ∀ a, Alike store R (f a)) : Alike store R (x >>= f) := by
  intro s t hst
  obtain ⟨ops, hresult, hs, ht⟩ := hx s t hst
  rcases hfirst : x s with ⟨r, es, s'⟩
  rcases hsecond : x t with ⟨r', fs, t'⟩
  rw [hfirst] at hresult hs
  rw [hsecond] at hresult ht
  obtain rfl : r = r' := hresult
  obtain rfl : s' = applyAll store ops s := hs
  obtain rfl : t' = applyAll store ops t := ht
  cases r with
  | error e =>
    rw [bind_run_error hfirst, bind_run_error hsecond]
    exact ⟨ops, rfl, rfl, rfl⟩
  | ok a =>
    obtain ⟨later, hresult, hs, ht⟩ := hf a _ _ (h.applyAll hst ops)
    rw [bind_run_ok hfirst, bind_run_ok hsecond]
    exact ⟨ops ++ later, hresult, by rw [applyAll_append, ← hs], by rw [applyAll_append, ← ht]⟩

theorem Alike.log (l : Level) (o : Origin) (m : String) :
    Alike store R (Act.log l o m : Act σ ε Unit) := .still fun _ => ⟨_, rfl⟩

theorem Alike.pure (a : α) : Alike store R (Pure.pure a : Act σ ε α) := .still fun _ => ⟨_, rfl⟩

/-! ### Runs from states that are not told apart -/

/-- An operation is answered alike. -/
theorem offer_alike (h : store.AnswersAlike R) (op : Operation) : Alike store R (offer store op) := by
  intro s t hst
  rw [offer_run, offer_run, h.result s t op hst]
  exact ⟨[op], rfl, rfl, rfl⟩

/-- A command whose answer depends on its text alone. -/
theorem command_alike (command : String) :
    Alike store R (Act.settle (execute (Shell.ofAnswers answer) command)) := by
  refine .still (r := settled ((answer command).value command)) fun s => ?_
  rw [settle_run, execute_run]
  exact ⟨_, rfl⟩

theorem perform_alike (h : store.AnswersAlike R) (item : String) (task : Task) :
    Alike store R (perform (Shell.ofAnswers answer) store item task) := by
  cases task with
  | produce place command =>
    refine .bind h (.log _ _ _) fun _ => .bind h (command_alike command) fun value => ?_
    cases value with
    | error failure => exact .bind h (.log _ _ _) fun _ => .pure _
    | ok output =>
      refine .bind h (offer_alike h _) fun r => ?_
      cases r with
      | ok u => exact .pure _
      | error failure => exact .bind h (.log _ _ _) fun _ => .pure _
  | annotate text =>
    refine .bind h (.log _ _ _) fun _ => .bind h (offer_alike h _) fun r => ?_
    cases r with
    | ok u => exact .pure _
    | error failure => exact .bind h (.log _ _ _) fun _ => .pure _

theorem performAll_alike (h : store.AnswersAlike R) (tasks : List (String × Task)) :
    Alike store R (performAll (Shell.ofAnswers answer) store tasks) := by
  induction tasks with
  | nil => exact .pure _
  | cons entry tasks ih =>
    exact .bind h (perform_alike h entry.1 entry.2) fun _ => .bind h ih fun _ => .pure _

/-- The expansion of templates comes to no operation. -/
theorem expandAll_alike {ρ : Type} (range : ρ → Range) (ts : List (Template ρ)) :
    Alike store R (expandAll range ts : Act σ ε _) := by
  obtain ⟨es, hexpand⟩ := expandAll_run range ts
  exact .still fun s => ⟨es, hexpand s⟩

/-- **A run** comes to the same operations and to the same end in states that are not told apart. -/
theorem generate_alike (h : store.AnswersAlike R) {ρ : Type} (range : ρ → Range)
    (ts : List (Template ρ)) : Alike store R (generate (Shell.ofAnswers answer) store range ts) :=
  .bind h (expandAll_alike range ts) fun _ => .bind h (.log _ _ _) fun _ =>
    .bind h (performAll_alike h _) fun _ => .pure _

end

/-! ### The versioned store again -/

namespace Versioned

open Server Document

variable {settings : Settings} {V : Secrets} {ops : List Operation} {s t : State}

/-- Two faithful sessions on servers without doubles that answer every operation alike. -/
structure AlikeIn (settings : Settings) (s t : State) : Prop where
  left : Faithful settings s
  right : Faithful settings t
  exactLeft : ∀ id, ExactAt s.server.versions? id
  exactRight : ∀ id, ExactAt t.server.versions? id
  answers : answered settings s.server.versions? = answered settings t.server.versions?

/-- **The versioned store does not tell such states apart.** -/
theorem answersAlike_plain (settings : Settings) :
    (store settings).AnswersAlike (AlikeIn settings) where
  result s t op h := by
    rw [store, (apply_plain h.left op (h.exactLeft _)).result, h.answers,
      (apply_plain h.right op (h.exactRight _)).result]
  keeps s t op h := by
    have hs := apply_plain h.left op (h.exactLeft _)
    have ht := apply_plain h.right op (h.exactRight _)
    refine ⟨hs.faithful, ht.faithful, fun id => ?_, fun id => ?_, funext fun op' => ?_⟩
    · exact hs.versions ▸ (h.exactLeft id).after
    · exact ht.versions ▸ (h.exactRight id).after
    · show answered settings (apply settings op s).state.server.versions? op'
        = answered settings (apply settings op t).state.server.versions? op'
      rw [hs.versions, ht.versions, answered_after (h.exactLeft _), answered_after (h.exactRight _),
        h.answers]

/-- The secrets that operations leave. -/
theorem applyAll_plain (hs : Faithful settings s) (hexact : ∀ id, ExactAt s.server.versions? id)
    (ops : List Operation) :
    (applyAll (store settings) ops s).server.versions? = afterAll settings s.server.versions? ops := by
  induction ops generalizing s with
  | nil => rfl
  | cons op ops ih =>
    have hop := apply_plain hs op (hexact _)
    refine (ih hop.faithful fun id => hop.versions ▸ (hexact id).after).trans ?_
    rw [hop.versions]
    rfl

/-- **Operations that are done a second time** leave the latest versions as they are. -/
theorem getLast?_afterAll_again (hexact : ∀ id, ExactAt V id) (ops : List Operation) (id : String) :
    (versionsIn (afterAll settings (afterAll settings V ops) ops) id).getLast?
      = (versionsIn (afterAll settings V ops) id).getLast? := by
  have hvalues : valuesFor settings (afterAll settings V ops) id ops = valuesFor settings V id ops := by
    have haccepts : accepts settings (afterAll settings V ops) = accepts settings V := funext fun op => by
      rw [accepts, answered_afterAll (fun _ _ => hexact _), accepts]
    rw [valuesFor, haccepts, valuesFor]
  have hfirst := @latest_afterAll settings V ops (fun _ _ => hexact _) id
  have hagain := @latest_afterAll settings (afterAll settings V ops) ops
    (fun _ _ => (hexact _).afterAll ops) id
  rw [hvalues] at hagain
  rcases hfirst with ⟨hnone, -⟩ | ⟨hsome, f, -, hlast⟩
  · obtain ⟨-, hsame⟩ := hagain.resolve_right fun h => h.1 hnone
    rw [hsame]
  · obtain ⟨-, g, hg, hlast'⟩ := hagain.resolve_left fun h => hsome h.1
    -- the second time the values are set in the form that they left the first time
    have hform := (stored_of_getLast? hlast).unique hg
    rw [hlast', ← hform, Form.foldl_put_idem, hlast]

/-- Operations that are done a second time create no secret. -/
theorem isSome_afterAll_again (V : Secrets) (ops : List Operation) (id : String) :
    (afterAll settings (afterAll settings V ops) ops id).isSome
      = (afterAll settings V ops id).isSome := by
  rw [Bool.eq_iff_iff, isSome_afterAll]
  refine ⟨fun h => ?_, .inl⟩
  rcases h with h | ⟨op, hop, hid, hcreates⟩
  · exact h
  · exact (isSome_afterAll ops id).mpr (.inr ⟨op, hop, hid, creates_of_afterAll hcreates⟩)

/-- **Re-running is idempotent.**  On a server without faults whose latest documents have no doubles in
them, a run of templates and the same run again, by a store that was just opened and with commands that
answer by their text alone, end with the same failures, or are broken off at the same command; and the
second run leaves the secrets that there are and the latest version of each, byte by byte. -/
theorem generate_again {ρ : Type} (settings : Settings) (server : Server)
    (answer : String → ShellAnswer) (range : ρ → Range) (ts : List (Template ρ))
    (hplan : server.plan = [])
    (hfloat : ∀ id d, latest (server.versionsOf id) = .ok d → Json.FloatFree (.object d)) :
    let run := generate (Shell.ofAnswers answer) (store settings) range ts
    let first := run ⟨{}, server⟩
    let again := run ⟨{}, first.state.server⟩
    again.result = first.result
      ∧ ∀ id, (again.state.server.versions? id).isSome = (first.state.server.versions? id).isSome
        ∧ (again.state.server.versionsOf id).getLast? = (first.state.server.versionsOf id).getLast? := by
  intro run first again
  have hrun : Alike (store settings) (AlikeIn settings) run :=
    generate_alike (answersAlike_plain settings) range ts
  have hexact : ∀ id, ExactAt server.versions? id := fun id d hd =>
    Json.exact_of_floatFree (writable_latest hd) (hfloat id d hd)
  have hstart : AlikeIn settings ⟨{}, server⟩ ⟨{}, server⟩ :=
    ⟨faithful_start hplan, faithful_start hplan, hexact, hexact, rfl⟩
  -- the server that the first run leaves answers every operation as the server before it
  have hrestart : AlikeIn settings ⟨{}, server⟩ ⟨{}, first.state.server⟩ := by
    obtain ⟨ops, -, hfirst, -⟩ := hrun _ _ hstart
    have hfirst : first.state = applyAll (store settings) ops ⟨{}, server⟩ := hfirst
    have hversions := applyAll_plain hstart.left hexact ops
    have hleft := ((answersAlike_plain settings).applyAll hstart ops).left
    rw [← hfirst] at hversions hleft
    refine ⟨hstart.left, faithful_start hleft.plan, hexact, fun id => ?_, funext fun op => ?_⟩
    · exact hversions ▸ (hexact id).afterAll ops
    · show answered settings server.versions? op = answered settings first.state.server.versions? op
      rw [hversions, answered_afterAll fun _ _ => hexact _]
  obtain ⟨ops, hresult, hfirst, hagain⟩ := hrun _ _ hrestart
  have hfirst : first.state = applyAll (store settings) ops ⟨{}, server⟩ := hfirst
  have hagain : again.state = applyAll (store settings) ops ⟨{}, first.state.server⟩ := hagain
  have hfirst : first.state.server.versions? = afterAll settings server.versions? ops :=
    hfirst ▸ applyAll_plain hstart.left hexact ops
  have hagain : again.state.server.versions?
      = afterAll settings (afterAll settings server.versions? ops) ops := by
    rw [hagain, applyAll_plain hrestart.right hrestart.exactRight ops, hfirst]
  refine ⟨hresult.symm, fun id => ⟨?_, ?_⟩⟩
  · rw [hagain, hfirst, isSome_afterAll_again]
  · show (versionsIn again.state.server.versions? id).getLast?
      = (versionsIn first.state.server.versions? id).getLast?
    rw [hagain, hfirst, getLast?_afterAll_again hexact]

/-- A template with a failing command and a field that is set twice, and a template of two items one of
which has no allowed name. -/
def repeatedTemplates : List (Template (List String)) :=
  [{ name := "a", fields := [⟨"token", "fail"⟩, ⟨"key", "one"⟩, ⟨"key", "two"⟩], notes := "n" },
    { name := "b$(z)", password := "one", params := [("z", ["", "/"])] }]

def repeatedRun (server : Server) : Outcome State Interrupted (List RunFailure) :=
  generate (Shell.ofAnswers digitAnswer) (store ⟨"p", none, true⟩) Range.ofTexts repeatedTemplates
    ⟨{}, server⟩

/-- The second run fails where the first one does, and leaves the secret that the first one has made. -/
theorem generate_again_repeated :
    quietServer.plan = []
      ∧ (repeatedRun quietServer).result
        = .ok [.value (.command "a" (.field "token") ⟨"fail", "", some 1⟩),
          .value (.upload "b/" .password (.invalidName "b/"))]
      ∧ (repeatedRun (repeatedRun quietServer).state.server).result = (repeatedRun quietServer).result
      ∧ ((repeatedRun (repeatedRun quietServer).state.server).state.server.versionsOf "b").getLast?
        = ((repeatedRun quietServer).state.server.versionsOf "b").getLast? := by
  have hfloat : ∀ id d, latest (quietServer.versionsOf id) = .ok d → Json.FloatFree (.object d) :=
    fun id d h => (itemDocument_quietServer id d h).floatFree
  obtain ⟨hresult, hversions⟩ := generate_again ⟨"p", none, true⟩ quietServer digitAnswer Range.ofTexts
    repeatedTemplates rfl hfloat
  refine ⟨rfl, by decide +kernel, ?_, ?_⟩ <;> unfold repeatedRun
  · exact hresult
  · exact (hversions "b").2

end Versioned

end SecretForge
