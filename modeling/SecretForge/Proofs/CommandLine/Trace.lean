import SecretForge.CommandLine.Run
import SecretForge.Proofs.Json.Reading
import SecretForge.Proofs.Update.Trace

/-!
# The trace of a run

What each part of a run leaves in the trace.  The credentials are read before anything else; what is read
is known as secret before anything is logged.

* `readCredentials_run`, `readCredentials_object`, `mem_keyTexts` — what reading the credentials makes known,
  and how it ends.
* `setUp_emits`, `carryOut_emits` — a property of traces that joins, for the two halves of a run.
* `setUp_yields` — a run is set up with the store that its options ask for; one of a server announces its
  secrets.
* **`runOptions_run`** — a run with checked options is a preface, its setting up and what follows from it.
* `run_of_logged` — a run that logs anything is one with checked options.
-/

namespace SecretForge.CommandLine

open Act

/-! ### Failures turned into others -/

section

variable {σ ε δ α : Type}

theorem mapFailure_run (f : ε → δ) (x : Act σ ε α) (s : σ) :
    mapFailure f x s = ⟨(x s).result.mapError f, (x s).events, (x s).state⟩ := by
  rcases h : x s with ⟨e | a, es, t⟩ <;> rw [mapFailure, bind_run_ok (attempt_run x s), h]
  · simp only [fail_run, List.append_nil]
    rfl
  · simp only [pure_run, List.append_nil]
    rfl

theorem mapFailure_emits {P : List Event → Prop} {f : ε → δ} {x : Act σ ε α} (hx : Emits P x) :
    Emits P (mapFailure f x) := fun s => by
  rw [mapFailure_run]
  exact hx s

end

/-! ### The credentials -/

/-- Keys made known one after the other. -/
theorem learnAll_run {σ ε : Type} (keys : List String) (s : σ) :
    (keys.forM fun key => (Act.emit (.learned key) : Act σ ε Unit)) s
      = ⟨.ok (), keys.map .learned, s⟩ := by
  induction keys with
  | nil => rfl
  | cons key keys ih => exact (emit_bind_run _ _ s).trans (by rw [ih]; rfl)

section

variable {σ : Type} {fs : Files} {path text : String}

theorem credentialsText_ok (hread : readText fs path = .ok text) (hfilled : Text.trim text ≠ "") :
    credentialsText fs path = .ok (Text.trim text) := by
  rw [credentialsText, hread]
  simp [hfilled]

/-- **The text of the credentials is known before anything else is done with it**, and the keys in it are
known as soon as it is parsed. -/
theorem readCredentials_run (htext : credentialsText fs path = .ok text) (s : σ) :
    readCredentials fs path s = match credentialsOf path text with
      | .error f => ⟨.error f, [.learned text], s⟩
      | .ok c => match keyTexts c with
        | .error f => ⟨.error f, [.learned text], s⟩
        | .ok keys => ⟨.ok c, .learned text :: keys.map .learned, s⟩ := by
  rw [readCredentials, htext, bind_run_ok (ofExcept_run _ s), emit_bind_run]
  cases hc : credentialsOf path text with
  | error f =>
    rw [bind_run_error (ofExcept_run _ s)]
    rfl
  | ok c =>
    rw [bind_run_ok (ofExcept_run _ s)]
    simp only
    cases hkeys : keyTexts c with
    | error f =>
      rw [bind_run_error (ofExcept_run _ s)]
      rfl
    | ok keys =>
      rw [bind_run_ok (ofExcept_run _ s), bind_run_ok (learnAll_run keys s)]
      simp

/-- Reading the credentials makes texts known and does nothing else that can be seen. -/
theorem readCredentials_emits {P : List Event → Prop} (hP : Joins P)
    (hlearned : ∀ text, P [.learned text]) :
    Emits P (readCredentials fs path : Act σ CredentialsFault Credentials) := by
  refine .bind hP (.ofExcept hP _) fun _ => .bind hP (.emit (hlearned _)) fun _ =>
    .bind hP (.ofExcept hP _) fun _ => .bind hP (.ofExcept hP _) fun keys =>
    .bind hP (fun s => ?_) fun _ => .pure hP _
  rw [learnAll_run]
  induction keys with
  | nil => exact hP.nil
  | cons key keys ih => exact hP.append (hlearned key) ih

/-- The text of a key is among the texts of the keys. -/
theorem mem_keyTexts {c : Credentials} {keys : List String} (hkeys : keyTexts c = .ok keys)
    {name key : String} {v : Json} (hname : name ∈ secretKeys) (hv : c.find? name = some v)
    (hkey : Layered.plain v = .ok key) : key ∈ keys :=
  mem_of_mapM_ok hkeys (List.mem_filterMap.mpr ⟨name, hname, hv⟩) (by rw [hkey]; rfl)

/-- The keys of credentials that were read have texts. -/
theorem keyTexts_of_writable {c : Credentials} (h : Json.Everywhere Json.Writable (.object c)) :
    ∃ keys, keyTexts c = .ok keys := by
  cases hkeys : keyTexts c with
  | ok keys => exact ⟨keys, rfl⟩
  | error f =>
    obtain ⟨v, hv, hfault⟩ := exists_of_mapM_error hkeys
    obtain ⟨name, -, hfind⟩ := List.mem_filterMap.mp hv
    have hmem := Json.mem_of_find? (Option.filter_eq_some_iff.mp hfind).1
    obtain ⟨text, htext⟩ := Json.plain_of_writable (Json.everywhereUnder_iff.mp h.2 _ hmem)
    rw [show (Layered.plain v : Except Number.IntegerFault String) = .ok text from htext] at hfault
    cases hfault

/-- A text that is nothing but blanks is no JSON value. -/
theorem trim_ne_empty {v : Json} (hparse : Json.parse (Text.trim text) = .ok v) :
    Text.trim text ≠ "" := by
  intro hempty
  rw [hempty, show Json.parse "" = .error (.syntaxAt .value 0) from rfl] at hparse
  cases hparse

/-- **Credentials that are an object are read**, and the text and the keys in it are made known. -/
theorem readCredentials_object {c : Credentials} (htext : credentialsText fs path = .ok text)
    (hparse : Json.parse text = .ok (.object c)) (s : σ) :
    ∃ keys, keyTexts c = .ok keys
      ∧ readCredentials fs path s = ⟨.ok c, .learned text :: keys.map .learned, s⟩ := by
  obtain ⟨keys, hkeys⟩ := keyTexts_of_writable (Json.parse_writable hparse)
  have hcredentials : credentialsOf path text = .ok c := by rw [credentialsOf, hparse]
  refine ⟨keys, hkeys, ?_⟩
  simp only [readCredentials_run htext, hcredentials, hkeys]

end

/-! ### The store -/

section

variable {P : List Event → Prop} (hP : Joins P) (hlogged : ∀ r, P [.logged r])

include hP

theorem openOutput_emits (temporary path : String) : Emits P (openOutput temporary path) := by
  rw [openOutput]
  split
  · exact emits_of_silent hP fun _ => rfl
  split
  · exact .fail hP _
  refine .bind hP (emits_of_silent hP fun _ => rfl) fun t => ?_
  split
  · exact .fail hP _
  · exact emits_of_silent hP fun _ => rfl

include hlogged

theorem resolve_emits {σ ε : Type} (given named : Option String) (answer : Project.ProgramAnswer) :
    Emits P (Project.resolve given named answer : Act σ ε (Option String)) := by
  rw [Project.resolve]
  split
  · exact .pure hP _
  · exact .bind hP (.emit (hlogged _)) fun _ => .pure hP _
  delta Project.ask
  split
  · exact .bind hP (.emit (hlogged _)) fun _ => .pure hP _
  · dsimp only
    split
    · exact .pure hP _
    · exact .bind hP (.emit (hlogged _)) fun _ => .pure hP _
  · exact .pure hP _

theorem openStore_emits (around : Surroundings) (o : Options) (c : Credentials) :
    Emits P (openStore around o c) := by
  rw [openStore]
  split
  · exact .bind hP (openOutput_emits hP _ _) fun _ => .bind hP (emits_of_silent hP fun _ => rfl)
      fun _ => .bind hP (.emit (hlogged _)) fun _ => .pure hP _
  dsimp only
  split
  all_goals
    refine .bind hP ?_ fun given => .bind hP (resolve_emits hP hlogged _ _ _) fun project => ?_
    · first
      | exact .pure hP _
      | exact .ofExcept hP _
    · cases project with
      | none => exact .fail hP _
      | some project => exact .bind hP (.emit (hlogged _)) fun _ => .pure hP _

end

/-- The store is one of a server and makes the values that are handed to it known as secrets. -/
def Announcing (store : Store System) : Prop :=
  ∃ settings : Versioned.Settings, settings.announces = true ∧ store = liveStore settings

/-- The store that options ask for: the one of a dry run, or one of a server. -/
def Opened (o : Options) (store : Store System) : Prop :=
  (o.dryRun = true ∧ store = dryRunStore) ∨ (o.dryRun = false ∧ Announcing store)

theorem openStore_yields (around : Surroundings) (o : Options) (c : Credentials) :
    Yields (Opened o) (openStore around o c) := by
  rw [openStore]
  cases hdry : o.dryRun with
  | true =>
    rw [if_pos rfl]
    exact .bind fun _ => .bind fun _ => .bind fun _ => .pure (.inl ⟨hdry, rfl⟩)
  | false =>
    rw [if_neg Bool.false_ne_true]
    dsimp only
    split
    all_goals
      refine .bind fun given => .bind fun project => ?_
      cases project with
      | none => exact .fail _
      | some project => exact .bind fun _ => .pure (.inr ⟨hdry, _, rfl, rfl⟩)

/-! ### Setting up -/

/-- **Setting up leaves secrets learned and records**: it has every property of traces that these have. -/
theorem setUp_emits {P : List Event → Prop} (hP : Joins P) (hlogged : ∀ r, P [.logged r])
    (hlearned : ∀ text, P [.learned text]) (around : Surroundings) (o : Options) :
    Emits P (setUp around o) := by
  refine .bind hP (emits_of_silent hP fun _ => rfl) fun t =>
    .bind hP (mapFailure_emits (readCredentials_emits hP hlearned)) fun c =>
    .bind hP (mapFailure_emits ?_) fun _ =>
    .bind hP (openStore_emits hP hlogged around o c) fun _ => .pure hP _
  exact .bind hP (.ofExcept hP _) fun _ => .bind hP (.emit (hlogged _)) fun _ =>
    .bind hP (.emit (hlogged _)) fun _ => .pure hP _

/-- Setting up begins with the credentials. -/
theorem setUp_events (around : Surroundings) (o : Options) (t : System) :
    ∃ rest, (setUp around o t).events
      = (readCredentials (σ := System) t.files o.credentialsPath t).events ++ rest := by
  have hrun := mapFailure_run CredentialsFault.asSetup
    (readCredentials t.files o.credentialsPath) t
  rw [setUp, get_bind_run]
  cases hresult : (readCredentials (σ := System) t.files o.credentialsPath t).result with
  | error f =>
    rw [hresult] at hrun
    rw [bind_run_error hrun]
    exact ⟨[], (List.append_nil _).symm⟩
  | ok c =>
    rw [hresult] at hrun
    rw [bind_run_ok hrun]
    exact ⟨_, rfl⟩

/-- A run is set up with the store that its options ask for. -/
theorem setUp_yields (around : Surroundings) (o : Options) :
    Yields (fun made => Opened o made.2) (setUp around o) := by
  refine .bind fun t => .bind fun c => .bind fun templates => ?_
  intro s made hmade
  have hstore := openStore_yields around o c s
  rcases h : openStore around o c s with ⟨e | store, es, t⟩
  · rw [bind_run_error h] at hmade
    cases hmade
  · rw [bind_run_ok h] at hmade
    rw [h] at hstore
    cases hmade
    exact hstore store rfl

/-! ### Carrying out -/

section

variable {P : List Event → Prop} (hP : Joins P) (hlogged : ∀ r, P [.logged r]) {store : Store System}
  (hloggedOut : P [.loggedOut]) (hlogout : Emits P store.logout)

include hP hlogged hloggedOut hlogout

theorem endSession_emits : Emits P (endSession store) := by
  refine .bind hP (.emit hloggedOut) fun _ => .bind hP (.attempt (.settle hlogout)) fun r =>
    .bind hP (emits_of_silent hP fun _ => rfl) fun _ => ?_
  rcases r with ⟨_⟩ | f | u
  · exact .fail hP _
  · exact .bind hP (.emit (hlogged _)) fun _ => .pure hP _
  · exact .pure hP _

/-- **Generating the secrets and ending the session** has a property of traces that each single step
has. -/
theorem carryOut_emits (hran : ∀ c, P [.ran c]) (htold : ∀ text, P [.told text])
    (hoffer : ∀ op, Emits P (offer store op)) (around : Surroundings)
    (ts : List (Template (List String))) : Emits P (carryOut around ts store) := by
  have hend : Emits P (endSession store) := endSession_emits hP hlogged hloggedOut hlogout
  refine .bind hP (.attempt (generate_emits hP hlogged hran hoffer _ _)) fun r => ?_
  rcases r with ⟨_⟩ | failures
  · exact .bind hP (.emit (htold _)) fun _ => .bind hP hend fun _ => .fail hP _
  · refine .bind hP hend fun ended => ?_
    split
    · exact .bind hP (.emit (hlogged _)) fun _ => .fail hP _
    · split
      · exact .emit (hlogged _)
      · exact .fail hP _

end

/-! ### Runs -/

/-- What a run logs before it reads anything. -/
def preface (o : Options) : List Event :=
  if 1 < o.concurrency then
    [.logged ⟨.debug, .commandLine,
      s!"--concurrency={o.concurrency} requested; items are processed sequentially"⟩]
  else []

/-- What a run does with what setting up ended with. -/
def afterSetUp (around : Surroundings) :
    Except SetupFault (List (Template (List String)) × Store System) → Act System Leaving Unit
  | .error (.escaped f) => Act.fail (.escaped f)
  | .error (.reported message) => do
    Act.log .error .commandLine s!"Failed to complete options: {message}"
    Act.fail (.exit 1)
  | .ok (templates, store) => carryOut around templates store

theorem runOptions_run {around : Surroundings} {o : Options} (ho : checkOptions o = .ok ())
    (start : System) :
    runOptions around o start
      = let made := setUp around o start
        let rest := afterSetUp around made.result made.state
        ⟨rest.result, preface o ++ (made.events ++ rest.events), rest.state⟩ := by
  have hattempt : ∀ f : _ → Act System Leaving Unit,
      (Act.attempt (setUp around o) >>= f) start = _ :=
    fun f => bind_run_ok (attempt_run (setUp around o) start)
  rw [runOptions, ho]
  dsimp only
  rw [preface]
  split
  · rw [log_bind_run, hattempt]
    rcases (setUp around o start).result with (_ | _) | _ <;> rfl
  · rw [hattempt]
    rcases (setUp around o start).result with (_ | _) | _ <;> rfl

theorem run_of_parse {around : Surroundings} {arguments : List String} {o : Options} {level : Level}
    (hparse : Options.parse arguments = .ok (.run o)) (hlevel : checkLevel o.logLevel = .ok level) :
    run around arguments = runOptions around o := by
  rw [run, hparse]
  dsimp only
  rw [hlevel]

/-- A run that logs anything is one with checked options. -/
theorem run_of_logged {around : Surroundings} {arguments : List String} {start : System} {r : Record}
    (hr : .logged r ∈ (run around arguments start).events) :
    ∃ o, Options.parse arguments = .ok (.run o) ∧ checkOptions o = .ok ()
      ∧ run around arguments start = runOptions around o start := by
  have htold : ∀ {text : String} {status : Nat}, .logged r ∉
      ((do Act.emit (.told text); Act.fail (.exit status) : Act System Leaving Unit) start).events := by
    intro text status h
    simp [emit_bind_run] at h
  rcases hparse : Options.parse arguments with f | o | _ | _
  case ok.run =>
    cases hlevel : checkLevel o.logLevel with
    | error f =>
      rw [run, hparse] at hr
      dsimp only at hr
      rw [hlevel] at hr
      exact absurd hr htold
    | ok level =>
      rw [run_of_parse hparse hlevel] at hr ⊢
      refine ⟨o, rfl, ?_, rfl⟩
      cases ho : checkOptions o with
      | error f =>
        rw [runOptions, ho] at hr
        exact absurd hr htold
      | ok u => rfl
  case error =>
    rw [run, hparse] at hr
    exact absurd hr htold
  all_goals
    rw [run, hparse] at hr
    simp at hr

end SecretForge.CommandLine
