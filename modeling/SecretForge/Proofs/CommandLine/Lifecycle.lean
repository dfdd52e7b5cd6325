import SecretForge.Proofs.CommandLine.Secrecy
import SecretForge.Proofs.CommandLine.SetUp
import SecretForge.Proofs.Store.Operation
import SecretForge.Proofs.Store.Trace
import SecretForge.Proofs.Update.Ending

/-!
# The lifecycle of a run

A run that cannot be set up does no work: no command is run and nothing is handed to a store.  One that is
set up ends the session of its store exactly once, after everything else it does with the store, and the
status it ends with is the truth: it succeeds exactly when every template expanded, every command and
every operation succeeded, and the session was ended without a failure.  This holds whatever the commands
and the store answer, and also when the user breaks off any of them but the end of the session.

* `Idle` — a trace without work; `Store.Unobtrusive` — a store that leaves no others.
* `endSession_ends`, `afterGenerate_ends` — the end of a session, and of a run whose secrets were generated.
* `Concluded` — what a run with a store has come to; **`carryOut_concluded`** — it has, with any store.
* `setUp_sameServer`, `Opened.generation_plan` — the plan of faults is the same from the beginning to the
  end of a session.
* `runOptions_refused`, `runOptions_concluded` — a run that cannot begin, and one that does.
* **`run_lifecycle`** — the lifecycle of a run of the command line.
-/

namespace SecretForge

open Act

/-! ### Work in the trace -/

/-- Whether an event is work: a command is run, a value is handed to the store, or its session is ended. -/
def Event.isWork : Event → Bool
  | .ran _ => true
  | .offered _ => true
  | .loggedOut => true
  | _ => false

/-- The trace has no work in it. -/
def Idle (es : List Event) : Prop := ∀ e ∈ es, e.isWork = false

theorem joins_idle : Joins Idle := joins_forall _

theorem idle_singleton {e : Event} (h : e.isWork = false) : Idle [e] := fun _ he =>
  List.mem_singleton.mp he ▸ h

theorem Idle.loggedOut_notMem {es : List Event} (h : Idle es) : .loggedOut ∉ es := fun he => nomatch h _ he

/-- What the store itself leaves in the trace is no work. -/
structure Store.Unobtrusive {σ : Type} (store : Store σ) : Prop where
  apply : ∀ op, Emits Idle (store.apply op)
  logout : Emits Idle store.logout

namespace CommandLine

/-! ### The end of a session -/

/-- **The end of a session** that the user does not break off: it is an event of its own, the output is
saved, and whether the session was ended is known. -/
theorem endSession_ends {store : Store System} (hstore : store.Unobtrusive) {s : System}
    (hlogout : (store.logout s).result ≠ .error .interrupted) :
    ∃ ended es, endSession store s
        = ⟨.ok ended, .loggedOut :: es, (saveOutput (store.logout s).state).state⟩
      ∧ Idle es ∧ (ended = true ↔ (store.logout s).result = .ok ()) := by
  have hidle := hstore.logout s
  have hattempt := attempt_run (ε := Interrupted) (δ := Leaving) (Act.settle store.logout) s
  rw [settle_run] at hattempt
  rw [endSession, emit_bind_run, bind_run_ok hattempt]
  rcases h : (store.logout s).result with (failure | _) | _
  · refine ⟨false, (store.logout s).events
      ++ [.logged ⟨.error, .commandLine, s!"failed to logout: {failure.message}"⟩], rfl,
      joins_idle.append hidle (idle_singleton rfl), ?_⟩
    simp
  · exact absurd h hlogout
  · exact ⟨true, _, rfl, joins_idle.append hidle joins_idle.nil, by simp⟩

/-! ### Carrying out -/

/-- The shell of a run: it works on the files of the system. -/
def Surroundings.systemShell (around : Surroundings) : Shell System :=
  around.shell.within System.files fun files t => { t with files }

/-- What a run does with what generating the secrets ended with. -/
def afterGenerate (store : Store System) :
    Except Interrupted (List RunFailure) → Act System Leaving Unit
  | .error .byUser => do
    Act.emit (.told "\nInterrupted\n")
    let _ ← endSession store
    Act.fail (.exit 1)
  | .ok failures => do
    let ended ← endSession store
    match report? (failures.map RunFailure.message) with
    | some report =>
      Act.log .error .commandLine s!"Failed to update secrets: {report}"
      Act.fail (.exit 1)
    | none =>
      if ended then Act.log .info .commandLine "Updated secrets." else Act.fail (.exit 1)

theorem carryOut_run (around : Surroundings) (ts : List (Template (List String)))
    (store : Store System) (s : System) :
    let generated := generate around.systemShell store Range.ofTexts ts s
    let rest := afterGenerate store generated.result generated.state
    carryOut around ts store s
      = ⟨rest.result, generated.events ++ rest.events, rest.state⟩ := by
  have hcarry : carryOut around ts store
      = Act.attempt (generate around.systemShell store Range.ofTexts ts) >>= afterGenerate store := rfl
  rw [hcarry, bind_run_ok (attempt_run _ s)]

/-- **After the secrets were generated** the session is ended, with a word about it if the user broke off
before, and the status tells whether both have succeeded. -/
theorem afterGenerate_ends {store : Store System} (hstore : store.Unobtrusive) {s : System}
    (hlogout : (store.logout s).result ≠ .error .interrupted)
    (generated : Except Interrupted (List RunFailure)) :
    let closed := store.logout s
    let out := afterGenerate store generated s
    (∃ before after, out.events = before ++ .loggedOut :: after ∧ Idle before ∧ Idle after)
      ∧ out.state = (saveOutput closed.state).state
      ∧ (out.result = .ok () ↔ generated = .ok [] ∧ closed.result = .ok ())
      ∧ (out.result = .ok () ∨ out.result = .error (.exit 1)) := by
  intro closed out
  obtain ⟨ended, es, hend, hes, hended⟩ := endSession_ends hstore hlogout
  rcases generated with ⟨_⟩ | failures
  · have hout : out = ⟨.error (.exit 1), .told "\nInterrupted\n" :: .loggedOut :: es,
        (saveOutput (store.logout s).state).state⟩ := by
      simp only [out, afterGenerate, emit_bind_run, bind_run_ok hend, fail_run, List.append_nil]
    rw [hout]
    exact ⟨⟨[_], es, rfl, idle_singleton rfl, hes⟩, rfl, by simp, .inr rfl⟩
  · simp only [out, afterGenerate, bind_run_ok hend]
    cases hreport : report? (failures.map RunFailure.message) with
    | some report =>
      have hne : failures ≠ [] := fun h => by simp [h, report?] at hreport
      refine ⟨⟨[], _, rfl, joins_idle.nil, joins_idle.append hes (idle_singleton rfl)⟩, rfl, ?_, .inr rfl⟩
      simp [hne, log_bind_run]
    | none =>
      have hnone := (report?_map_eq_none_iff _ _).mp hreport
      cases ended with
      | true =>
        refine ⟨⟨[], _, rfl, joins_idle.nil, joins_idle.append hes (idle_singleton rfl)⟩, rfl, ?_, .inl rfl⟩
        simp [hnone, closed, ← hended]
      | false =>
        refine ⟨⟨[], _, rfl, joins_idle.nil, joins_idle.append hes joins_idle.nil⟩, rfl, ?_, .inr rfl⟩
        simp [closed, ← hended]

/-- The secrets generated as in a run, with every command and every operation written down. -/
def generation (around : Surroundings) (ts : List (Template (List String))) (store : Store System)
    (s : System) : Outcome (Observed System) Interrupted (List RunFailure) :=
  generate around.systemShell.observed store.observed Range.ofTexts ts ⟨s, []⟩

theorem generation_run (around : Surroundings) (ts : List (Template (List String)))
    (store : Store System) (s : System) :
    generate around.systemShell store Range.ofTexts ts s
      = ⟨(generation around ts store s).result, (generation around ts store s).events,
          (generation around ts store s).state.state⟩ :=
  generate_observed Range.ofTexts around.systemShell store ts ⟨s, []⟩

/-- What a run has come to that has a store. -/
structure Concluded (around : Surroundings) (ts : List (Template (List String)))
    (store : Store System) (s : System) (out : Outcome System Leaving Unit) : Prop where
  /-- The session was ended once, after the last command and the last operation. -/
  once : ∃ before after, out.events = before ++ .loggedOut :: after ∧ .loggedOut ∉ before ∧ Idle after
  /-- It was ended where generating the secrets had left the system, and the output was saved. -/
  state : out.state = (saveOutput (store.logout (generation around ts store s).state.state).state).state
  /-- The run succeeded exactly when all templates expanded, all calls succeeded and the session was ended
  without a failure. -/
  succeeds_iff : out.result = .ok () ↔ (∀ t ∈ ts, ∃ items, t.expand Range.ofTexts = .ok items)
    ∧ (∀ call ∈ (generation around ts store s).state.calls, call.isFailure = false)
    ∧ (store.logout (generation around ts store s).state.state).result = .ok ()
  /-- In a run that succeeded every value was tried that the items declare, and the store accepted it. -/
  complete : out.result = .ok () → ∃ attempts : List Attempt,
    attempts.map Attempt.value
        = ((expandedItems Range.ofTexts ts).map (·.toItem)).flatMap Item.declared
      ∧ (generation around ts store s).state.calls = attempts.flatMap Attempt.calls
      ∧ ∀ attempt ∈ attempts, attempt.accepted = true
  /-- A run that did not succeed ended with a status that says so. -/
  status : out.result = .ok () ∨ out.result = .error (.exit 1)

/-- A run that has come to something has come to it also with some idle events in front. -/
theorem Concluded.after {around : Surroundings} {ts : List (Template (List String))}
    {store : Store System} {s : System} {out : Outcome System Leaving Unit}
    (h : Concluded around ts store s out) {es : List Event} (hes : Idle es) :
    Concluded around ts store s ⟨out.result, es ++ out.events, out.state⟩ := by
  obtain ⟨before, after, hevents, hbefore, hafter⟩ := h.once
  refine ⟨⟨es ++ before, after, ?_, ?_, hafter⟩, h.state, h.succeeds_iff, h.complete, h.status⟩
  · rw [hevents, List.append_assoc]
  · exact List.mem_append.not.mpr (not_or.mpr ⟨hes.loggedOut_notMem, hbefore⟩)

/-- Generating the secrets does not end the session. -/
theorem generate_loggedOut_notMem {store : Store System} (hstore : store.Unobtrusive)
    (shell : Shell System) (ts : List (Template (List String))) (s : System) :
    .loggedOut ∉ (generate shell store Range.ofTexts ts s).events := by
  have hP := joins_forall (· ≠ Event.loggedOut)
  refine fun h => generate_emits hP (fun r e he => ?_) (fun c e he => ?_) (fun op => ?_) Range.ofTexts ts s
    _ h rfl
  · simp [List.mem_singleton.mp he]
  · simp [List.mem_singleton.mp he]
  · refine .bind hP (.emit fun e he => by simp [List.mem_singleton.mp he]) fun _ => .settle fun t e he => ?_
    rintro rfl
    exact nomatch hstore.apply op t _ he

/-- **A run with a store comes to an end**, whatever the commands and the store answer, as long as the user
does not break off the end of the session. -/
theorem carryOut_concluded {store : Store System} (hstore : store.Unobtrusive) (around : Surroundings)
    (ts : List (Template (List String))) (s : System)
    (hlogout : (store.logout (generation around ts store s).state.state).result
      ≠ .error .interrupted) :
    Concluded around ts store s (carryOut around ts store s) := by
  have hsucceeds : (generation around ts store s).result = .ok [] ↔ _ :=
    generate_succeeds_iff Range.ofTexts around.systemShell store ts s
  have hevents := generate_loggedOut_notMem hstore around.systemShell ts s
  have hrun := carryOut_run around ts store s
  simp only [generation_run] at hevents hrun
  obtain ⟨⟨before, after, hrest, hbefore, hafter⟩, hsaved, hiff, hstatus⟩ :=
    afterGenerate_ends hstore hlogout (generation around ts store s).result
  rw [hrun]
  refine ⟨⟨_, after, by rw [hrest, ← List.append_assoc], ?_, hafter⟩, hsaved, ?_, fun h => ?_, hstatus⟩
  · exact List.mem_append.not.mpr (not_or.mpr ⟨hevents, hbefore.loggedOut_notMem⟩)
  · exact hiff.trans (by rw [hsucceeds, and_assoc]; rfl)
  · exact accepted_of_generate Range.ofTexts (hiff.mp h).1

/-! ### Setting up -/

/-- Setting up does no work. -/
theorem setUp_idle (around : Surroundings) (o : Options) : Emits Idle (setUp around o) :=
  setUp_emits joins_idle (fun _ => idle_singleton rfl) (fun _ => idle_singleton rfl) around o

theorem preface_idle (o : Options) : Idle (preface o) := by
  rw [preface]
  split
  · exact idle_singleton rfl
  · exact joins_idle.nil

def SameServer (s t : System) : Prop := t.server = s.server

theorem SameServer.trans {s t u : System} (h : SameServer s t) (h' : SameServer t u) : SameServer s u :=
  Eq.trans h' h

theorem sameServer_of_state {ε α : Type} {x : Act System ε α} (hx : ∀ s, (x s).state = s) :
    Leads SameServer x := leads_of_state (fun _ => rfl) hx

theorem sameServer_ofExcept {ε α : Type} (r : Except ε α) : Leads SameServer (Act.ofExcept r) :=
  sameServer_of_state fun s => by rw [ofExcept_run]

theorem mapFailure_sameServer {ε δ α : Type} {f : ε → δ} {x : Act System ε α}
    (hx : Leads SameServer x) : Leads SameServer (mapFailure f x) := fun s => by
  rw [mapFailure_run]
  exact hx s

theorem resolve_sameServer {ε : Type} (given named : Option String) (answer : Project.ProgramAnswer) :
    Leads SameServer (Project.resolve given named answer : Act System ε (Option String)) := by
  rw [Project.resolve]
  split
  · exact sameServer_of_state fun _ => rfl
  · exact sameServer_of_state fun _ => rfl
  delta Project.ask
  split
  · exact sameServer_of_state fun _ => rfl
  · dsimp only
    split <;> exact sameServer_of_state fun _ => rfl
  · exact sameServer_of_state fun _ => rfl

theorem openOutput_sameServer (temporary path : String) :
    Leads SameServer (openOutput temporary path) := by
  intro s
  rw [openOutput]
  by_cases hempty : path.isEmpty = true
  · rw [if_pos hempty]
    rfl
  by_cases hzero : hasZero path = true
  · rw [if_neg hempty, if_pos hzero]
    rfl
  rw [if_neg hempty, if_neg hzero, get_bind_run]
  cases s.files.place path <;> rfl

theorem openStore_sameServer (around : Surroundings) (o : Options) (c : Credentials) :
    Leads SameServer (openStore around o c) := by
  rw [openStore]
  split
  · exact .bind SameServer.trans (openOutput_sameServer _ _) fun _ => sameServer_of_state fun _ => rfl
  dsimp only
  split
  all_goals
    refine .bind SameServer.trans ?_ fun given =>
      .bind SameServer.trans (resolve_sameServer _ _ _) fun project => ?_
    · first
      | exact sameServer_of_state fun _ => rfl
      | exact sameServer_ofExcept _
    · cases project <;> exact sameServer_of_state fun _ => rfl

/-- **Setting up asks the server for nothing.** -/
theorem setUp_sameServer (around : Surroundings) (o : Options) :
    Leads SameServer (setUp around o) := by
  refine .bind SameServer.trans (sameServer_of_state fun _ => rfl) fun t =>
    .bind SameServer.trans (mapFailure_sameServer ?_) fun c =>
    .bind SameServer.trans (mapFailure_sameServer ?_) fun _ =>
    .bind SameServer.trans (openStore_sameServer around o c) fun _ => sameServer_of_state fun _ => rfl
  · exact .bind SameServer.trans (sameServer_ofExcept _) fun _ =>
      .bind SameServer.trans (sameServer_of_state fun _ => rfl) fun _ =>
      .bind SameServer.trans (sameServer_ofExcept _) fun _ =>
      .bind SameServer.trans (sameServer_ofExcept _) fun keys =>
      .bind SameServer.trans (sameServer_of_state fun s => by rw [learnAll_run]) fun _ =>
      sameServer_of_state fun _ => rfl
  · exact .bind SameServer.trans (sameServer_ofExcept _) fun _ => sameServer_of_state fun _ => rfl

/-! ### The stores of a run -/

section

variable {o : Options} {store : Store System}

theorem Opened.unobtrusive (h : Opened o store) : store.Unobtrusive := by
  have hlogs {es : List Event} (hes : Versioned.LogsOnly es) : Idle es := fun e he => by
    obtain ⟨r, rfl⟩ := hes e he
    rfl
  obtain ⟨-, rfl⟩ | ⟨-, settings, -, rfl⟩ := h
  · refine ⟨fun op => .within (Emits.bind joins_idle (emits_of_silent joins_idle fun _ => rfl) fun out => ?_),
      fun t => idle_singleton rfl⟩
    split <;> exact emits_of_silent joins_idle fun _ => rfl
  · refine ⟨fun op => .within fun s => ?_, (Versioned.logout_emits joins_idle).within⟩
    obtain ⟨logs, hevents, hes⟩ := Versioned.apply_events settings op s
    show Idle (Versioned.apply settings op s).events
    rw [hevents]
    refine joins_idle.append (fun e he => ?_) (hlogs hes)
    rw [Versioned.announcement] at he
    split at he
    · obtain ⟨text, -, rfl⟩ := List.mem_map.mp he
      rfl
    · cases he

/-- No operation changes the plan of faults. -/
theorem Opened.apply_plan (h : Opened o store) (op : Operation) (t : System) :
    (store.apply op t).state.server.plan = t.server.plan := by
  obtain ⟨-, rfl⟩ | ⟨-, settings, -, rfl⟩ := h
  · rfl
  · exact Versioned.apply_plan settings op ⟨t.session, t.server⟩

/-- The end of the session is broken off only where that is planned. -/
theorem Opened.exists_planned_of_logout (h : Opened o store) {t : System}
    (hlogout : (store.logout t).result = .error .interrupted) :
    ∃ p ∈ t.server.plan, p.fault = .interrupted ∧ p.method = .close := by
  obtain ⟨-, rfl⟩ | ⟨-, settings, -, rfl⟩ := h
  · cases hlogout
  · exact Versioned.exists_planned_of_logout (s := ⟨t.session, t.server⟩) hlogout

/-- Generating the secrets leaves the plan of faults as it is. -/
theorem Opened.generation_plan (h : Opened o store) (around : Surroundings)
    (ts : List (Template (List String))) (s : System) :
    (generation around ts store s).state.state.server.plan = s.server.plan := by
  have hleads : Leads (fun s t : System => t.server.plan = s.server.plan)
      (generate around.systemShell store Range.ofTexts ts) :=
    generate_leads (R := fun s t : System => t.server.plan = s.server.plan) (fun _ => rfl)
      (fun h h' => Eq.trans h' h) (fun _ _ => rfl) (fun op t => h.apply_plan op t) Range.ofTexts ts
  have hs := hleads s
  rwa [generation_run] at hs

end

/-! ### The lifecycle -/

/-- How a run ends that cannot begin: with a status if that is reported, and with the failure otherwise. -/
def SetupFault.leaving : SetupFault → Leaving
  | .reported _ => .exit 1
  | .escaped failure => .escaped failure

/-- What a run does when it has been found out whether it can begin. -/
theorem afterSetUp_error (around : Surroundings) (fault : SetupFault) (s : System) :
    Idle (afterSetUp around (.error fault) s).events
      ∧ (afterSetUp around (.error fault) s).result = .error fault.leaving := by
  cases fault with
  | reported message => exact ⟨idle_singleton rfl, rfl⟩
  | escaped failure => exact ⟨joins_idle.nil, rfl⟩

section

variable {around : Surroundings} {o : Options} {start : System}

theorem runOptions_of_setUp (hchecked : checkOptions o = .ok ())
    {made : Except SetupFault (List (Template (List String)) × Store System)}
    (hmade : (setUp around o start).result = made) :
    let rest := afterSetUp around made (setUp around o start).state
    runOptions around o start
      = ⟨rest.result, preface o ++ (setUp around o start).events ++ rest.events, rest.state⟩ := by
  subst hmade
  intro rest
  rw [List.append_assoc]
  exact runOptions_run hchecked start

theorem beginning_idle : Idle (preface o ++ (setUp around o start).events) :=
  joins_idle.append (preface_idle o) (setUp_idle around o start)

/-- A run that cannot begin does no work. -/
theorem runOptions_idle (hchecked : checkOptions o = .ok ()) {fault : SetupFault}
    (hfault : (setUp around o start).result = .error fault) :
    Idle (runOptions around o start).events
      ∧ (runOptions around o start).result = .error fault.leaving := by
  obtain ⟨hafter, hresult⟩ := afterSetUp_error around fault (setUp around o start).state
  rw [runOptions_of_setUp hchecked hfault]
  exact ⟨joins_idle.append beginning_idle hafter, hresult⟩

/-- **A run that is refused** does no work, reports the reason last, and has the status that says so. -/
theorem runOptions_refused (hchecked : checkOptions o = .ok ()) {message : String}
    (h : Refused around o start.files message) :
    Idle (runOptions around o start).events
      ∧ (∃ before, (runOptions around o start).events
        = before ++ [.logged ⟨.error, .commandLine, s!"Failed to complete options: {message}"⟩])
      ∧ (runOptions around o start).result = .error (.exit 1) := by
  obtain ⟨hidle, hresult⟩ := runOptions_idle hchecked h.setUp
  refine ⟨hidle, ⟨preface o ++ (setUp around o start).events, ?_⟩, hresult⟩
  rw [runOptions_of_setUp hchecked h.setUp]
  rfl

/-- **A run that begins** is concluded, if no fault is planned that breaks off the end of the session. -/
theorem runOptions_concluded (hchecked : checkOptions o = .ok ())
    (hclose : ∀ f ∈ start.server.plan, f.method = .close → f.fault ≠ .interrupted)
    {ts : List (Template (List String))} {store : Store System}
    (h : Begins around o start.files ts store) :
    Concluded around ts store (setUp around o start).state (runOptions around o start) := by
  have hopened : Opened o store := setUp_yields around o start _ h.setUp
  have hserver : (setUp around o start).state.server = start.server := setUp_sameServer around o start
  rw [runOptions_of_setUp hchecked h.setUp]
  refine (carryOut_concluded hopened.unobtrusive around ts _ fun hlogout => ?_).after beginning_idle
  -- the plan of faults is still the one that the run started with
  obtain ⟨f, hf, hfault, hmethod⟩ := hopened.exists_planned_of_logout hlogout
  rw [hopened.generation_plan, hserver] at hf
  exact hclose f hf hmethod hfault

end

/-- **The lifecycle of a run is closed and its status is the truth.**  Whatever the files, the commands and
the server, a run whose arguments are in order is refused, or cannot begin for a reason that it does not
report, or begins.  If it is refused, it does no work, reports the reason and ends with a status that says
so.  If the reason escapes, it does no work either, and the reason is what it ends with.  If it begins, it is
concluded with the store that it has opened, provided that no fault is planned that breaks off the end of
the session; and it would be concluded with any other store as well. -/
theorem run_lifecycle {around : Surroundings} {arguments : List String} {start : System} {o : Options}
    {level : Level} (hparse : Options.parse arguments = .ok (.run o))
    (hlevel : checkLevel o.logLevel = .ok level) (hchecked : checkOptions o = .ok ())
    (hclose : ∀ f ∈ start.server.plan, f.method = .close → f.fault ≠ .interrupted) :
    let out := run around arguments start
    ((∃ message, Refused around o start.files message) ∨ (∃ failure, Escaping o start.files failure)
        ∨ ∃ ts store, Begins around o start.files ts store)
      ∧ (∀ message, Refused around o start.files message →
        Idle out.events
        ∧ (∃ before, out.events
          = before ++ [.logged ⟨.error, .commandLine, s!"Failed to complete options: {message}"⟩])
        ∧ out.result = .error (.exit 1))
      ∧ (∀ failure, Escaping o start.files failure →
        Idle out.events ∧ out.result = .error (.escaped failure))
      ∧ (∀ ts store, Begins around o start.files ts store →
        Concluded around ts store (setUp around o start).state out)
      ∧ ∀ (ts : List (Template (List String))) (store : Store System) (s : System),
        store.Unobtrusive →
        (store.logout (generation around ts store s).state.state).result ≠ .error .interrupted →
        Concluded around ts store s (carryOut around ts store s) := by
  intro out
  have hout : out = runOptions around o start := congrFun (run_of_parse hparse hlevel) start
  rw [hout]
  refine ⟨setUp_cases around o start.files, ?_, ?_, ?_, ?_⟩
  · intro message h
    exact runOptions_refused hchecked h
  · intro failure h
    exact runOptions_idle hchecked h.setUp
  · intro ts store h
    exact runOptions_concluded hchecked hclose h
  · intro ts store s hstore hlogout
    exact carryOut_concluded hstore around ts s hlogout

/-- A template with a password, and a user who breaks off the first version that is sent. -/
def breaking : System :=
  { telling with server := { plan := [⟨.add, some 1, .interrupted⟩] } }

def bare : System where
  files := { entries := [(["key"], .file (Text.Utf8.encode "\x7b\x7d"))] }
  server := {}

/-- The run that is broken off ends its session and says so in its status.  One whose config is missing
says so in the log, and does no work. -/
theorem run_lifecycle_breaking :
    checkOptions givenOptions = .ok ()
      ∧ (∀ f ∈ breaking.server.plan, f.method = .close → f.fault ≠ .interrupted)
      ∧ (∃ before after, (run making givenArguments breaking).events = before ++ .loggedOut :: after
        ∧ .loggedOut ∉ before ∧ Idle after)
      ∧ (run making givenArguments breaking).result = .error (.exit 1)
      ∧ Idle (run making givenArguments bare).events
      ∧ (∃ before, (run making givenArguments bare).events = before ++ [.logged ⟨.error, .commandLine,
        "Failed to complete options: Configuration file not found at: items"⟩])
      ∧ (run making givenArguments bare).result = .error (.exit 1) := by
  have hchecked : checkOptions givenOptions = .ok () := by decide
  have hclose : ∀ f ∈ breaking.server.plan, f.method = .close → f.fault ≠ .interrupted := by decide
  obtain ⟨hcases, hrefused, hescaping, hbegins, -⟩ :=
    @run_lifecycle making _ breaking _ _ parse_givenArguments checkLevel_info hchecked hclose
  obtain ⟨-, hbare, -⟩ := @run_lifecycle making _ bare _ _ parse_givenArguments checkLevel_info hchecked
    (by decide)
  have hlogged : .loggedOut ∈ (run making givenArguments breaking).events := by
    rw [run_givenArguments]
    decide +kernel
  have hfails : (run making givenArguments breaking).result.isOk = false := by
    rw [run_givenArguments]
    decide +kernel
  refine ⟨hchecked, hclose, ?_⟩
  obtain ⟨ts, store, h⟩ : ∃ ts store, Begins making givenOptions breaking.files ts store := by
    rcases hcases with ⟨message, h⟩ | ⟨failure, h⟩ | h
    · exact absurd hlogged (hrefused message h).1.loggedOut_notMem
    · exact absurd hlogged (hescaping failure h).1.loggedOut_notMem
    · exact h
  have hconcluded := hbegins ts store h
  have hexit := hconcluded.status.resolve_left fun hok => by
    rw [hok] at hfails
    cases hfails
  have hmissing : Refused making givenOptions bare.files "Configuration file not found at: items" := by
    have hkey : readText bare.files "key" = .ok "\x7b\x7d" := by decide +kernel
    have hconfig : readText bare.files "items" = .error (.file .missing "items") := by decide +kernel
    exact .config ⟨_, hkey, by rfl⟩ (.missing hconfig (by decide))
  exact ⟨hconcluded.once, hexit, hbare _ hmissing⟩

end CommandLine

end SecretForge
