import SecretForge.Proofs.CommandLine.Trace

/-!
# What stands in the way of a run

Before its first secret a run reads its key file and its config and opens its store, in this order, and the
first of these that goes wrong ends it.  What can go wrong is told here from the files, the options and
what surrounds the run.  Most of it is reported: a file that is missing, a key file that is no JSON object,
a config that has no templates or invalid ones, an output that cannot be opened, a project that nobody
names.  The rest is not expected and escapes: bytes that are no text, a zero in a path, and a scalar of
the config that has no value.

* `KeyFileRefused`, `KeyFileEscapes`, `KeyFileHolds` — the ways in which a key file is read;
  `ConfigRefused`, `ConfigEscapes`, `ConfigHolds` — those in which a config is.
* `projectSources` — where the project of a run can be named; the first name that is not empty counts.
* `StoreRefused`, `StoreEscapes`, `StoreOpens` — the ways in which the store is opened.
* `Refused`, `Escaping`, `Begins` — a run cannot begin and reports why, or without a report, or it can.
* **`setUp_cases`**, `Refused.setUp`, `Escaping.setUp`, `Begins.setUp` — setting up ends in these ways and in
  no other.
-/

namespace SecretForge.CommandLine

open Act Number Text

section

variable {fs : Files} {path message : String} {failure : Escape}

/-! ### The key file -/

/-- The key file at the path is of no use, and this is reported. -/
inductive KeyFileRefused (fs : Files) (path : String) : String → Prop
  | unreadable {fault : FileFault} {tidy : String}
    (hread : readText fs path = .error (.file fault tidy)) :
    KeyFileRefused fs path s!"Failed to read credentials file at {path}: {fault.report tidy}"
  | empty {text : String} (hread : readText fs path = .ok text) (hempty : trim text = "") :
    KeyFileRefused fs path s!"Credentials file at {path} was empty"
  | malformed {text : String} {fault : Json.Fault} (hread : readText fs path = .ok text)
    (hfilled : trim text ≠ "") (hparse : Json.parse (trim text) = .error fault) :
    KeyFileRefused fs path
      s!"Credentials file at {path} is not valid JSON: {fault.message (trim text)}"
  | notAnObject {text : String} {v : Json} (hread : readText fs path = .ok text)
    (hparse : Json.parse (trim text) = .ok v) (hv : ∀ entries, v ≠ .object entries) :
    KeyFileRefused fs path s!"Credentials file at {path} must hold a JSON object"

inductive KeyFileEscapes (fs : Files) (path : String) : Escape → Prop
  | zeroInPath (hread : readText fs path = .error .zeroInPath) : KeyFileEscapes fs path .zeroInPath
  | notText {fault : Utf8.Fault} (hread : readText fs path = .error (.notText fault)) :
    KeyFileEscapes fs path (.notText fault)

/-- The text at the path is a JSON object with the entries, with or without blanks around it. -/
def KeyFileHolds (fs : Files) (path : String) (entries : Credentials) : Prop :=
  ∃ text, readText fs path = .ok text ∧ Json.parse (trim text) = .ok (.object entries)

theorem keyFile_cases (fs : Files) (path : String) :
    (∃ message, KeyFileRefused fs path message) ∨ (∃ failure, KeyFileEscapes fs path failure)
      ∨ ∃ entries, KeyFileHolds fs path entries := by
  cases hread : readText fs path with
  | error fault =>
    cases fault with
    | file fault tidy => exact .inl ⟨_, .unreadable hread⟩
    | zeroInPath => exact .inr (.inl ⟨_, .zeroInPath hread⟩)
    | notText fault => exact .inr (.inl ⟨_, .notText hread⟩)
  | ok text =>
    by_cases hempty : trim text = ""
    · exact .inl ⟨_, .empty hread hempty⟩
    cases hparse : Json.parse (trim text) with
    | error fault => exact .inl ⟨_, .malformed hread hempty hparse⟩
    | ok v =>
      by_cases hv : ∃ entries, v = .object entries
      · obtain ⟨entries, rfl⟩ := hv
        exact .inr (.inr ⟨entries, text, hread, hparse⟩)
      · exact .inl ⟨_, .notAnObject hread hparse fun entries h => hv ⟨entries, h⟩⟩

section

variable {σ : Type} (s : σ)

theorem KeyFileRefused.read (h : KeyFileRefused fs path message) :
    (readCredentials fs path s).result.mapError CredentialsFault.asSetup
      = .error (.reported message) := by
  cases h with
  | unreadable hread =>
    rw [readCredentials, credentialsText, hread]
    rfl
  | empty hread hempty =>
    have htext : credentialsText fs path = .error (.empty path) := by
      rw [credentialsText, hread]
      simp [hempty]
    rw [readCredentials, htext]
    rfl
  | malformed hread hfilled hparse =>
    rw [readCredentials_run (credentialsText_ok hread hfilled), credentialsOf, hparse]
    rfl
  | @notAnObject text v hread hparse hv =>
    rw [readCredentials_run (credentialsText_ok hread (trim_ne_empty hparse)), credentialsOf, hparse]
    cases v with
    | object entries => exact absurd rfl (hv entries)
    | _ => rfl

theorem KeyFileEscapes.read (h : KeyFileEscapes fs path failure) :
    (readCredentials fs path s).result.mapError CredentialsFault.asSetup
      = .error (.escaped failure) := by
  cases h with
  | zeroInPath hread =>
    rw [readCredentials, credentialsText, hread]
    rfl
  | notText hread =>
    rw [readCredentials, credentialsText, hread]
    rfl

theorem KeyFileHolds.read {entries : Credentials} (h : KeyFileHolds fs path entries) :
    (readCredentials fs path s).result.mapError CredentialsFault.asSetup = .ok entries := by
  obtain ⟨text, hread, hparse⟩ := h
  obtain ⟨keys, -, hrun⟩ :=
    readCredentials_object (credentialsText_ok hread (trim_ne_empty hparse)) hparse s
  rw [hrun]
  rfl

end

/-! ### The config -/

/-- The config at the path is of no use, and this is reported. -/
inductive ConfigRefused (fs : Files) (path : String) : String → Prop
  | missing {fault : FileFault} {tidy : String} (hread : readText fs path = .error (.file fault tidy))
    (hfault : fault ≠ .nameTooLong) : ConfigRefused fs path s!"Configuration file not found at: {path}"
  | zeroInPath (hread : readText fs path = .error .zeroInPath) :
    ConfigRefused fs path s!"Configuration file not found at: {path}"
  | nameTooLong {tidy : String} (hread : readText fs path = .error (.file .nameTooLong tidy)) :
    ConfigRefused fs path (FileFault.report tidy .nameTooLong)
  | unfit {text : String} {fault : ConfigFault} (hread : readText fs path = .ok text)
    (hparse : Config.parse text path = .error (.config fault)) : ConfigRefused fs path fault.message
  | invalid {text : String} {ts : List (Template (List String))} {violation : Violation}
    (hread : readText fs path = .ok text) (hparse : Config.parse text path = .ok ts)
    (hvalidate : Config.validate List.isEmpty ts = .error violation) :
    ConfigRefused fs path violation.message

inductive ConfigEscapes (fs : Files) (path : String) : Escape → Prop
  | notText {fault : Utf8.Fault} (hread : readText fs path = .error (.notText fault)) :
    ConfigEscapes fs path (.notText fault)
  | scalar {text : String} {fault : Yaml.Fault} (hread : readText fs path = .ok text)
    (hparse : Config.parse text path = .error (.scalar fault)) : ConfigEscapes fs path (.scalar fault)
  | number {text : String} {fault : IntegerFault} (hread : readText fs path = .ok text)
    (hparse : Config.parse text path = .error (.text fault)) : ConfigEscapes fs path (.number fault)

def ConfigHolds (fs : Files) (path : String) (ts : List (Template (List String))) : Prop :=
  ∃ text, readText fs path = .ok text ∧ Config.parse text path = .ok ts
    ∧ Config.validate List.isEmpty ts = .ok ()

theorem config_cases (fs : Files) (path : String) :
    (∃ message, ConfigRefused fs path message) ∨ (∃ failure, ConfigEscapes fs path failure)
      ∨ ∃ ts, ConfigHolds fs path ts := by
  cases hread : readText fs path with
  | error fault =>
    cases fault with
    | file fault tidy =>
      by_cases hfault : fault = .nameTooLong
      · exact .inl ⟨_, .nameTooLong (hfault ▸ hread)⟩
      · exact .inl ⟨_, .missing hread hfault⟩
    | zeroInPath => exact .inl ⟨_, .zeroInPath hread⟩
    | notText fault => exact .inr (.inl ⟨_, .notText hread⟩)
  | ok text =>
    cases hparse : Config.parse text path with
    | error fault =>
      cases fault with
      | config fault => exact .inl ⟨_, .unfit hread hparse⟩
      | scalar fault => exact .inr (.inl ⟨_, .scalar hread hparse⟩)
      | text fault => exact .inr (.inl ⟨_, .number hread hparse⟩)
    | ok ts =>
      cases hvalidate : Config.validate List.isEmpty ts with
      | error violation => exact .inl ⟨_, .invalid hread hparse hvalidate⟩
      | ok u => exact .inr (.inr ⟨ts, text, hread, hparse, hvalidate⟩)

/-- Loading a config whose text is there. -/
theorem load_of_text {text : String} (hread : readText fs path = .ok text) :
    Config.load fs path = (do
      let ts ← (Config.parse text path).mapError Config.LoadFault.read
      (Config.validate List.isEmpty ts).mapError .violation
      return ts) := by
  rw [Config.load, Config.fileText, hread]
  rfl

theorem ConfigRefused.load (h : ConfigRefused fs path message) :
    (Config.load fs path).mapError loadFaultAsSetup = .error (.reported message) := by
  cases h with
  | @missing fault tidy hread hfault =>
    rw [Config.load, Config.fileText, hread]
    cases fault with
    | nameTooLong => exact absurd rfl hfault
    | _ => rfl
  | zeroInPath hread =>
    rw [Config.load, Config.fileText, hread]
    rfl
  | nameTooLong hread =>
    rw [Config.load, Config.fileText, hread]
    rfl
  | unfit hread hparse =>
    rw [load_of_text hread, hparse]
    rfl
  | @invalid text ts violation hread hparse hvalidate =>
    rw [load_of_text hread, hparse]
    show ((do (Config.validate List.isEmpty ts).mapError .violation; return ts) :
      Except Config.LoadFault _).mapError _ = _
    rw [hvalidate]
    rfl

theorem ConfigEscapes.load (h : ConfigEscapes fs path failure) :
    (Config.load fs path).mapError loadFaultAsSetup = .error (.escaped failure) := by
  cases h with
  | notText hread =>
    rw [Config.load, Config.fileText, hread]
    rfl
  | scalar hread hparse =>
    rw [load_of_text hread, hparse]
    rfl
  | number hread hparse =>
    rw [load_of_text hread, hparse]
    rfl

theorem ConfigHolds.load {ts : List (Template (List String))} (h : ConfigHolds fs path ts) :
    (Config.load fs path).mapError loadFaultAsSetup = .ok ts := by
  obtain ⟨text, hread, hparse, hvalidate⟩ := h
  rw [load_of_text hread, hparse]
  show ((do (Config.validate List.isEmpty ts).mapError .violation; return ts) :
    Except Config.LoadFault _).mapError _ = _
  rw [hvalidate]
  rfl

end

/-! ### The project -/

/-- The project that a key file names; an empty name is none. -/
def keyFileProject (entries : Credentials) : String :=
  match Json.find? (codePoints "project_id") entries with
  | some v => if v.layer.isEmpty then "" else (Layered.plain v).toOption.getD ""
  | none => ""

def toolProject : Project.ProgramAnswer → String
  | .ended status output => if status = 0 then trim output else ""
  | .missing => ""

/-- Where the project of a run can be named, the first that counts in front. -/
def projectSources (around : Surroundings) (o : Options) (entries : Credentials) : List String :=
  [o.projectId.getD "", keyFileProject entries, around.environment.getD "", toolProject around.gcloud]

def firstNamed (names : List String) : Option String := names.find? (· ≠ "")

theorem firstNamed_cons (name : String) (names : List String) :
    firstNamed (name :: names) = if name = "" then firstNamed names else some name := by
  rw [firstNamed, List.find?_cons]
  by_cases h : name = "" <;> simp [h, firstNamed]

theorem filter_isEmpty (given : Option String) :
    given.filter (!·.isEmpty) = if given.getD "" = "" then none else some (given.getD "") := by
  cases given with
  | none => rfl
  | some name => by_cases h : name = "" <;> simp [h]

section

variable {σ ε : Type}

theorem ask_result (answer : Project.ProgramAnswer) (s : σ) :
    (Project.ask answer s : Outcome σ ε (Option String)).result
      = .ok (firstNamed [toolProject answer]) := by
  cases answer with
  | missing => rfl
  | ended status output =>
    delta Project.ask
    by_cases hstatus : status = 0
    · have hreport : Project.failureReport (.ended status output) = none := if_pos hstatus
      simp only [hreport]
      rw [firstNamed_cons, toolProject, if_pos hstatus]
      by_cases hempty : trim output = ""
      · simp [hempty, firstNamed]
      · simp [hempty, log_bind_run]
    · have hreport : ∃ report, Project.failureReport (.ended status output) = some report :=
        ⟨_, if_neg hstatus⟩
      obtain ⟨report, hreport⟩ := hreport
      simp only [hreport]
      rw [firstNamed_cons, toolProject, if_neg hstatus]
      rfl

theorem resolve_result (given named : Option String) (answer : Project.ProgramAnswer) (s : σ) :
    (Project.resolve given named answer s : Outcome σ ε (Option String)).result
      = .ok (firstNamed [given.getD "", named.getD "", toolProject answer]) := by
  rw [Project.resolve, filter_isEmpty, filter_isEmpty, firstNamed_cons, firstNamed_cons]
  by_cases hgiven : given.getD "" = ""
  · by_cases hnamed : named.getD "" = ""
    · simp only [hgiven, hnamed, if_true]
      exact ask_result answer s
    · simp [hgiven, hnamed, log_bind_run]
  · simp [hgiven]

end

/-- The project of the key file, whose entries have texts. -/
theorem project_of_writable {c : Credentials} (h : Json.Everywhere Json.Writable (.object c)) :
    ∃ named : Option String, c.project = .ok named ∧ named.getD "" = keyFileProject c := by
  cases hfind : Json.find? (codePoints "project_id") c with
  | none =>
    have hnone : c.find? "project_id" = none := by rw [Credentials.find?, hfind, Option.filter_none]
    rw [Credentials.project, hnone, keyFileProject, hfind]
    exact ⟨none, rfl, rfl⟩
  | some v =>
    have hv : Json.Everywhere Json.Writable v :=
      Json.everywhereUnder_iff.mp h.2 _ (Json.mem_of_find? hfind)
    obtain ⟨text, htext⟩ := Json.plain_of_writable hv
    have hfound : c.find? "project_id" = if v.layer.isEmpty then none else some v := by
      rw [Credentials.find?, hfind, Option.filter_some]
      cases v.layer.isEmpty <;> rfl
    rw [Credentials.project, hfound, keyFileProject, hfind]
    simp only [htext]
    cases v.layer.isEmpty with
    | true => exact ⟨none, rfl, rfl⟩
    | false =>
      refine ⟨some text, ?_, rfl⟩
      show (Layered.plain v).map some = _
      rw [htext]
      rfl

/-! ### The store -/

section

variable {around : Surroundings} {o : Options} {fs : Files} {entries : Credentials} {message : String}
  {failure : Escape} {store : Store System}

/-- The store cannot be opened, and this is reported. -/
inductive StoreRefused (around : Surroundings) (o : Options) (fs : Files) (entries : Credentials) :
    String → Prop
  | output {path : String} {fault : FileFault} (hdry : o.dryRun = true)
    (hpath : o.dryRunOutput = some path) (hnamed : path ≠ "") (hzero : hasZero path = false)
    (hplace : fs.place path = .error fault) : StoreRefused around o fs entries (fault.report path)
  | noProject (hdry : o.dryRun = false) (hnone : ∀ name ∈ projectSources around o entries, name = "") :
    StoreRefused around o fs entries ("Project ID not found. Pass --project-id, set GCP_PROJECT, "
      ++ "or use a service account file that names its project")

inductive StoreEscapes (o : Options) : Escape → Prop
  | zeroInPath {path : String} (hdry : o.dryRun = true) (hpath : o.dryRunOutput = some path)
    (hzero : hasZero path = true) : StoreEscapes o .zeroInPath

/-- The store that is opened: one that writes to a temporary file or to the output, or the one of the
project that is named first. -/
inductive StoreOpens (around : Surroundings) (o : Options) (fs : Files) (entries : Credentials) :
    Store System → Prop
  | temporary (hdry : o.dryRun = true) (hunnamed : o.dryRunOutput.getD "" = "") :
    StoreOpens around o fs entries dryRunStore
  | output {path : String} {p : Path} (hdry : o.dryRun = true) (hpath : o.dryRunOutput = some path)
    (hzero : hasZero path = false) (hplace : fs.place path = .ok p) :
    StoreOpens around o fs entries dryRunStore
  | live {project : String} (hdry : o.dryRun = false)
    (hproject : firstNamed (projectSources around o entries) = some project) :
    StoreOpens around o fs entries (liveStore { project, credentials := some o.credentialsPath })

theorem firstNamed_eq_none_iff {names : List String} :
    firstNamed names = none ↔ ∀ name ∈ names, name = "" := by
  rw [firstNamed, List.find?_eq_none]
  simp

theorem store_cases (around : Surroundings) (o : Options) (fs : Files) (entries : Credentials) :
    (∃ message, StoreRefused around o fs entries message) ∨ (∃ failure, StoreEscapes o failure)
      ∨ ∃ store, StoreOpens around o fs entries store := by
  cases hdry : o.dryRun with
  | true =>
    by_cases hunnamed : o.dryRunOutput.getD "" = ""
    · exact .inr (.inr ⟨_, .temporary hdry hunnamed⟩)
    obtain ⟨path, hpath⟩ : ∃ path, o.dryRunOutput = some path := by
      cases h : o.dryRunOutput with
      | none => exact absurd (by rw [h]; rfl) hunnamed
      | some path => exact ⟨path, rfl⟩
    have hnamed : path ≠ "" := by rwa [hpath] at hunnamed
    cases hzero : hasZero path with
    | true => exact .inr (.inl ⟨_, .zeroInPath hdry hpath hzero⟩)
    | false =>
      cases hplace : fs.place path with
      | error fault => exact .inl ⟨_, .output hdry hpath hnamed hzero hplace⟩
      | ok p => exact .inr (.inr ⟨_, .output hdry hpath hzero hplace⟩)
  | false =>
    cases hproject : firstNamed (projectSources around o entries) with
    | none => exact .inl ⟨_, .noProject hdry (firstNamed_eq_none_iff.mp hproject)⟩
    | some project => exact .inr (.inr ⟨_, .live hdry hproject⟩)

theorem openOutput_result (temporary path : String) (s : System) :
    (openOutput temporary path s).result
      = if path = "" then .ok ()
        else if hasZero path = true then .error (.escaped .zeroInPath)
        else match s.files.place path with
          | .error fault => .error (.reported (fault.report path))
          | .ok _ => .ok () := by
  rw [openOutput]
  by_cases hempty : path = ""
  · simp [hempty]
  by_cases hzero : hasZero path = true
  · simp [hempty, hzero]
  rw [if_neg (by simpa using hempty), if_neg hzero, if_neg hempty, if_neg hzero, get_bind_run]
  cases s.files.place path <;> rfl

/-- A dry run opens its output. -/
theorem openStore_dry (hdry : o.dryRun = true) (s : System) :
    (openStore around o entries s).result
      = (openOutput around.temporaryName (o.dryRunOutput.getD "") s).result.map fun _ => dryRunStore := by
  rw [openStore, if_pos hdry, bind_result]
  cases (openOutput around.temporaryName (o.dryRunOutput.getD "") s).result <;> rfl

/-- A run that is no dry run opens the store of the project that is named first. -/
theorem openStore_live (hdry : o.dryRun = false) (h : Json.Everywhere Json.Writable (.object entries))
    (s : System) :
    (openStore around o entries s).result
      = match firstNamed (projectSources around o entries) with
        | none => .error (.reported ("Project ID not found. Pass --project-id, set GCP_PROJECT, "
            ++ "or use a service account file that names its project"))
        | some project => .ok (liveStore { project, credentials := some o.credentialsPath }) := by
  obtain ⟨named, hnamed, hname⟩ := project_of_writable h
  have hresolved (given : Option String) (hgiven : firstNamed [given.getD "", around.environment.getD "",
      toolProject around.gcloud] = firstNamed (projectSources around o entries)) (t : System) :
      (Project.resolve given around.environment around.gcloud t :
          Outcome System SetupFault (Option String)).result
        = .ok (firstNamed (projectSources around o entries)) := by
    rw [resolve_result, hgiven]
  rw [openStore, if_neg (by rw [hdry]; exact Bool.false_ne_true), filter_isEmpty]
  by_cases hgiven : o.projectId.getD "" = ""
  · have hsources : firstNamed [named.getD "", around.environment.getD "", toolProject around.gcloud]
        = firstNamed (projectSources around o entries) := by
      rw [projectSources, firstNamed_cons (o.projectId.getD ""), if_pos hgiven, hname]
    have hok : (entries.project.mapError fun f => SetupFault.escaped (.number f)) = .ok named := by
      rw [hnamed]
      rfl
    simp only [hgiven, if_true, hok]
    rw [bind_run_ok (ofExcept_run _ s), bind_run_of_result (hresolved named hsources s)]
    cases firstNamed (projectSources around o entries) <;> rfl
  · have hsources : firstNamed [(some (o.projectId.getD "")).getD "", around.environment.getD "",
        toolProject around.gcloud] = firstNamed (projectSources around o entries) := by
      rw [projectSources, firstNamed_cons, firstNamed_cons (o.projectId.getD "")]
      simp [hgiven]
    simp only [hgiven, if_false]
    rw [pure_bind_run, bind_run_of_result (hresolved _ hsources s)]
    cases firstNamed (projectSources around o entries) <;> rfl

variable (s : System)

theorem StoreRefused.opening (h : StoreRefused around o s.files entries message)
    (hwritable : Json.Everywhere Json.Writable (.object entries)) :
    (openStore around o entries s).result = .error (.reported message) := by
  cases h with
  | output hdry hpath hnamed hzero hplace =>
    rw [openStore_dry hdry, openOutput_result, hpath]
    simp [hnamed, hzero, hplace]
    rfl
  | noProject hdry hnone => rw [openStore_live hdry hwritable, firstNamed_eq_none_iff.mpr hnone]

theorem StoreEscapes.opening (h : StoreEscapes o failure) :
    (openStore around o entries s).result = .error (.escaped failure) := by
  obtain @⟨path, hdry, hpath, hzero⟩ := h
  have hnamed : path ≠ "" := fun hempty => by
    rw [hempty] at hzero
    cases hzero
  rw [openStore_dry hdry, openOutput_result, hpath]
  simp [hnamed, hzero]
  rfl

theorem StoreOpens.opening (h : StoreOpens around o s.files entries store)
    (hwritable : Json.Everywhere Json.Writable (.object entries)) :
    (openStore around o entries s).result = .ok store := by
  cases h with
  | temporary hdry hunnamed =>
    rw [openStore_dry hdry, openOutput_result, if_pos hunnamed]
    rfl
  | @output path p hdry hpath hzero hplace =>
    rw [openStore_dry hdry, openOutput_result, hpath]
    by_cases hempty : path = "" <;> simp [hempty, hzero, hplace] <;> rfl
  | live hdry hproject => rw [openStore_live hdry hwritable, hproject]

end

/-! ### Setting up -/

section

variable {around : Surroundings} {o : Options} {message : String} {failure : Escape}
  {ts : List (Template (List String))} {store : Store System}

/-- A run cannot begin, and this is what it reports. -/
inductive Refused (around : Surroundings) (o : Options) (fs : Files) : String → Prop
  | keyFile {message : String} (h : KeyFileRefused fs o.credentialsPath message) :
    Refused around o fs message
  | config {entries : Credentials} {message : String} (hkey : KeyFileHolds fs o.credentialsPath entries)
    (h : ConfigRefused fs o.config message) : Refused around o fs message
  | store {entries : Credentials} {ts : List (Template (List String))} {message : String}
    (hkey : KeyFileHolds fs o.credentialsPath entries) (hconfig : ConfigHolds fs o.config ts)
    (h : StoreRefused around o fs entries message) : Refused around o fs message

/-- A run cannot begin, for a reason that it does not report. -/
inductive Escaping (o : Options) (fs : Files) : Escape → Prop
  | keyFile {failure : Escape} (h : KeyFileEscapes fs o.credentialsPath failure) : Escaping o fs failure
  | config {entries : Credentials} {failure : Escape} (hkey : KeyFileHolds fs o.credentialsPath entries)
    (h : ConfigEscapes fs o.config failure) : Escaping o fs failure
  | store {entries : Credentials} {ts : List (Template (List String))} {failure : Escape}
    (hkey : KeyFileHolds fs o.credentialsPath entries) (hconfig : ConfigHolds fs o.config ts)
    (h : StoreEscapes o failure) : Escaping o fs failure

/-- A run begins, with templates and a store. -/
structure Begins (around : Surroundings) (o : Options) (fs : Files) (ts : List (Template (List String)))
    (store : Store System) : Prop where
  config : ConfigHolds fs o.config ts
  opens : ∃ entries, KeyFileHolds fs o.credentialsPath entries ∧ StoreOpens around o fs entries store

/-- **A run begins or it does not**, with or without a report. -/
theorem setUp_cases (around : Surroundings) (o : Options) (fs : Files) :
    (∃ message, Refused around o fs message) ∨ (∃ failure, Escaping o fs failure)
      ∨ ∃ ts store, Begins around o fs ts store := by
  rcases keyFile_cases fs o.credentialsPath with ⟨message, h⟩ | ⟨failure, h⟩ | ⟨entries, hkey⟩
  · exact .inl ⟨message, .keyFile h⟩
  · exact .inr (.inl ⟨failure, .keyFile h⟩)
  rcases config_cases fs o.config with ⟨message, h⟩ | ⟨failure, h⟩ | ⟨ts, hconfig⟩
  · exact .inl ⟨message, .config hkey h⟩
  · exact .inr (.inl ⟨failure, .config hkey h⟩)
  rcases store_cases around o fs entries with ⟨message, h⟩ | ⟨failure, h⟩ | ⟨store, h⟩
  · exact .inl ⟨message, .store hkey hconfig h⟩
  · exact .inr (.inl ⟨failure, .store hkey hconfig h⟩)
  · exact .inr (.inr ⟨ts, store, hconfig, entries, hkey, h⟩)

theorem readCredentials_state {σ : Type} (fs : Files) (path : String) (s : σ) :
    (readCredentials fs path s).state = s := by
  cases htext : credentialsText fs path with
  | error f =>
    rw [readCredentials, htext]
    rfl
  | ok text =>
    rw [readCredentials_run htext]
    split
    · rfl
    · split <;> rfl

/-- Setting up is one thing after the other, none of which changes what the next one finds. -/
theorem setUp_result (around : Surroundings) (o : Options) (s : System) :
    (setUp around o s).result = (do
      let entries ← (readCredentials s.files o.credentialsPath s).result.mapError CredentialsFault.asSetup
      let ts ← (Config.load s.files o.config).mapError loadFaultAsSetup
      let store ← (openStore around o entries s).result
      return (ts, store)) := by
  have hconfig : (Config.loadLogged s.files o.config s).result = Config.load s.files o.config
      ∧ (Config.loadLogged s.files o.config s).state = s := by
    rw [Config.loadLogged]
    cases Config.load s.files o.config <;> exact ⟨rfl, rfl⟩
  rw [setUp, get_bind_run, bind_result, mapFailure_run, readCredentials_state]
  refine bind_congr fun entries => ?_
  rw [bind_result, mapFailure_run, hconfig.1, hconfig.2]
  refine bind_congr fun ts => ?_
  rw [bind_result]
  rfl

theorem KeyFileHolds.writable {fs : Files} {path : String} {entries : Credentials}
    (h : KeyFileHolds fs path entries) : Json.Everywhere Json.Writable (.object entries) :=
  let ⟨_, _, hparse⟩ := h
  Json.parse_writable hparse

variable {s : System}

/-- **What is reported** of a run that cannot begin. -/
theorem Refused.setUp (h : Refused around o s.files message) :
    (setUp around o s).result = .error (.reported message) := by
  rw [setUp_result]
  cases h with
  | keyFile h =>
    rw [h.read]
    rfl
  | config hkey h =>
    rw [hkey.read, h.load]
    rfl
  | store hkey hconfig h =>
    rw [hkey.read, hconfig.load]
    show (openStore around o _ s).result.bind _ = _
    rw [h.opening s hkey.writable]
    rfl

/-- **What escapes** from a run that cannot begin. -/
theorem Escaping.setUp (h : Escaping o s.files failure) :
    (setUp around o s).result = .error (.escaped failure) := by
  rw [setUp_result]
  cases h with
  | keyFile h =>
    rw [h.read]
    rfl
  | config hkey h =>
    rw [hkey.read, h.load]
    rfl
  | store hkey hconfig h =>
    rw [hkey.read, hconfig.load]
    show (openStore around o _ s).result.bind _ = _
    rw [h.opening s]
    rfl

/-- **A run that begins** is set up. -/
theorem Begins.setUp (h : Begins around o s.files ts store) :
    (setUp around o s).result = .ok (ts, store) := by
  obtain ⟨hconfig, entries, hkey, hopens⟩ := h
  rw [setUp_result, hkey.read, hconfig.load]
  show (openStore around o entries s).result.bind _ = _
  rw [hopens.opening s hkey.writable]
  rfl

end

end SecretForge.CommandLine
