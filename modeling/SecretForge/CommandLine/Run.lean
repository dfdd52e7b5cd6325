import SecretForge.CommandLine.Check
import SecretForge.CommandLine.Credentials
import SecretForge.CommandLine.Usage
import SecretForge.Config.Load
import SecretForge.Project
import SecretForge.Redaction
import SecretForge.Store.DryRun
import SecretForge.Store.Versioned
import SecretForge.Update

/-!
# A run of the command line

The options are parsed and checked, the credentials and the configuration are read, the store is
opened, and the secrets are generated; the store's session is ended in any case.  What goes wrong up
to the opening of the store is one report; what goes wrong later is collected and reported together.

* `Surroundings` is what a run finds and does not change, `System` what it may change.
* `setUp` does all that has to be done before the first secret, `carryOut` all that follows.
* `run` is the whole run, `Transcript` what can be seen of it.
-/

namespace SecretForge.CommandLine

/-- What a run finds and does not change. -/
structure Surroundings where
  /-- The project that the environment names. -/
  environment : Option String := none
  /-- What the cloud's command-line tool answers. -/
  gcloud : Project.ProgramAnswer := .missing
  shell : Shell Files
  /-- The name of a temporary file. -/
  temporaryName : String

structure System where
  files : Files
  server : Server
  session : Versioned.Session := {}
  /-- The output of a dry run. -/
  output : DryRun.Output := { name := "" }
  /-- The file that the output of a dry run goes to, if it is not a temporary one. -/
  target : Option Path := none
  /-- The contents of the temporary file. -/
  temporary : Option String := none

/-- A failure that is not reported but ends the run. -/
inductive Escape where
  /-- A file holds no text. -/
  | notText (fault : Text.Utf8.Fault)
  /-- A path has a zero in it. -/
  | zeroInPath
  /-- A scalar of the configuration has no value. -/
  | scalar (fault : Yaml.Fault)
  /-- A number has no text. -/
  | number (fault : Number.IntegerFault)
  /-- The user broke off while the session was ended. -/
  | interrupted

def Escape.message : Escape → String
  | .notText f => f.message
  | .zeroInPath => zeroReport
  | .scalar f => f.message
  | .number f => f.message
  | .interrupted => ""

/-- How a run ends before its last line. -/
inductive Leaving where
  | exit (status : Nat)
  | escaped (failure : Escape)

/-- Why a run cannot begin. -/
inductive SetupFault where
  | reported (message : String)
  | escaped (failure : Escape)

def CredentialsFault.asSetup : CredentialsFault → SetupFault
  | .unreadable path fault tidy =>
    .reported s!"Failed to read credentials file at {path}: {fault.report tidy}"
  | .zeroInPath => .escaped .zeroInPath
  | .notText fault => .escaped (.notText fault)
  | .empty path => .reported s!"Credentials file at {path} was empty"
  | .notJson path text fault =>
    .reported s!"Credentials file at {path} is not valid JSON: {fault.message text}"
  | .notAnObject path => .reported s!"Credentials file at {path} must hold a JSON object"
  | .key fault => .escaped (.number fault)

def loadFaultAsSetup : Config.LoadFault → SetupFault
  | .notFound path => .reported s!"Configuration file not found at: {path}"
  | .file fault path => .reported (fault.report path)
  | .notText fault => .escaped (.notText fault)
  | .read (.config fault) => .reported fault.message
  | .read (.scalar fault) => .escaped (.scalar fault)
  | .read (.text fault) => .escaped (.number fault)
  | .violation v => .reported v.message

/-- A computation with its failure turned into another. -/
def mapFailure {σ ε δ α : Type} (f : ε → δ) (x : Act σ ε α) : Act σ δ α := do
  match ← Act.attempt x with
  | .ok a => return a
  | .error e => Act.fail (f e)

/-! ### Setting up -/

def dryRunStore : Store System :=
  DryRun.store.within System.output fun output t => { t with output }

def liveStore (settings : Versioned.Settings) : Store System :=
  (Versioned.store settings).within (fun t : System => ⟨t.session, t.server⟩)
    fun s t => { t with session := s.session, server := s.server }

/-- The output of a dry run opened at a path, or as a temporary file of a name if there is none. -/
def openOutput (temporary path : String) : Act System SetupFault Unit := do
  if path.isEmpty then
    Act.modify fun t => { t with output := { name := temporary }, temporary := some "" }
  else if hasZero path then Act.fail (.escaped .zeroInPath)
  else
    let t ← Act.get
    match t.files.place path with
    | .error f => Act.fail (.reported (f.report path))
    | .ok p =>
      Act.set { t with
        output := { name := path }, target := some p, files := t.files.put p (.file []) }

def Credentials.project (c : Credentials) : Except Number.IntegerFault (Option String) :=
  match c.find? "project_id" with
  | none => .ok none
  | some v => (Layered.plain v).map some

def openStore (around : Surroundings) (o : Options) (c : Credentials) :
    Act System SetupFault (Store System) := do
  if o.dryRun then
    openOutput around.temporaryName (o.dryRunOutput.getD "")
    let t ← Act.get
    Act.log .info .commandLine s!"Dry-Run enabled, writing secrets to {t.output.name}"
    return dryRunStore
  else
    let given ← match o.projectId.filter (!·.isEmpty) with
      | some p => pure (some p)
      | none => Act.ofExcept (c.project.mapError fun f => .escaped (.number f))
    match ← Project.resolve given around.environment around.gcloud with
    | none =>
      Act.fail (.reported ("Project ID not found. Pass --project-id, set GCP_PROJECT, "
        ++ "or use a service account file that names its project"))
    | some project =>
      Act.log .info .commandLine s!"Uploading secrets to project {project}"
      return liveStore { project, credentials := some o.credentialsPath }

def setUp (around : Surroundings) (o : Options) :
    Act System SetupFault (List (Template (List String)) × Store System) := do
  let t ← Act.get
  let credentials ← mapFailure CredentialsFault.asSetup (readCredentials t.files o.credentialsPath)
  let templates ← mapFailure loadFaultAsSetup (Config.loadLogged t.files o.config)
  let store ← openStore around o credentials
  return (templates, store)

/-! ### Carrying out -/

/-- The output of a dry run saved to its file, in front of what else was put there. -/
def saveOutput : Act System Leaving Unit := Act.modify fun t =>
  match t.target with
  | some p =>
    let bytes := Text.Utf8.encode t.output.written
    let old := match t.files.entry? p with
      | some (.file content) => content
      | _ => []
    { t with files := t.files.put p (.file (bytes ++ old.drop bytes.length)) }
  | none => { t with temporary := t.temporary.map fun _ => t.output.written }

/-- The store's session ended; whether that succeeded. -/
def endSession (store : Store System) : Act System Leaving Bool := do
  Act.emit .loggedOut
  let result ← Act.attempt (Act.settle store.logout)
  saveOutput
  match result with
  | .error .byUser => Act.fail (.escaped .interrupted)
  | .ok (.error f) =>
    Act.log .error .commandLine s!"failed to logout: {f.message}"
    return false
  | .ok (.ok ()) => return true

/-- The secrets of templates generated and the session ended. -/
def carryOut (around : Surroundings) (templates : List (Template (List String)))
    (store : Store System) : Act System Leaving Unit := do
  let shell := around.shell.within System.files fun files t => { t with files }
  match ← Act.attempt (generate shell store Range.ofTexts templates) with
  | .error .byUser =>
    Act.emit (.told "\nInterrupted\n")
    let _ ← endSession store
    Act.fail (.exit 1)
  | .ok failures =>
    let ended ← endSession store
    match report? (failures.map RunFailure.message) with
    | some report =>
      Act.log .error .commandLine s!"Failed to update secrets: {report}"
      Act.fail (.exit 1)
    | none =>
      if ended then Act.log .info .commandLine "Updated secrets." else Act.fail (.exit 1)

def runOptions (around : Surroundings) (o : Options) : Act System Leaving Unit := do
  match checkOptions o with
  | .error f =>
    Act.emit (.told f.report)
    Act.fail (.exit 2)
  | .ok () =>
    if 1 < o.concurrency then
      Act.log .debug .commandLine
        s!"--concurrency={o.concurrency} requested; items are processed sequentially"
    match ← Act.attempt (setUp around o) with
    | .error (.escaped f) => Act.fail (.escaped f)
    | .error (.reported message) =>
      Act.log .error .commandLine s!"Failed to complete options: {message}"
      Act.fail (.exit 1)
    | .ok (templates, store) => carryOut around templates store

/-- A run of a command line.  The level of the log is part of what it leaves. -/
def run (around : Surroundings) (arguments : List String) : Act System Leaving Unit := do
  match Options.parse arguments with
  | .error f =>
    Act.emit (.told f.report)
    Act.fail (.exit 2)
  | .ok .help => Act.emit (.answered help)
  | .ok .version => Act.emit (.answered version)
  | .ok (.run o) =>
    match checkLevel o.logLevel with
    | .error f =>
      Act.emit (.told f.report)
      Act.fail (.exit 2)
    | .ok _ => runOptions around o

/-! ### What can be seen -/

/-- The level of the log that a command line asks for; it is the usual one if it asks for none. -/
def levelOf (arguments : List String) : Level :=
  match Options.parse arguments with
  | .ok (.run o) => (level? o.logLevel).getD .info
  | _ => .info

/-- What events write to the output and to the errors.  A record is shown if it is grave enough, with
the secrets known up to then hidden. -/
def written (least : Level) : SecretSet → List Event → String × String
  | _, [] => ("", "")
  | secrets, e :: es =>
    match e with
    | .learned s => written least (secrets.add s) es
    | .answered text =>
      let (out, err) := written least secrets es
      (text ++ out, err)
    | .told text =>
      let (out, err) := written least secrets es
      (out, text ++ err)
    | .logged r =>
      let (out, err) := written least secrets es
      if least.shownAt r.level then (out, r.line (secrets.redact r.message) ++ err) else (out, err)
    | _ => written least secrets es

/-- How a run ended: with a status, or with a failure that it did not report. -/
inductive Ending where
  | exit (status : Nat)
  | escaped (failure : Escape)

structure Transcript where
  ending : Ending
  output : String
  errors : String
  system : System

def transcript (around : Surroundings) (arguments : List String) (start : System) : Transcript :=
  let o := run around arguments start
  let (output, errors) := written (levelOf arguments) {} o.events
  let ending : Ending := match o.result with
    | .ok () => .exit 0
    | .error (.exit status) => .exit status
    | .error (.escaped f) => .escaped f
  ⟨ending, output, errors, o.state⟩

end SecretForge.CommandLine
