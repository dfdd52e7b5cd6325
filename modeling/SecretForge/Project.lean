import SecretForge.Signal
import SecretForge.Text.Blank
import SecretForge.Trace

/-!
# The project

The project whose secrets are written is the one that is given, or else the one that the environment
names, or else the one that the cloud's own command-line tool is set to.  The last is asked for only
if there is nothing before it.
-/

namespace SecretForge.Project

/-- How a program answered that was run without a shell. -/
inductive ProgramAnswer where
  /-- There is no such program. -/
  | missing
  /-- It ended with a status; one below zero is the number of a signal. -/
  | ended (status : Int) (output : String)
  deriving DecidableEq, Repr

/-- The words of the command that asks for the project. -/
def query : List String := ["gcloud", "config", "get-value", "project"]

/-- The command as reports show it. -/
def queryText : String := "[" ++ String.intercalate ", " (query.map fun w => s!"'{w}'") ++ "]"

/-- How a program ended that did not succeed, in words. -/
def endingText (status : Int) : String :=
  if 0 ≤ status then s!"returned non-zero exit status {status}."
  else match Signal.name? status.natAbs with
    | some name => s!"died with <Signals.SIG{name}: {status.natAbs}>."
    | none => s!"died with unknown signal {status.natAbs}."

def failureReport : ProgramAnswer → Option String
  | .missing => some "[Errno 2] No such file or directory: 'gcloud'"
  | .ended status _ =>
    if status = 0 then none else some s!"Command '{queryText}' {endingText status}"

def ask {σ ε : Type} (answer : ProgramAnswer) : Act σ ε (Option String) := do
  match failureReport answer, answer with
  | some report, _ =>
    Act.log .warning .server s!"Failed to auto-detect project_id: {report}"
    return none
  | none, .ended _ output =>
    let project := Text.trim output
    if project.isEmpty then return none
    else
      Act.log .debug .server s!"Using project from gcloud config: {project}"
      return some project
  | none, .missing => return none

/-- The project: the given one, that of the environment, or the one found by asking. -/
def resolve {σ ε : Type} (given named : Option String) (answer : ProgramAnswer) :
    Act σ ε (Option String) := do
  match given.filter (!·.isEmpty), named.filter (!·.isEmpty) with
  | some project, _ => return some project
  | none, some project =>
    Act.log .debug .server s!"Using GCP_PROJECT from environment: {project}"
    return some project
  | none, none => ask answer

end SecretForge.Project
