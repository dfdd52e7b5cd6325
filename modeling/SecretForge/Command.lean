import SecretForge.Text.Quoted
import SecretForge.Trace

/-!
# Generator commands

The value of an entry is what its command writes when a shell runs it, errors included.  A command
that ends with a status other than zero, or that cannot be run, has failed and yields no value.

* `Shell` is what runs a command; its answers may depend on a state.
* `execute` is one run with its trace.
-/

namespace SecretForge

/-- A failed command: what it wrote, and its status if it was run.  A status below zero is the number
of the signal that ended it. -/
structure CommandFailure where
  command : String
  output : String := ""
  status : Option Int := none
  deriving DecidableEq, Repr

def CommandFailure.message (f : CommandFailure) : String :=
  let status := match f.status with
    | some n => toString n
    | none => "None"
  s!"command {Text.Quoted.text f.command} failed (exit code {status}), output- {f.output}"

inductive ShellAnswer where
  /-- The command ended with a status. -/
  | ended (output : List UInt8) (status : Int)
  /-- The command could not be run. -/
  | notRun (reason : String)
  /-- The user broke the command off. -/
  | interrupted
  deriving DecidableEq, Repr

/-- What runs commands, with a state in `σ`. -/
structure Shell (σ : Type) where
  run : String → σ → ShellAnswer × σ

/-- A shell whose answers depend on the command alone. -/
def Shell.ofAnswers {σ : Type} (answer : String → ShellAnswer) : Shell σ where
  run command s := (answer command, s)

/-- A shell that works on a part of a larger state. -/
def Shell.within {σ τ : Type} (part : τ → σ) (put : σ → τ → τ) (shell : Shell σ) : Shell τ where
  run command t :=
    let (answer, s) := shell.run command (part t)
    (answer, put s t)

def ShellAnswer.value (command : String) :
    ShellAnswer → Except (Stop CommandFailure) (List UInt8)
  | .ended output status =>
    if status = 0 then .ok output
    else .error (.failed ⟨command, Text.Utf8.decodeReplacing output, some status⟩)
  | .notRun reason => .error (.failed ⟨command, reason, none⟩)
  | .interrupted => .error .interrupted

def execute {σ : Type} (shell : Shell σ) (command : String) :
    Act σ (Stop CommandFailure) (List UInt8) := do
  Act.log .debug .command s!"Running: {command}"
  Act.emit (.ran command)
  let s ← Act.get
  let (answer, t) := shell.run command s
  Act.set t
  Act.ofExcept (answer.value command)

end SecretForge
