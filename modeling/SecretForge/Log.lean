/-!
# Log records

A record says how grave it is, which part of the tool speaks, and a message.  A run keeps its records
in order; what is shown of them depends on the level asked for.

* `Level.number` orders the levels.
* `Record.line` is a record as it is written to the terminal.
-/

namespace SecretForge

/-- How grave a record is. -/
inductive Level where
  | debug
  | info
  | warning
  | error
  | critical
  deriving DecidableEq, Repr, Inhabited

namespace Level

/-- Every level, from the least grave to the gravest. -/
def all : List Level := [.debug, .info, .warning, .error, .critical]

/-- The number of a level; a graver level has the greater one. -/
def number : Level → Nat
  | .debug => 10
  | .info => 20
  | .warning => 30
  | .error => 40
  | .critical => 50

def name : Level → String
  | .debug => "DEBUG"
  | .info => "INFO"
  | .warning => "WARNING"
  | .error => "ERROR"
  | .critical => "CRITICAL"

/-- Whether a record of this level is shown when `least` is asked for. -/
def shownAt (least level : Level) : Bool := least.number ≤ level.number

end Level

/-- The part of the tool that speaks. -/
inductive Origin where
  | commandLine
  | config
  | server
  | dryRun
  | expansion
  | command
  | update
  deriving DecidableEq, Repr

/-- The name under which a part of the tool speaks, without the name of the tool. -/
def Origin.name : Origin → String
  | .commandLine => "cli.main"
  | .config => "secrets.domains.config_loader"
  | .server => "secrets.domains.gcp_client"
  | .dryRun => "secrets.domains.store"
  | .expansion => "secrets.workflows.expansion"
  | .command => "secrets.workflows.commands"
  | .update => "secrets.workflows.update"

structure Record where
  level : Level
  origin : Origin
  message : String
  deriving DecidableEq, Repr

/-- A record as a line of the terminal, with the message as it is shown. -/
def Record.line (r : Record) (shown : String) : String :=
  s!"{r.level.name} ci_secret_generator.{r.origin.name}: {shown}\n"

end SecretForge
