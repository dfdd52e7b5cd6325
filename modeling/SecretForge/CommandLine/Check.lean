import SecretForge.CommandLine.Options
import SecretForge.Log
import SecretForge.Text.Blank

/-!
# Checks of the options

What the options ask for is checked before anything is read: the level of the log, the paths that have
to be given, and the number of requests at a time.
-/

namespace SecretForge.CommandLine

def levelNames : List String := Level.all.map fun l => Text.lowerAscii l.name

/-- The level that a text names, in either case. -/
def level? (text : String) : Option Level :=
  Level.all.find? fun l => Text.lowerAscii l.name == Text.lowerAscii text

/-- Why the options are refused. -/
inductive OptionFault where
  /-- A level that is none; a missing one is named so. -/
  | level (text : String)
  | noCredentials
  | noConfig
  | concurrency (n : Int)
  deriving DecidableEq, Repr

def OptionFault.report : OptionFault → String
  | .level text =>
    s!"Error: invalid log level specified: '{text}'\n\nLog level is one of "
      ++ String.intercalate ", " levelNames ++ "\n"
  | .noCredentials => "Error: --credentials-path is empty\n"
  | .noConfig =>
    "Error: --config is empty\n\nPass the YAML item config with --config <path>\n"
  | .concurrency n => s!"Error: --concurrency must be at least 1, got {n}\n"

def checkLevel (text : String) : Except OptionFault Level :=
  match level? text with
  | some l => .ok l
  | none => .error (.level text)

def checkOptions (o : Options) : Except OptionFault Unit :=
  if o.credentialsPath.isEmpty then .error .noCredentials
  else if o.config.isEmpty then .error .noConfig
  else if o.concurrency < 1 then .error (.concurrency o.concurrency)
  else .ok ()

end SecretForge.CommandLine
