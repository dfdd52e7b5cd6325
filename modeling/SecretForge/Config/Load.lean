import SecretForge.Config.Read
import SecretForge.Config.Validate
import SecretForge.TextFile
import SecretForge.Trace

/-!
# Loading a configuration

A configuration file is read, its templates are parsed and then checked.  Only a configuration that
passes is put on record.
-/

namespace SecretForge.Config

inductive LoadFault where
  /-- The path leads to no regular file. -/
  | notFound (path : String)
  /-- The path cannot be looked up. -/
  | file (fault : FileFault) (path : String)
  /-- The file holds no text. -/
  | notText (fault : Text.Utf8.Fault)
  | read (fault : ReadFault)
  | violation (violation : Violation)

def fileText (fs : Files) (path : String) : Except LoadFault String :=
  match readText fs path with
  | .ok text => .ok text
  | .error (.notText f) => .error (.notText f)
  | .error (.file .nameTooLong tidy) => .error (.file .nameTooLong tidy)
  | .error _ => .error (.notFound path)

def load (fs : Files) (path : String) : Except LoadFault (List (Template (List String))) := do
  let text ← fileText fs path
  let ts ← (parse text path).mapError .read
  (validate List.isEmpty ts).mapError .violation
  return ts

/-- A configuration file loaded, with records of its success. -/
def loadLogged {σ : Type} (fs : Files) (path : String) :
    Act σ LoadFault (List (Template (List String))) := do
  let ts ← Act.ofExcept (load fs path)
  Act.log .info .config s!"Configuration loaded successfully from {path}"
  Act.log .debug .config s!"Loaded {ts.length} item templates"
  return ts

end SecretForge.Config
