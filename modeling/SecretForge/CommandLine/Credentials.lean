import SecretForge.Json.Read
import SecretForge.Json.Value
import SecretForge.TextFile
import SecretForge.Trace

/-!
# Credentials

The key file of a service account is a JSON object.  Its whole text is a secret as soon as it is read,
even if it turns out to be no key file, and so are the keys in it.
-/

namespace SecretForge.CommandLine

/-- The entries of a key file. -/
abbrev Credentials := List (CodePoints × Json)

inductive CredentialsFault where
  /-- The path leads to no file. -/
  | unreadable (path : String) (fault : FileFault) (tidy : String)
  | zeroInPath
  /-- The file holds no text. -/
  | notText (fault : Text.Utf8.Fault)
  | empty (path : String)
  | notJson (path text : String) (fault : Json.Fault)
  | notAnObject (path : String)
  /-- A key has no text. -/
  | key (fault : Number.IntegerFault)

def secretKeys : List String := ["private_key", "private_key_id"]

/-- The value under a key of credentials, unless there is none or it counts as empty. -/
def Credentials.find? (c : Credentials) (key : String) : Option Json :=
  (Json.find? (codePoints key) c).filter fun v => !v.layer.isEmpty

/-- The text of a key file without the blanks around it. -/
def credentialsText (fs : Files) (path : String) : Except CredentialsFault String :=
  match readText fs path with
  | .error (.file f tidy) => .error (.unreadable path f tidy)
  | .error .zeroInPath => .error .zeroInPath
  | .error (.notText f) => .error (.notText f)
  | .ok text =>
    let text := Text.trim text
    if text.isEmpty then .error (.empty path) else .ok text

def credentialsOf (path text : String) : Except CredentialsFault Credentials :=
  match Json.parse text with
  | .error f => .error (.notJson path text f)
  | .ok (.object entries) => .ok entries
  | .ok _ => .error (.notAnObject path)

def keyTexts (c : Credentials) : Except CredentialsFault (List String) :=
  (secretKeys.filterMap c.find?).mapM fun v => (Layered.plain v).mapError .key

/-- The credentials at a path.  What is read is made known as secret before anything else is done with
it. -/
def readCredentials {σ : Type} (fs : Files) (path : String) :
    Act σ CredentialsFault Credentials := do
  let text ← Act.ofExcept (credentialsText fs path)
  Act.emit (.learned text)
  let credentials ← Act.ofExcept (credentialsOf path text)
  let keys ← Act.ofExcept (keyTexts credentials)
  keys.forM fun key => Act.emit (.learned key)
  return credentials

end SecretForge.CommandLine
