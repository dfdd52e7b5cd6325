import SecretForge.Log
import SecretForge.Text.Blank
import SecretForge.Text.Search

/-!
# Redaction

The secrets known so far are a set of texts without blanks around them.  Before a record is shown,
every occurrence of a secret in it is replaced by a mask.  Longer secrets are replaced first, so that
one which contains another is hidden as a whole.

* `SecretSet.redact` hides the secrets of a text.
* `Draft` is a record on its way to the terminal; `shownBy` is what each of several handlers shows of
  it.  They share the draft, so that each redacts what the one before it left.
-/

namespace SecretForge

/-- What is shown in place of a secret. -/
def mask : String := "***REDACTED***"

/-- The secrets known so far: distinct texts, none of them empty or with blanks around it. -/
structure SecretSet where
  values : List String := []
  deriving DecidableEq, Repr

namespace SecretSet

/-- The set with a text as one more secret; blanks around it do not count, and an empty text is no
secret. -/
def add (s : SecretSet) (text : String) : SecretSet :=
  let value := Text.trim text
  if value.isEmpty || s.values.contains value then s else ⟨s.values ++ [value]⟩

def ofTexts (texts : List String) : SecretSet := texts.foldl add {}

/-- Whether a text is a known secret. -/
def contains (s : SecretSet) (text : String) : Bool := s.values.contains text

def size (s : SecretSet) : Nat := s.values.length

def longestFirst (s : SecretSet) : List String :=
  s.values.mergeSort fun a b => b.length ≤ a.length

/-- The text with a mask in place of every secret. -/
def redact (s : SecretSet) (text : String) : String :=
  s.longestFirst.foldl (fun text value => Text.replace value mask text) text

end SecretSet

/-- A record on its way to the terminal: its message, and the text of the failure it reports. -/
structure Draft where
  level : Level
  message : String
  failure : Option String := none
  deriving DecidableEq, Repr

/-- The text of a failure in a record: its name, and what it says, if anything. -/
def failureText (name message : String) : String :=
  if message.isEmpty then name else name ++ ": " ++ message

namespace Draft

def redact (secrets : SecretSet) (d : Draft) : Draft :=
  { d with message := secrets.redact d.message, failure := d.failure.map secrets.redact }

/-- What a handler shows of a draft: its level and its message, and on a line of its own the
failure. -/
def shown (d : Draft) : String :=
  let line := d.level.name ++ " " ++ d.message
  match d.failure with
  | none => line ++ "\n"
  | some text => line ++ (if line.toList.getLast? = some '\n' then "" else "\n") ++ text ++ "\n"

/-- What each of `n` handlers shows of a draft that they hand on, each after redacting it if there are
secrets to hide. -/
def shownBy (secrets : Option SecretSet) : Nat → Draft → List String
  | 0, _ => []
  | n + 1, d =>
    let d := match secrets with
      | some s => d.redact s
      | none => d
    d.shown :: shownBy secrets n d

end Draft

end SecretForge
