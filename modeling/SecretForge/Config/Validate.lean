import SecretForge.Template

/-!
# Validation of templates

The rules that a template keeps before it is expanded: it has a name, a named entry has a command,
and every param has a value.  The first rule broken is reported, in the order of the templates and
within a template in the order name, fields, attachments, params.
-/

namespace SecretForge

/-- A list of entries of a template. -/
inductive Section where
  | fields
  | attachments
  deriving DecidableEq, Repr

def Section.name : Section → String
  | .fields => "fields"
  | .attachments => "attachments"

/-- A rule that a template breaks, and where. -/
inductive Violation where
  /-- The template at the index has no name. -/
  | emptyName (index : Nat)
  /-- The entry at a position of a section has a name but no command. -/
  | emptyCmd (index : Nat) (inSection : Section) (position : Nat)
  /-- A param of the named item has no value. -/
  | noValues (param item : String)
  deriving DecidableEq, Repr

def Violation.message : Violation → String
  | .emptyName index => s!"config[{index}].item_name: empty key is not allowed"
  | .emptyCmd index inSection position =>
    s!"config[{index}].{inSection.name}[{position}]: "
      ++ "empty field not allowed for cmd if name is specified"
  | .noValues param item =>
    s!"at least one argument required for param: {param}, item_name: {item}"

def Entry.lacksCmd (e : Entry) : Bool := !e.name.isEmpty && e.cmd.isEmpty

namespace Template

variable {ρ : Type}

/-- The first rule that the template at an index breaks. -/
def violation? (noValue : ρ → Bool) (index : Nat) (t : Template ρ) : Option Violation :=
  if t.name.isEmpty then some (.emptyName index)
  else
    ((t.fields.findIdx? Entry.lacksCmd).map (.emptyCmd index .fields))
      <|> ((t.attachments.findIdx? Entry.lacksCmd).map (.emptyCmd index .attachments))
      <|> ((t.params.find? fun p => noValue p.2).map fun p => .noValues p.1 t.name)

end Template

namespace Config

variable {ρ : Type}

/-- The first rule that the templates break, the first of which has the given index. -/
def violationFrom (noValue : ρ → Bool) : Nat → List (Template ρ) → Option Violation
  | _, [] => none
  | index, t :: ts => (t.violation? noValue index) <|> violationFrom noValue (index + 1) ts

/-- Accepts the templates, or reports the first rule they break. -/
def validate (noValue : ρ → Bool) (ts : List (Template ρ)) : Except Violation Unit :=
  match violationFrom noValue 0 ts with
  | some v => .error v
  | none => .ok ()

end Config

end SecretForge
