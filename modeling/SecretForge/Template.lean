import SecretForge.Text.Search

/-!
# Secret items and their templates

A secret item names the values that one entry of the secret store holds and the shell commands that
produce them.  A template is an item whose texts may contain placeholders `$(param)`, together with
the values over which each param ranges.
-/

namespace SecretForge

/-- A named value produced by running a command. -/
structure Entry where
  name : String := ""
  cmd : String := ""
  deriving DecidableEq, Repr, Inhabited

/-- The values of one secret item: named fields and attachments, a password command and notes. -/
structure Item where
  name : String
  fields : List Entry := []
  attachments : List Entry := []
  password : String := ""
  notes : String := ""
  deriving DecidableEq, Repr, Inhabited

/-- An item with its declared params in order.  `ρ` is what a param declares: a list of texts in a
template that was read from a config. -/
structure Template (ρ : Type) extends Item where
  params : List (String × ρ) := []
  deriving DecidableEq, Repr

/-- The token that marks a param inside a template text. -/
def placeholder (param : String) : String := "$(" ++ param ++ ")"

/-- A text with every placeholder of the param replaced by the value.  The replacement is literal: a
placeholder inside the value stays as it is. -/
def replaceParam (param value text : String) : String :=
  Text.replace (placeholder param) value text

namespace Entry

def mapTexts (f : String → String) (e : Entry) : Entry := ⟨f e.name, f e.cmd⟩

def substitute (param value : String) (e : Entry) : Entry := e.mapTexts (replaceParam param value)

end Entry

namespace Item

def mapTexts (f : String → String) (item : Item) : Item where
  name := f item.name
  fields := item.fields.map (·.mapTexts f)
  attachments := item.attachments.map (·.mapTexts f)
  password := f item.password
  notes := f item.notes

def substitute (param value : String) (item : Item) : Item :=
  item.mapTexts (replaceParam param value)

end Item

namespace Template

variable {ρ : Type}

/-- The template with the param's placeholder replaced by the value; its params are kept. -/
def substitute (param value : String) (t : Template ρ) : Template ρ :=
  { t with toItem := t.toItem.substitute param value }

end Template

end SecretForge
