import SecretForge.Template
import SecretForge.Yaml.Load

/-!
# Reading templates from a config

A config is a list of mappings, one for each template.  A scalar anywhere in it is taken over as its
plain text, so that a number or a date needs no quotes; only a missing value becomes the empty text.
The first entry whose sections have the wrong shape is reported with its index.
-/

namespace SecretForge

open SecretForge.Number

/-- A section of an entry that has the wrong shape. -/
inductive ShapeFault where
  /-- Fields or attachments are no list. -/
  | sections
  /-- Params are no mapping. -/
  | params
  /-- A param's values are no list. -/
  | paramValues (name : String)
  /-- A field or an attachment is no mapping; its quoted text. -/
  | entry (shown : String)
  deriving DecidableEq, Repr

def ShapeFault.message : ShapeFault → String
  | .sections => "fields and attachments must be lists of \x7bname, cmd\x7d"
  | .params => "params must be a mapping of name to a list of values"
  | .paramValues name => s!"param {name} must be a list of values"
  | .entry shown => s!"expected a mapping with name and cmd, got {shown}"

/-- Why a mapping is no template: its shape, or a number in it that has no text. -/
inductive EntryFault where
  | shape (fault : ShapeFault)
  | text (fault : IntegerFault)
  deriving DecidableEq, Repr

variable {ν : Type} [Layered ν]

/-- Whether a value says that there is none. -/
def isNull (v : ν) : Bool := (Layered.layer v).scalar? = some .null

/-- The text that the value under a key gives a template: empty where there is no value, else the
value's plain text. -/
def textUnder (key : String) (entries : List (ν × ν)) : Except EntryFault String :=
  match Layered.under? key entries with
  | none => .ok ""
  | some v => if isNull v then .ok "" else (Layered.plain v).mapError .text

namespace Entry

/-- The entry that a mapping describes. -/
def ofValue (v : ν) : Except EntryFault Entry :=
  match Layered.entries? v with
  | some entries => do
    let name ← textUnder "name" entries
    let cmd ← textUnder "cmd" entries
    return ⟨name, cmd⟩
  | none => do
    let shown ← (Layered.quoted v).mapError .text
    throw (.shape (.entry shown))

end Entry

namespace Template

/-- A param put into the params: a name that is there keeps its place and gets the new values. -/
def putParam {ρ : Type} (params : List (String × ρ)) (name : String) (values : ρ) :
    List (String × ρ) :=
  if params.any (·.1 == name) then
    params.map fun p => if p.1 == name then (p.1, values) else p
  else params ++ [(name, values)]

/-- The value of a section under a key, unless it is absent or empty. -/
def section? (key : String) (entries : List (ν × ν)) : Option ν :=
  (Layered.under? key entries).filter fun v => !(Layered.layer v).isEmpty

/-- The members of a section that must be a list; a section that is absent or empty has none. -/
def sectionItems? (key : String) (entries : List (ν × ν)) : Option (List ν) :=
  match section? key entries with
  | none => some []
  | some v => Layered.items? v

/-- The values that a param ranges over, each as its text; no value stands for none. -/
def paramValues (name : String) (v : ν) : Except EntryFault (List String) :=
  if isNull v then .ok []
  else match Layered.items? v with
    | some vs => vs.mapM fun v => (Layered.plain v).mapError .text
    | none => .error (.shape (.paramValues name))

/-- The params that the entries of a section describe, in order. -/
def paramsOf (entries : List (ν × ν)) : Except EntryFault (List (String × List String)) :=
  entries.foldlM (fun params (k, v) => do
    let name ← (Layered.plain k).mapError .text
    let values ← paramValues name v
    return putParam params name values) []

/-- The params of a mapping, which must be a mapping in it; one that has no such section, or an empty
one, has none. -/
def paramsIn (entries : List (ν × ν)) : Except EntryFault (List (String × List String)) :=
  match section? "params" entries with
  | none => .ok []
  | some v =>
    match Layered.entries? v with
    | some es => paramsOf es
    | none => .error (.shape .params)

/-- The template that the entries of a mapping describe. -/
def ofEntries (entries : List (ν × ν)) : Except EntryFault (Template (List String)) := do
  match sectionItems? "fields" entries, sectionItems? "attachments" entries with
  | some fields, some attachments =>
    let params ← paramsIn entries
    let name ← textUnder "item_name" entries
    let fields ← fields.mapM Entry.ofValue
    let attachments ← attachments.mapM Entry.ofValue
    let password ← textUnder "password" entries
    let notes ← textUnder "notes" entries
    return { name, fields, attachments, password, notes, params }
  | _, _ => throw (.shape .sections)

end Template

/-- Why a config text has no templates. -/
inductive ConfigFault where
  /-- The text is no well-formed document. -/
  | unreadable (source : String)
  /-- The document is empty. -/
  | empty (source : String)
  /-- The document is no list. -/
  | notAList (source : String)
  /-- A member of the list is no mapping; its kind in words. -/
  | notAMapping (index : Nat) (kind : String)
  /-- A section of a member has the wrong shape. -/
  | shape (index : Nat) (fault : ShapeFault)
  deriving DecidableEq, Repr

def ConfigFault.message : ConfigFault → String
  | .unreadable source =>
    s!"Failed to parse YAML config at {source}: {Yaml.Fault.malformed.message}"
  | .empty source => s!"Config file at {source} is empty"
  | .notAList source =>
    s!"Config at {source} must be a list of items\n"
      ++ "Required format:\n- item_name: my-item\n  fields:\n  - name: token\n"
      ++ "    cmd: generate-token.sh\n  notes: optional notes"
  | .notAMapping index kind => s!"config[{index}]: expected a mapping, got {kind}"
  | .shape index fault => s!"config[{index}]: {fault.message}"

/-- How the reading of a config ends without templates: with a fault of the config, or because a
scalar of it cannot be converted at all. -/
inductive ReadFault where
  | config (fault : ConfigFault)
  | scalar (fault : Yaml.Fault)
  | text (fault : IntegerFault)
  deriving DecidableEq, Repr

namespace Config

variable {ν : Type} [Layered ν]

/-- The templates of the members of a list, the first of which has the given index. -/
def templatesFrom : Nat → List ν → Except ReadFault (List (Template (List String)))
  | _, [] => .ok []
  | index, v :: vs =>
    match Layered.entries? v with
    | none => .error (.config (.notAMapping index (Layered.layer v).kind))
    | some entries =>
      match Template.ofEntries entries with
      | .error (.shape fault) => .error (.config (.shape index fault))
      | .error (.text fault) => .error (.text fault)
      | .ok t => (templatesFrom (index + 1) vs).map (t :: ·)

/-- The templates that a value describes; `source` names it in reports. -/
def ofValue (source : String) (v : ν) : Except ReadFault (List (Template (List String))) :=
  if isNull v then .error (.config (.empty source))
  else match Layered.items? v with
    | none => .error (.config (.notAList source))
    | some vs => templatesFrom 0 vs

/-- The templates of a config text; `source` names it in reports. -/
def parse (text source : String) : Except ReadFault (List (Template (List String))) :=
  match Yaml.load text with
  | .error .malformed => .error (.config (.unreadable source))
  | .error f => .error (.scalar f)
  | .ok g => ofValue source g.top

end Config

end SecretForge
