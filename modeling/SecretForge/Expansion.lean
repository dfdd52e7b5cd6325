import SecretForge.Template
import SecretForge.Trace
import SecretForge.Value

/-!
# Expansion of templates

A template stands for one item per combination of values of its params.  The params are applied in
their order, each to every item there is so far, so that the last param varies fastest.

The params of a template that was read from a config range over texts, and such a template always
expands.  Params given in another way may hold any value: one that has no members, or a member that is
no text, makes the expansion of its template fail, and of its template only.

* `Template.expand` is the items of one template.
* `expandAll` is the items of all that expand, and the failures of the others.
-/

namespace SecretForge

/-- A value that a param may take: a text, or a value of a named kind that cannot be part of one. -/
inductive Choice where
  | text (s : String)
  | other (kind : String)
  deriving DecidableEq, Repr

/-- What a param ranges over: its choices in order, or a value of a named kind that has none to
choose from. -/
inductive Range where
  | choices (cs : List Choice)
  | scalar (kind : String)
  deriving DecidableEq, Repr

/-- Why a template does not expand. -/
inductive RangeFault where
  /-- A param's value has no members. -/
  | notIterable (kind : String)
  /-- A choice is no text. -/
  | notText (kind : String)
  deriving DecidableEq, Repr

def RangeFault.message : RangeFault → String
  | .notIterable kind => s!"'{kind}' object is not iterable"
  | .notText kind => s!"replace() argument 2 must be str, not {kind}"

namespace Choice

def text? : Choice → Except RangeFault String
  | .text s => .ok s
  | .other kind => .error (.notText kind)

def ofValue : Value → Choice
  | .text s => .text s
  | .null => .other "None"
  | v => .other v.kind

end Choice

namespace Range

def choices? : Range → Except RangeFault (List Choice)
  | .choices cs => .ok cs
  | .scalar kind => .error (.notIterable kind)

def ofTexts (ts : List String) : Range := .choices (ts.map .text)

/-- What a value ranges over: a list over its members, a mapping over its keys, a text over its
characters. -/
def ofValue : Value → Range
  | .list items => .choices (items.map .ofValue)
  | .map entries => .choices (entries.map fun e => .ofValue e.1)
  | .text s => .choices (s.toList.map fun c => .text c.toString)
  | v => .scalar v.kind

end Range

/-- The items with a param's placeholder replaced by each of its choices. -/
def spread (param : String) (choices : List Choice) (items : List Item) :
    Except RangeFault (List Item) := do
  let parts ← items.mapM fun item => choices.mapM fun c =>
    return item.substitute param (← c.text?)
  return parts.flatten

namespace Template

variable {ρ : Type}

def ranges (range : ρ → Range) (t : Template ρ) :
    Except RangeFault (List (String × List Choice)) :=
  t.params.mapM fun p => return (p.1, ← (range p.2).choices?)

/-- The items of a template, each with the texts its params range over. -/
def expand (range : ρ → Range) (t : Template ρ) :
    Except RangeFault (List (Template (List String))) := do
  let ranges ← t.ranges range
  let items ← ranges.foldlM (fun items p => spread p.1 p.2 items) [t.toItem]
  let params := ranges.map fun p => (p.1, p.2.filterMap fun c => c.text?.toOption)
  return items.map fun item => { item with params }

end Template

structure ExpansionFailure where
  item : String
  fault : RangeFault
  deriving DecidableEq, Repr

def ExpansionFailure.message (f : ExpansionFailure) : String :=
  s!"error copying item {f.item}: {f.fault.message}"

/-- The items of all templates that expand, in order, and the failures of the others. -/
def expandAll {σ ε ρ : Type} (range : ρ → Range) :
    List (Template ρ) → Act σ ε (List (Template (List String)) × List ExpansionFailure)
  | [] => pure ([], [])
  | t :: ts => do
    match t.expand range with
    | .error fault =>
      Act.log .error .expansion s!"Failed to expand item {t.name}: {fault.message}"
      let (items, failures) ← expandAll range ts
      return (items, ⟨t.name, fault⟩ :: failures)
    | .ok expanded =>
      if !t.params.isEmpty then
        Act.log .debug .expansion s!"Expanded {t.name} into {expanded.length} items"
      let (items, failures) ← expandAll range ts
      return (expanded ++ items, failures)

end SecretForge
