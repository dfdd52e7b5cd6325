import SecretForge.Command
import SecretForge.Expansion
import SecretForge.Report
import SecretForge.Store

/-!
# Updating a store

The values of an item are set one after the other: its fields, its attachments, its password and its
notes.  A value that a command produces is handed to the store only if the command succeeded; an empty
password or empty notes stand for no value at all.  A failure is reported and the next value is tried.

* `Item.tasks` is what there is to do for an item, in order.
* `perform` does one task, `update` all tasks of a list of items.
* `generate` expands templates and updates the store with their items.
-/

namespace SecretForge

/-- The place of a value that a command produces. -/
inductive Place where
  | field (name : String)
  | attachment (name : String)
  | password
  deriving DecidableEq, Repr

namespace Place

def kind : Place → String
  | .field _ => "field"
  | .attachment _ => "attachment"
  | .password => "password"

def describe : Place → String
  | .field name => s!"field {name}"
  | .attachment name => s!"attachment {name}"
  | .password => "password"

/-- A place in a report, up to the failure that follows. -/
def label : Place → String
  | .field name => s!"field_name: {name}, "
  | .attachment name => s!"attachment_name: {name}, "
  | .password => "password: "

def assign (value : List UInt8) : Place → Assignment
  | .field name => .field name value
  | .attachment name => .attachment name value
  | .password => .password value

end Place

/-- One thing to do for an item. -/
inductive Task where
  /-- To set a place to what a command produces. -/
  | produce (place : Place) (command : String)
  /-- To set the notes. -/
  | annotate (text : String)
  deriving DecidableEq, Repr

def Item.tasks (item : Item) : List Task :=
  item.fields.map (fun e => .produce (.field e.name) e.cmd)
    ++ item.attachments.map (fun e => .produce (.attachment e.name) e.cmd)
    ++ (if item.password.isEmpty then [] else [.produce .password item.password])
    ++ (if item.notes.isEmpty then [] else [.annotate item.notes])

/-- A value that was not set. -/
inductive UpdateFailure where
  /-- Its command failed. -/
  | command (item : String) (place : Place) (failure : CommandFailure)
  /-- The store refused it. -/
  | upload (item : String) (place : Place) (failure : StoreFailure)
  /-- The store refused the notes. -/
  | notes (item : String) (failure : StoreFailure)
  deriving DecidableEq, Repr

def UpdateFailure.message : UpdateFailure → String
  | .command item place failure =>
    s!"item_name: {item}, {place.label}{failure.command} failed: {failure.message}"
  | .upload item place failure =>
    s!"item_name: {item}, {place.label}failed to upload {place.kind}: {failure.message}"
  | .notes item failure => s!"item_name: {item}, failed to update notes: {failure.message}"

section

variable {σ : Type} (shell : Shell σ) (store : Store σ)

def offer (op : Operation) : Act σ Interrupted (Except StoreFailure Unit) := do
  Act.emit (.offered op)
  Act.settle (store.apply op)

/-- One task of the named item, and its failure if it fails. -/
def perform (item : String) : Task → Act σ Interrupted (Option UpdateFailure)
  | .produce place command => do
    Act.log .info .update s!"item {item}: processing {place.describe} (command: {command})"
    match ← Act.settle (execute shell command) with
    | .error failure =>
      Act.log .error .update s!"{command} failed to generate {place.kind}: {failure.message}"
      return some (.command item place failure)
    | .ok output =>
      match ← offer store ⟨item, place.assign output⟩ with
      | .ok () => return none
      | .error failure =>
        Act.log .error .update
          s!"item {item}: failed to upload {place.describe}: {failure.message}"
        return some (.upload item place failure)
  | .annotate text => do
    Act.log .info .update s!"item {item}: adding notes"
    match ← offer store ⟨item, .notes text⟩ with
    | .ok () => return none
    | .error failure =>
      Act.log .error .update s!"item {item}: failed to update notes: {failure.message}"
      return some (.notes item failure)

/-- Tasks of the named items, in order, and the failures among them. -/
def performAll : List (String × Task) → Act σ Interrupted (List UpdateFailure)
  | [] => pure []
  | (item, task) :: rest => do
    let failure ← perform shell store item task
    let failures ← performAll rest
    return failure.toList ++ failures

/-- Every task of every item, in order, and the failures among them. -/
def update (items : List Item) : Act σ Interrupted (List UpdateFailure) :=
  performAll shell store (items.flatMap fun item => item.tasks.map fun task => (item.name, task))

/-- What goes wrong in a run. -/
inductive RunFailure where
  /-- Templates that did not expand. -/
  | expansion (failures : List ExpansionFailure)
  /-- A value that was not set. -/
  | value (failure : UpdateFailure)
  deriving DecidableEq, Repr

def RunFailure.message : RunFailure → String
  | .expansion failures =>
    s!"error parsing parameters: {combined (failures.map ExpansionFailure.message)}"
  | .value failure => failure.message

/-- A run: the templates are expanded and the store is updated with every item.  The templates that
did not expand are the first of the failures, as one. -/
def generate {ρ : Type} (range : ρ → Range) (ts : List (Template ρ)) :
    Act σ Interrupted (List RunFailure) := do
  let (items, unexpanded) ← expandAll range ts
  Act.log .info .update s!"Expanded {ts.length} templates into {items.length} items"
  let failures ← update shell store (items.map (·.toItem))
  return (if unexpanded.isEmpty then [] else [.expansion unexpanded])
    ++ failures.map RunFailure.value

end

end SecretForge
