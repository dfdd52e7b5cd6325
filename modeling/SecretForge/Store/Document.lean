import SecretForge.Json.Write
import SecretForge.Operation
import SecretForge.Store
import SecretForge.Text.Base64

/-!
# Item documents

The version of a secret holds the values of one item as a JSON object: fields and attachments as
objects of texts, password and notes as texts.  Attachments are in base 64, since they need not be
texts.  Entries that are of no concern here are kept as they are.

* `Document.read` takes a version apart, `Document.write` puts one together.
* `Document.assign` sets one value.
-/

namespace SecretForge

/-- An item document: the entries of a JSON object. -/
abbrev Document := List (CodePoints × Json)

namespace Document

/-- The sections that every document has, with what they hold at first. -/
def sections : Document :=
  [(codePoints "fields", .object []), (codePoints "attachments", .object []),
    (codePoints "password", .ofString ""), (codePoints "notes", .ofString "")]

/-- The document with every section that it lacks. -/
def complete (d : Document) : Document :=
  sections.foldl (fun d e => Json.putNew e.1 e.2 d) d

def read (version : List UInt8) : Except DocumentFault Document :=
  match Text.Utf8.decode version with
  | .error f => .error (.encoding f)
  | .ok text =>
    match Json.parse text with
    | .error f => .error (.notJson text f)
    | .ok (.object entries) => .ok entries
    | .ok _ => .error .noObject

/-- The version that holds a document, with the keys of every object in order. -/
def write (d : Document) : List UInt8 := Text.Utf8.encode (Json.object d).renderSorted

def putUnder (name : String) (text : Json) : Json → Except StoreFailure Json
  | .object entries => .ok (.object (Json.put (codePoints name) text entries))
  | .list _ => .error .listSection
  | .null => .error (.scalarSection "NoneType")
  | .bool _ => .error (.scalarSection "bool")
  | .int _ => .error (.scalarSection "int")
  | .float _ => .error (.scalarSection "float")
  | .text _ => .error (.scalarSection "str")

/-- The document with a text put under a name of a section; a section that is missing is empty. -/
def putIn (part name : String) (text : Json) (d : Document) : Except StoreFailure Document :=
  (putUnder name text ((Json.find? (codePoints part) d).getD (.object []))).map fun v =>
    Json.put (codePoints part) v d

def assign (a : Assignment) (d : Document) : Except StoreFailure Document :=
  match a with
  | .field name value => putIn "fields" name (.ofString (Text.Utf8.decodeReplacing value)) d
  | .attachment name value => putIn "attachments" name (.ofString (Text.Base64.encode value)) d
  | .password value =>
    .ok (Json.put (codePoints "password") (.ofString (Text.Utf8.decodeReplacing value)) d)
  | .notes text => .ok (Json.put (codePoints "notes") (.ofString text) d)

end Document

end SecretForge
