import SecretForge.Store
import SecretForge.Yaml.Render

/-!
# Dry runs

A dry run carries nothing out: each operation is written to an output as one YAML document, so that
the whole run can be reviewed before it is done in earnest.  Bytes that are no text are spelled out.
-/

namespace SecretForge.DryRun

structure Output where
  name : String
  written : String := ""
  closed : Bool := false
  deriving DecidableEq, Repr

/-- What an assignment sets, as the entries of a document. -/
def details : Assignment → List (String × Tree)
  | .field name value => [("field", .text name), ("value", .text (Text.Utf8.decodeEscaping value))]
  | .attachment name value =>
    [("attachment", .text name), ("value", .text (Text.Utf8.decodeEscaping value))]
  | .password value => [("value", .text (Text.Utf8.decodeEscaping value))]
  | .notes text => [("notes", .text text)]

def describe (op : Operation) : Tree :=
  .map (("operation", .text op.assignment.call) :: ("item_name", .text op.item)
    :: details op.assignment)

def document (op : Operation) : String := "---\n" ++ Yaml.render (describe op)

/-- The store that writes each operation to the output. -/
def store : Store Output where
  apply op := do
    let out ← Act.get
    if out.closed then Act.fail (.failed .closed)
    else Act.set { out with written := out.written ++ document op }
  logout := do
    let out ← Act.get
    Act.set { out with closed := true }
    Act.log .debug .dryRun s!"Dry-run output closed: {out.name}"

end SecretForge.DryRun
