import SecretForge.Template
import SecretForge.Yaml.Render

/-!
# Writing templates as a config

A template as a mapping in which empty sections are left out, and the text of a config that holds
templates.
-/

namespace SecretForge

/-- The entry as a mapping; an empty text is left out. -/
def Entry.toTree (e : Entry) : Tree :=
  .map ((if e.name.isEmpty then [] else [("name", .text e.name)])
    ++ (if e.cmd.isEmpty then [] else [("cmd", .text e.cmd)]))

namespace Template

/-- A list of entries as a section, if there are any. -/
def sectionTree (key : String) (es : List Entry) : List (String × Tree) :=
  if es.isEmpty then [] else [(key, .list (es.map Entry.toTree))]

/-- A text as a section, unless it is empty. -/
def textTree (key s : String) : List (String × Tree) := if s.isEmpty then [] else [(key, .text s)]

def paramsTree (params : List (String × List String)) : List (String × Tree) :=
  if params.isEmpty then []
  else [("params", .map (params.map fun p => (p.1, .list (p.2.map .text))))]

def toEntries (t : Template (List String)) : List (String × Tree) :=
  ("item_name", .text t.name) :: sectionTree "fields" t.fields
    ++ sectionTree "attachments" t.attachments ++ textTree "password" t.password
    ++ textTree "notes" t.notes ++ paramsTree t.params

def toTree (t : Template (List String)) : Tree := .map t.toEntries

end Template

def Config.dump (ts : List (Template (List String))) : String :=
  Yaml.render (.list (ts.map Template.toTree))

end SecretForge
