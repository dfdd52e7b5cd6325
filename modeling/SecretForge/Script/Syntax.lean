import SecretForge.Text.Octets

/-!
# The command language: what is written

Commands are written in the language of the usual shell.  A word is a list of parts, because what a
character means depends on how it is quoted; a part may hold whole commands whose output takes its
place.  Commands are simple commands, and everything that is built of commands.

* `Part` and `Word`: text, quoted text, and the expansions.
* `Command`: simple commands, lists, pipelines, loops and choices.
-/

namespace SecretForge.Script

open SecretForge.Text

/-- A test on whether a parameter is set; with a colon it is also a test on whether it is empty. -/
inductive Presence where
  /-- The operand stands in for a missing value. -/
  | default
  /-- The operand becomes the value. -/
  | assign
  /-- A missing value is an error that the operand words. -/
  | require
  /-- The operand replaces a value. -/
  | replace
  deriving DecidableEq, Repr

inductive Occurrence where
  | first
  | all
  | atStart
  | atEnd
  deriving DecidableEq, Repr

inductive CaseChange where
  | upper
  | lower
  | toggle
  deriving DecidableEq, Repr

inductive Opening where
  | input
  | output
  | clobber
  | append
  | both
  /-- Output and errors together. -/
  | outputAndErrors
  | appendAndErrors
  /-- A copy of a descriptor for reading, or for writing. -/
  | copyInput
  | copyOutput
  /-- The text of a word and a line end. -/
  | hereString
  /-- The lines that follow. -/
  | hereDocument
  deriving DecidableEq, Repr

/-- What follows a branch of a choice that was taken. -/
inductive After where
  /-- Nothing more of the choice. -/
  | stop
  /-- The next branch. -/
  | fallThrough
  /-- The patterns of the next branches. -/
  | test
  deriving DecidableEq, Repr

mutual

inductive Part where
  /-- Characters written without quotes. -/
  | plain (text : Octets)
  /-- Characters that stand for themselves. -/
  | quoted (text : Octets)
  /-- A part in double quotes. -/
  | enclosed (parts : List Part)
  /-- A parameter. -/
  | parameter (subject : Subject) (change : Change)
  /-- The output of commands. -/
  | output (body : List Command)
  /-- The output of commands that are read only when they are run. -/
  | backquoted (text : Octets)
  /-- The value of an expression. -/
  | arithmetic (expression : List Part)
  /-- A file that holds the output of commands. -/
  | outputFile (body : List Command)
  /-- A parameter that is not written correctly. -/
  | malformed (text : Octets)

/-- What a parameter expansion is about. -/
inductive Subject where
  | variable (name : String)
  | element (name : String) (index : List Part)
  /-- Every element of a variable; joined to one word if `joined`. -/
  | elements (name : String) (joined : Bool)
  | argument (index : Nat)
  | arguments (joined : Bool)
  | special (mark : Char)
  /-- What the value of another subject names. -/
  | indirect (subject : Subject)
  /-- The names of the variables that begin with a text. -/
  | names (start : String)
  /-- The indices of the elements of a variable. -/
  | indices (name : String)

/-- What is done to the value of a parameter. -/
inductive Change where
  | keep
  | length
  | presence (kind : Presence) (colon : Bool) (operand : List Part)
  | dropStart (longest : Bool) (pattern : List Part)
  | dropEnd (longest : Bool) (pattern : List Part)
  | slice (start : List Part) (length : Option (List Part))
  | substitute (which : Occurrence) (pattern replacement : List Part)
  | recase (kind : CaseChange) (all : Bool) (pattern : List Part)
  | transform (operator : Char)

inductive Binding where
  | scalar (name : String) (index : Option (List Part)) (append : Bool) (value : List Part)
  | list (name : String) (append : Bool) (elements : List (Option (List Part) × List Part))

inductive Redirection where
  | mk (descriptor : Option Nat) (opening : Opening) (target : List Part)

/-- A test between double brackets. -/
inductive Condition where
  | word (operand : List Part)
  | unary (operator : String) (operand : List Part)
  | binary (operator : String) (left right : List Part)
  | not (test : Condition)
  | and (left right : Condition)
  | or (left right : Condition)

inductive Command where
  | simple (line : Nat) (bindings : List Binding) (words : List (List Part))
      (redirections : List Redirection)
  | group (body : List Command)
  | subshell (body : List Command)
  | conditional (branches : List (List Command × List Command)) (otherwise : List Command)
  | loop (negated : Bool) (test body : List Command)
  | each (line : Nat) (name : Octets) (words : Option (List (List Part))) (body : List Command)
  | count (line : Nat) (start test step : List Part) (body : List Command)
  | choice (subject : List Part) (branches : List (List (List Part) × List Command × After))
  | arithmetic (line : Nat) (expression : List Part)
  | test (line : Nat) (condition : Condition)
  | define (name : String) (body : Command)
  | redirected (body : Command) (redirections : List Redirection)
  | pipeline (negated : Bool) (stages : List Command)
  | and (first second : Command)
  | or (first second : Command)
  | background (body : Command)

end

abbrev Word := List Part

abbrev Commands := List Command

def text (s : String) : Octets := Octets.ofString s

/-- A text as reports quote it. -/
def ticked (o : Octets) : Octets := '\x60' :: o ++ ['\'']

/-- A part in front of a word; neighbouring plain parts are one. -/
def Part.before : Part → Word → Word
  | .plain a, .plain b :: rest => .plain (a ++ b) :: rest
  | .quoted a, .quoted b :: rest => .quoted (a ++ b) :: rest
  | p, w => p :: w

def beginsName (c : Char) : Bool := c.isAlpha || c = '_'

def inName (c : Char) : Bool := c.isAlphanum || c = '_'

def isName : List Char → Bool
  | [] => false
  | c :: cs => beginsName c && cs.all inName

end SecretForge.Script
