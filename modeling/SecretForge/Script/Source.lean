import SecretForge.Script.Syntax

/-!
# The command language: a text being read

Commands are read from the front of a text, one line after the other, and a fault in the text is told
with the line it stands on.  Quotes, brackets and expansions enclose a stretch of the text; its end is
found by skipping the stretches that it encloses in turn.

* `Scan` is a step of reading, `Source` what it reads from.
* `enclosed` finds the end of a stretch.
-/

namespace SecretForge.Script

open SecretForge.Text

inductive Fault where
  /-- A token stands where it cannot. -/
  | unexpected (line : Nat) (token source : Octets)
  /-- The text ends inside a command. -/
  | ended (line : Nat)
  /-- A quote or bracket is not closed. -/
  | unmatched (line : Nat) (mark : Char)
  /-- A test between double brackets is not well formed. -/
  | condition (line : Nat) (message token source : Octets)
  /-- The text is nested too deeply. -/
  | nested
  deriving DecidableEq, Repr

structure Source where
  rest : Octets
  line : Nat := 1
  /-- The lines that were taken out after the line being read. -/
  skipped : Nat := 0
  /-- The lines of the text, as reports show them. -/
  lines : List Octets := []
  /-- What is noted about the text, the last note first. -/
  notes : List Octets := []

/-- A text to read from its start.  Its last line is ended if it is not. -/
def Source.ofText (text : Octets) : Source :=
  let (lines, _) := Octets.lines text
  { rest := if text.getLast? = some '\n' then text else text ++ ['\n'], lines }

abbrev Scan := StateT Source (Except Fault)

namespace Scan

def fail {α : Type} (f : Fault) : Scan α := throw f

def rest : Scan Octets := return (← get).rest

/-- A part of the text is passed over. -/
def pass (n : Nat) : Scan Unit := modify fun s =>
  let ends := (s.rest.take n).count '\n'
  { s with
    rest := s.rest.drop n
    line := s.line + ends + (if ends = 0 then 0 else s.skipped)
    skipped := if ends = 0 then s.skipped else 0 }

def reading {α : Type} (text : Octets) (x : Scan α) : Scan α := do
  let s ← get
  set { s with rest := text }
  let a ← x
  let t ← get
  set { s with notes := t.notes }
  return a

/-- The line being read, as a report shows it. -/
def sourceLine : Scan Octets := return let s := (← (get : Scan Source)); s.lines.getD (s.line - 1) []

end Scan

/-- A stretch that is put in front of one found. -/
def extend (front : Octets) : Except Char (Octets × Octets) → Except Char (Octets × Octets) :=
  Except.map fun (text, rest) => (front ++ text, rest)

/-- The text up to a closing mark and the text after it, or the innermost mark that is not closed.
Quotes and expansions inside are passed over whole; `singles` tells whether a single quote opens a
quotation here. -/
def enclosed : Nat → Bool → Char → Octets → Except Char (Octets × Octets)
  | 0, _, close, _ => .error close
  | _, _, close, [] => .error close
  | n + 1, singles, close, c :: cs =>
    let within (front : Octets) (inner : Bool) (mark : Char) (text : Octets) :=
      match enclosed n inner mark text with
      | .error m => .error m
      | .ok (text, rest) => extend (front ++ text ++ [mark]) (enclosed n singles close rest)
    if c = close then .ok ([], cs)
    else match c, cs with
      | '\\', d :: ds => extend ['\\', d] (enclosed n singles close ds)
      | '\'', _ =>
        if singles then
          match cs.dropWhile (· ≠ '\'') with
          | [] => .error '\''
          | _ :: rest =>
            extend ('\'' :: cs.takeWhile (· ≠ '\'') ++ ['\'']) (enclosed n singles close rest)
        else extend ['\''] (enclosed n singles close cs)
      | '"', _ => within ['"'] false '"' cs
      | '\x60', _ => within ['\x60'] false '\x60' cs
      | '$', '{' :: ds => within ['$', '{'] singles '}' ds
      | '$', '(' :: ds => within ['$', '('] true ')' ds
      | '(', _ => if close = ')' then within ['('] true ')' cs
        else extend ['('] (enclosed n singles close cs)
      | _, _ => extend [c] (enclosed n singles close cs)

/-- The stretch up to a closing mark; the mark is passed over too. -/
def Scan.enclosed (singles : Bool) (close : Char) : Scan Octets := do
  let s ← get
  match Script.enclosed (s.rest.length + 1) singles close s.rest with
  | .error mark => Scan.fail (.unmatched s.line mark)
  | .ok (text, _) =>
    Scan.pass (text.length + 1)
    return text

end SecretForge.Script
