import SecretForge.Script.Word
import SecretForge.Text.Search

/-!
# The command language: tokens

Between words stand blanks, comments, line ends and operators.  A word that is not quoted may be
reserved; it is where a command begins that this matters.

* `skipBlanks` and `skipLines` pass over what separates tokens.
* `unexpected` is the fault of a token that stands where it cannot.
* `atCloser` tells whether the body of a construct ends.
-/

namespace SecretForge.Script

open SecretForge.Text

/-- The text without the blanks, joined lines and comments at its start. -/
def dropBlanks : Octets → Octets
  | ' ' :: cs => dropBlanks cs
  | '\t' :: cs => dropBlanks cs
  | '\\' :: '\n' :: cs => dropBlanks cs
  | '#' :: cs => cs.dropWhile (· ≠ '\n')
  | cs => cs

/-- Blanks, joined lines and comments are passed over. -/
def skipBlanks : Scan Unit := do
  let rest ← Scan.rest
  Scan.pass (rest.length - (dropBlanks rest).length)

/-- Blanks and line ends are passed over. -/
def skipLines : Nat → Scan Unit
  | 0 => return
  | n + 1 => do
    skipBlanks
    match ← Scan.rest with
    | '\n' :: _ =>
      Scan.pass 1
      skipLines n
    | _ => return

/-- The characters up to a break: a reserved word if they are one. -/
def peekWord : Scan Octets := return (← Scan.rest).takeWhile fun c => !isBreak c

/-- The operators, no operator after one that begins it. -/
def operators : List Octets :=
  ["&>>", "<<<", "<<-", ";;&", "&&", "||", ";;", ";&", "&>", "|&", "<<", ">>", "<&", ">&", ">|", "<>",
    "|", "&", ";", "(", ")", "<", ">"].map text

def operator? (cs : Octets) : Option Octets := operators.find? fun op => startsWith op cs

/-- The token at the start of a text, as a report names it. -/
def tokenText (cs : Octets) : Octets :=
  match cs with
  | [] => text "newline"
  | '\n' :: _ => text "newline"
  | _ => (operator? cs).getD (cs.takeWhile fun c => !isBreak c)

/-- The token that comes next is a fault. -/
def unexpected {α : Type} : Scan α := do
  skipBlanks
  let s ← get
  match s.rest with
  | [] => Scan.fail (.ended s.line)
  | cs => Scan.fail (.unexpected s.line (tokenText cs) (← Scan.sourceLine))

def expectWord (word : String) : Scan Unit := do
  skipBlanks
  if (← peekWord) = text word then Scan.pass word.length else unexpected

def expectOperator (op : String) : Scan Unit := do
  skipBlanks
  if startsWith (text op) (← Scan.rest) then Scan.pass op.length else unexpected

/-- The reserved words that close a body or begin its next part. -/
def closers : List Octets :=
  ["then", "else", "elif", "fi", "do", "done", "esac", "\x7d"].map text

/-- Whether the body of a construct ends here. -/
def atCloser : Scan Bool := do
  skipBlanks
  match ← Scan.rest with
  | [] => return true
  | ')' :: _ => return true
  | ';' :: ';' :: _ => return true
  | ';' :: '&' :: _ => return true
  | _ => return closers.contains (← peekWord)

end SecretForge.Script
