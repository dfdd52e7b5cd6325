import SecretForge.Script.Simple

/-!
# The command language: reading tests between double brackets

Tests are joined by operators of their own and may span lines.  An operand that is missing is told in
words of its own.
-/

namespace SecretForge.Script

open SecretForge.Text

def unaryTests : List Octets :=
  ["-a", "-b", "-c", "-d", "-e", "-f", "-g", "-h", "-k", "-p", "-r", "-s", "-t", "-u", "-w", "-x",
    "-G", "-L", "-N", "-O", "-S", "-o", "-v", "-R", "-z", "-n"].map text

def binaryTests : List Octets :=
  ["=~", "==", "=", "!=", "-eq", "-ne", "-lt", "-le", "-gt", "-ge", "-nt", "-ot", "-ef", "<", ">"].map
    text

/-- A test that is not well formed. -/
def badCondition {α : Type} (message : Octets) : Scan α := do
  let s ← get
  Scan.fail (.condition s.line message (tokenText s.rest) (← Scan.sourceLine))

mutual

def readEither (commands : Scan Commands) : Nat → Scan Condition
  | 0 => Scan.fail .nested
  | n + 1 => do
    let left ← readBoth commands n
    skipLines (n + 1)
    match ← Scan.rest with
    | '|' :: '|' :: _ =>
      Scan.pass 2
      return .or left (← readEither commands n)
    | _ => return left

def readBoth (commands : Scan Commands) : Nat → Scan Condition
  | 0 => Scan.fail .nested
  | n + 1 => do
    let left ← readTest commands n
    skipLines (n + 1)
    match ← Scan.rest with
    | '&' :: '&' :: _ =>
      Scan.pass 2
      return .and left (← readBoth commands n)
    | _ => return left

def readTest (commands : Scan Commands) : Nat → Scan Condition
  | 0 => Scan.fail .nested
  | n + 1 => do
    skipLines (n + 1)
    let word ← peekWord
    match ← Scan.rest with
    | [] => Scan.fail (.ended (← get).line)
    | '(' :: _ =>
      Scan.pass 1
      let inner ← readEither commands n
      skipLines (n + 1)
      match ← Scan.rest with
      | ')' :: _ =>
        Scan.pass 1
        return inner
      | rest => badCondition (text "unexpected token " ++ ticked (tokenText rest)
          ++ text ", expected " ++ ticked [')'])
    | _ =>
      if word = ['!'] then
        Scan.pass 1
        return .not (← readTest commands n)
      else if unaryTests.contains word then
        Scan.pass word.length
        skipBlanks
        if (← peekWord) = text "]]" then
          badCondition (text "unexpected argument " ++ ticked (text "]]")
            ++ text " to conditional unary operator")
        else return .unary (String.ofList word) (← readWord commands n)
      else if word = text "]]" then unexpected
      else
        let left ← readWord commands n
        skipBlanks
        let rest ← Scan.rest
        let op ← match rest with
          | '<' :: _ => pure ['<']
          | '>' :: _ => pure ['>']
          | _ => peekWord
        if binaryTests.contains op then
          Scan.pass op.length
          skipBlanks
          if (← peekWord) = text "]]" then
            badCondition (text "unexpected argument " ++ ticked (text "]]")
              ++ text " to conditional binary operator")
          else if op = text "=~" then
            return .binary "=~" left (← readParts commands n .expression)
          else return .binary (String.ofList op) left (← readWord commands n)
        else if op = text "]]" || startsWith (text "&&") rest || startsWith (text "||") rest
            || startsWith [')'] rest then return .word left
        else if startsWith ['\n'] rest then
          badCondition (text "unexpected token " ++ ticked (text "newline")
            ++ text ", conditional binary operator expected")
        else badCondition (text "conditional binary operator expected")

end

end SecretForge.Script
