import SecretForge.Script.Condition

/-!
# The command language: reading commands

Commands are read one unit at a time, a unit being what stands up to the end of a line that ends a
command: the units before a fault are run before the fault is found.

* `readCommands` reads the body of a construct, up to the word or operator that closes it.
* `readCommand` reads one command, `readStatement` commands joined by operators.
* `readUnit` reads one unit.
-/

namespace SecretForge.Script

open SecretForge.Text

/-! ### Commands -/

/-- The name of a function whose definition starts here: a plain word and an opening parenthesis. -/
def definedName? (cs : Octets) : Option (Octets × Nat) :=
  let name := cs.takeWhile fun c => !isBreak c
  let special (c : Char) := c = '$' || c = '"' || c = '\'' || c = '\x60' || c = '=' || c = '\\'
  if name.isEmpty || name.any special then none
  else
    let after := cs.drop name.length
    let blanks := (after.takeWhile fun c => c = ' ' || c = '\t').length
    match after.drop blanks with
    | '(' :: _ => some (name, name.length + blanks + 1)
    | _ => none

mutual

/-- The commands of a body, up to what closes it. -/
def readCommands : Nat → Scan Commands
  | 0 => Scan.fail .nested
  | n + 1 => do
    skipLines (n + 1)
    if ← atCloser then return []
    else
      let c ← readStatement n
      skipBlanks
      match ← Scan.rest with
      | ';' :: ';' :: _ => return [c]
      | ';' :: '&' :: _ => return [c]
      | ';' :: _ | '\n' :: _ =>
        Scan.pass 1
        return c :: (← readCommands n)
      | '&' :: _ =>
        Scan.pass 1
        return .background c :: (← readCommands n)
      | _ => return [c]

def readBody : Nat → Scan Commands
  | 0 => Scan.fail .nested
  | n + 1 => do
    let body ← readCommands n
    if body.isEmpty then unexpected else return body

def readStatement : Nat → Scan Command
  | 0 => Scan.fail .nested
  | n + 1 => do
    let first ← readPipeline n
    readJoined n first

/-- What is joined to a command on its right. -/
def readJoined : Nat → Command → Scan Command
  | 0, _ => Scan.fail .nested
  | n + 1, first => do
    skipBlanks
    match ← Scan.rest with
    | '&' :: '&' :: _ =>
      Scan.pass 2
      skipLines (n + 1)
      readJoined n (.and first (← readPipeline n))
    | '|' :: '|' :: _ =>
      Scan.pass 2
      skipLines (n + 1)
      readJoined n (.or first (← readPipeline n))
    | _ => return first

def readPipeline : Nat → Scan Command
  | 0 => Scan.fail .nested
  | n + 1 => do
    skipBlanks
    if (← peekWord) = ['!'] then
      Scan.pass 1
      skipBlanks
      match ← Scan.rest with
      | '\n' :: _ | ';' :: _ | [] => return .pipeline true []
      | _ =>
        match ← readPipeline n with
        | .pipeline negated stages => return .pipeline (!negated) stages
        | c => return .pipeline true [c]
    else
      match ← readStages n with
      | [c] => return c
      | stages => return .pipeline false stages

def readStages : Nat → Scan Commands
  | 0 => Scan.fail .nested
  | n + 1 => do
    let c ← readCommand n
    skipBlanks
    match ← Scan.rest with
    | '|' :: '|' :: _ => return [c]
    | '|' :: '&' :: _ =>
      Scan.pass 2
      skipLines (n + 1)
      return .redirected c [.mk (some 2) .copyOutput [.plain ['1']]] :: (← readStages n)
    | '|' :: _ =>
      Scan.pass 1
      skipLines (n + 1)
      return c :: (← readStages n)
    | _ => return [c]

def readCommand : Nat → Scan Command
  | 0 => Scan.fail .nested
  | n + 1 => do
    skipBlanks
    let s ← get
    let word ← peekWord
    match s.rest with
    | [] => unexpected
    | '(' :: '(' :: cs =>
      match enclosed (cs.length + 1) true ')' cs with
      | .ok (text, ')' :: _) =>
        let e ← Scan.reading text (readParts (readCommands n) n (.operand true))
        Scan.pass (text.length + 4)
        redirectedBy n (.arithmetic s.line e)
      | _ => redirectedBy n (← readConstruct n ['('])
    | '(' :: _ => redirectedBy n (← readConstruct n ['('])
    | _ =>
      if constructs.contains word then redirectedBy n (← readConstruct n word)
      else if word = text "function" then
        Scan.pass word.length
        skipBlanks
        let name ← peekWord
        if name.isEmpty then unexpected
        else
          Scan.pass name.length
          skipBlanks
          match ← Scan.rest with
          | '(' :: _ =>
            Scan.pass 1
            expectOperator ")"
            readDefinition n name
          | _ => readDefinition n name
      else if closers.contains word then unexpected
      else match definedName? s.rest with
        | some (name, length) =>
          Scan.pass length
          expectOperator ")"
          readDefinition n name
        | none =>
          match redirection? s.rest with
          | some _ => readSimple (readCommands n) s.line n [] [] [] []
          | none =>
            match s.rest with
            | c :: _ =>
              if isBreak c && !(startsWith (text "<(") s.rest || startsWith (text ">(") s.rest) then
                unexpected
              else readSimple (readCommands n) s.line n [] [] [] []
            | [] => unexpected
where
  /-- The words that begin a construct. -/
  constructs : List Octets :=
    ["if", "while", "until", "for", "case", "\x7b", "[["].map text

def redirectedBy : Nat → Command → Scan Command
  | 0, _ => Scan.fail .nested
  | n + 1, c => do
    match ← readRedirections (readCommands n) (n + 1) with
    | [] => return c
    | rs => return .redirected c rs

def readDefinition : Nat → Octets → Scan Command
  | 0, _ => Scan.fail .nested
  | n + 1, name => do
    skipLines (n + 1)
    match ← Scan.rest with
    | '(' :: _ => return .define (String.ofList name) (← readCommand n)
    | _ =>
      if (["if", "while", "until", "for", "case", "\x7b", "[["].map text).contains (← peekWord) then
        return .define (String.ofList name) (← readCommand n)
      else unexpected

def readConstruct : Nat → Octets → Scan Command
  | 0, _ => Scan.fail .nested
  | n + 1, word => do
    let line := (← get).line
    Scan.pass word.length
    match String.ofList word with
    | "(" =>
      let body ← readBody n
      expectOperator ")"
      return .subshell body
    | "\x7b" =>
      let body ← readBody n
      expectWord "\x7d"
      return .group body
    | "[[" =>
      let c ← readEither (readCommands n) n
      skipLines (n + 1)
      if (← peekWord) = text "]]" then
        Scan.pass 2
        return .test line c
      else unexpected
    | "if" => readBranches n []
    | "while" => readLoop n false
    | "until" => readLoop n true
    | "case" =>
      let subject ← readWord (readCommands n) n
      skipLines (n + 1)
      expectWord "in"
      return .choice subject (← readClauses n)
    | _ => readFor n line

/-- The branches of a choice by tests, after those already read, the last first. -/
def readBranches : Nat → List (Commands × Commands) → Scan Command
  | 0, _ => Scan.fail .nested
  | n + 1, branches => do
    let test ← readBody n
    expectWord "then"
    let body ← readBody n
    let branches := (test, body) :: branches
    skipBlanks
    let word ← peekWord
    if word = text "elif" then
      Scan.pass 4
      readBranches n branches
    else if word = text "else" then
      Scan.pass 4
      let otherwise ← readBody n
      expectWord "fi"
      return .conditional branches.reverse otherwise
    else
      expectWord "fi"
      return .conditional branches.reverse []

def readLoop : Nat → Bool → Scan Command
  | 0, _ => Scan.fail .nested
  | n + 1, negated => do
    let test ← readBody n
    expectWord "do"
    let body ← readBody n
    expectWord "done"
    return .loop negated test body

/-- The body of a loop over words or numbers. -/
def readDone : Nat → Scan Commands
  | 0 => Scan.fail .nested
  | n + 1 => do
    skipLines (n + 1)
    if (← peekWord) = ['{'] then
      Scan.pass 1
      let body ← readBody n
      expectWord "\x7d"
      return body
    else
      expectWord "do"
      let body ← readBody n
      expectWord "done"
      return body

/-- The rest of a loop over words or numbers. -/
def readFor : Nat → Nat → Scan Command
  | 0, _ => Scan.fail .nested
  | n + 1, line => do
    skipBlanks
    match ← Scan.rest with
    | '(' :: '(' :: cs =>
      match enclosed (cs.length + 1) true ')' cs with
      | .ok (text, ')' :: _) =>
        Scan.pass (text.length + 4)
        let expression (t : Octets) : Scan Word :=
          Scan.reading t (readParts (readCommands n) n (.operand true))
        let (start, rest) := splitAtMark ';' text
        let (test, step) := splitAtMark ';' (rest.getD [])
        let start ← expression start
        let test ← expression test
        let step ← expression (step.getD [])
        skipBlanks
        match ← Scan.rest with
        | ';' :: _ =>
          Scan.pass 1
          return .count line start test step (← readDone n)
        | _ => return .count line start test step (← readDone n)
      | _ => unexpected
    | c :: _ =>
      if isBreak c then unexpected
      else
        let name ← peekWord
        Scan.pass name.length
        skipLines (n + 1)
        if (← peekWord) = text "in" then
          Scan.pass 2
          let words ← readWords (readCommands n) n
          skipBlanks
          match ← Scan.rest with
          | ';' :: _ | '\n' :: _ =>
            Scan.pass 1
            return .each line name (some words) (← readDone n)
          | _ => unexpected
        else
          match ← Scan.rest with
          | ';' :: _ =>
            Scan.pass 1
            return .each line name none (← readDone n)
          | _ => return .each line name none (← readDone n)
    | [] => unexpected

/-- The clauses of a choice by patterns, up to its end. -/
def readClauses : Nat → Scan (List (List Word × Commands × After))
  | 0 => Scan.fail .nested
  | n + 1 => do
    skipLines (n + 1)
    if (← peekWord) = text "esac" then
      Scan.pass 4
      return []
    else
      match ← Scan.rest with
      | '(' :: _ => Scan.pass 1
      | _ => pure ()
      let patterns ← readPatterns n
      let body ← readCommands n
      skipLines (n + 1)
      match ← Scan.rest with
      | ';' :: ';' :: '&' :: _ =>
        Scan.pass 3
        return (patterns, body, .test) :: (← readClauses n)
      | ';' :: ';' :: _ =>
        Scan.pass 2
        return (patterns, body, .stop) :: (← readClauses n)
      | ';' :: '&' :: _ =>
        Scan.pass 2
        return (patterns, body, .fallThrough) :: (← readClauses n)
      | _ =>
        expectWord "esac"
        return [(patterns, body, .stop)]

/-- The patterns of a clause, up to the parenthesis after them. -/
def readPatterns : Nat → Scan (List Word)
  | 0 => Scan.fail .nested
  | n + 1 => do
    let w ← readWord (readCommands n) n
    skipBlanks
    match ← Scan.rest with
    | '|' :: _ =>
      Scan.pass 1
      return w :: (← readPatterns n)
    | ')' :: _ =>
      Scan.pass 1
      return [w]
    | _ => unexpected

end

/-! ### Units -/

def readLine : Nat → Scan Commands
  | 0 => Scan.fail .nested
  | n + 1 => do
    let c ← readStatement n
    skipBlanks
    match ← Scan.rest with
    | '\n' :: _ =>
      Scan.pass 1
      return [c]
    | ';' :: cs =>
      if cs.head? = some ';' || cs.head? = some '&' then unexpected
      else
        Scan.pass 1
        continued n c
    | '&' :: _ =>
      Scan.pass 1
      continued n (.background c)
    | [] => return [c]
    | _ => unexpected
where
  /-- The statements after one that was ended. -/
  continued (n : Nat) (c : Command) : Scan Commands := do
    skipBlanks
    match ← Scan.rest with
    | '\n' :: _ =>
      Scan.pass 1
      return [c]
    | [] => return [c]
    | _ => return c :: (← readLine n)

/-- Steps enough to read a text. -/
def stepsFor (text : Octets) : Nat := 12 * text.length + 64

def readUnit (n : Nat) : Scan (Option Commands) := do
  skipLines n
  match ← Scan.rest with
  | [] => return none
  | _ => return some (← readLine n)

end SecretForge.Script
