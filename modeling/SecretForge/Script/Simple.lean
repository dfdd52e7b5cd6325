import SecretForge.Script.Token

/-!
# The command language: reading simple commands

A simple command is made of bindings, words and redirections.  The lines of a here-document are taken
out of the text as soon as its operator is read, so that what follows the operator on its line is read
next.

* `readBinding` and `readRedirection` read one of either, if one starts here.
* `readSimple` reads the rest of a simple command.
-/

namespace SecretForge.Script

open SecretForge.Text

/-- What a text binds, if it begins like a binding: the name, the text of the index, whether the value
is appended, and the length of all that. -/
def binding? (cs : Octets) : Option (String × Option Octets × Bool × Nat) :=
  let name := cs.takeWhile inName
  if !isName name then none
  else
    let (index, after, length) : Option Octets × Octets × Nat := match cs.drop name.length with
      | '[' :: rest =>
        match enclosed (rest.length + 1) true ']' rest with
        | .ok (text, after) => (some text, after, name.length + text.length + 2)
        | .error _ => (none, '[' :: rest, name.length)
      | rest => (none, rest, name.length)
    match after with
    | '=' :: _ => some (String.ofList name, index, false, length + 1)
    | '+' :: '=' :: _ => some (String.ofList name, index, true, length + 2)
    | _ => none

def opening? (op : Octets) : Option Opening :=
  match String.ofList op with
  | "<" => some .input
  | ">" => some .output
  | ">|" => some .clobber
  | ">>" => some .append
  | "<>" => some .both
  | "&>" => some .outputAndErrors
  | "&>>" => some .appendAndErrors
  | "<&" => some .copyInput
  | ">&" => some .copyOutput
  | "<<<" => some .hereString
  | "<<" | "<<-" => some .hereDocument
  | _ => none

/-- The redirection operator at the start of a text with the digits in front of it. -/
def redirection? (cs : Octets) : Option (Option Nat × Octets × Nat) :=
  let digits := cs.takeWhile Char.isDigit
  let after := cs.drop digits.length
  match after with
  | c :: rest =>
    if (c = '<' || c = '>') && rest.head? = some '(' then none
    else if c = '<' || c = '>' || (c = '&' && digits.isEmpty && rest.head? = some '>') then
      (operator? after).map fun op =>
        (if digits.isEmpty then none else some (leadingValue 10 digits.length digits).1, op,
          digits.length + op.length)
    else none
  | [] => none

/-- The text that a word delimits a here-document with, and whether some of it is quoted. -/
def delimiter : Word → Octets × Bool
  | [] => ([], false)
  | .plain t :: rest => let (u, q) := delimiter rest; (t ++ u, q)
  | .quoted t :: rest => (t ++ (delimiter rest).1, true)
  | .enclosed [.plain t] :: rest => (t ++ (delimiter rest).1, true)
  | .parameter (.variable name) .keep :: rest =>
    let (u, q) := delimiter rest
    ('$' :: name.toList ++ u, q)
  | _ :: rest => (delimiter rest).1 |> fun u => (u, true)

/-- The lines before the one that delimits a here-document, whether that one was found, and the number
of lines taken. -/
def linesUpTo (indented : Bool) (mark : Octets) : List Octets → List Octets × Bool × Nat
  | [] => ([], false, 0)
  | l :: ls =>
    let l := if indented then l.dropWhile (· = '\t') else l
    if l = mark then ([], true, 1)
    else
      let (found, closed, n) := linesUpTo indented mark ls
      (l :: found, closed, n + 1)

/-- The lines of a here-document, taken out of the text after the line being read. -/
def takeLines (indented : Bool) (mark : Octets) : Scan Octets := do
  let s ← get
  let before := s.rest.takeWhile (· ≠ '\n')
  let (ls, _) := Octets.lines (s.rest.drop (before.length + 1))
  let (found, closed, n) := linesUpTo indented mark ls
  let note := text s!"line {s.lines.length}: warning: here-document at line {s.line} delimited by "
    ++ text "end-of-file (wanted \x60" ++ mark ++ text "')"
  set { s with
    rest := before ++ '\n' :: (ls.drop n).flatMap (· ++ ['\n'])
    skipped := s.skipped + n
    notes := if closed then s.notes else note :: s.notes }
  return found.flatMap (· ++ ['\n'])

/-- A word; something else is a fault. -/
def readWord (commands : Scan Commands) (n : Nat) : Scan Word := do
  skipBlanks
  match ← Scan.rest with
  | [] => unexpected
  | c :: cs =>
    if isBreak c && !((c = '<' || c = '>') && cs.head? = some '(') then unexpected
    else readParts commands n .bare

/-- The redirection that starts here, if one does. -/
def readRedirection (commands : Scan Commands) (n : Nat) : Scan (Option Redirection) := do
  skipBlanks
  match redirection? (← Scan.rest) with
  | none => return none
  | some (descriptor, op, length) =>
    match opening? op with
    | none => return none
    | some opening =>
      Scan.pass length
      let word ← readWord commands n
      if opening ≠ .hereDocument then return some (.mk descriptor opening word)
      else
        let (mark, isQuoted) := delimiter word
        let text ← takeLines (op = text "<<-") mark
        if isQuoted then return some (.mk descriptor opening [.quoted text])
        else
          let parts ← Scan.reading text (readParts commands (n + text.length) .lines)
          return some (.mk descriptor opening [.enclosed parts])

def readRedirections (commands : Scan Commands) : Nat → Scan (List Redirection)
  | 0 => return []
  | n + 1 => do
    match ← readRedirection commands n with
    | none => return []
    | some r => return r :: (← readRedirections commands n)

/-- The words up to one that ends a list: an operator or a line end. -/
def readWords (commands : Scan Commands) : Nat → Scan (List Word)
  | 0 => Scan.fail .nested
  | n + 1 => do
    skipBlanks
    match ← Scan.rest with
    | [] => return []
    | c :: _ =>
      if isBreak c then return []
      else
        let w ← readParts commands n .bare
        return w :: (← readWords commands n)

def readElements (commands : Scan Commands) : Nat → Scan (List (Option Word × Word))
  | 0 => Scan.fail .nested
  | n + 1 => do
    skipLines (n + 1)
    match ← Scan.rest with
    | [] => Scan.fail (.unmatched (← get).line ')')
    | ')' :: _ =>
      Scan.pass 1
      return []
    | '[' :: rest =>
      match enclosed (rest.length + 1) true ']' rest with
      | .ok (index, '=' :: _) =>
        let i ← Scan.reading index (readParts commands n (.operand true))
        Scan.pass (index.length + 3)
        let w ← readParts commands n .bare
        return (some i, w) :: (← readElements commands n)
      | _ =>
        let w ← readWord commands n
        return (none, w) :: (← readElements commands n)
    | _ =>
      let w ← readWord commands n
      return (none, w) :: (← readElements commands n)

/-- The binding that starts here, if one does. -/
def readBinding (commands : Scan Commands) (n : Nat) : Scan (Option Binding) := do
  match binding? (← Scan.rest) with
  | none => return none
  | some (name, index, append, length) =>
    Scan.pass length
    match index, ← Scan.rest with
    | none, '(' :: _ =>
      Scan.pass 1
      return some (.list name append (← readElements commands n))
    | _, _ =>
      let index ← match index with
        | none => pure none
        | some i => some <$> Scan.reading i (readParts commands n (.operand true))
      return some (.scalar name index append (← readParts commands n .bare))

/-- The commands whose operands are bindings. -/
def declarers : List Octets := ["declare", "typeset", "local", "export", "readonly"].map text

/-- The rest of a simple command after what was read of it, the last first. -/
def readSimple (commands : Scan Commands) (line : Nat) : Nat → List Binding → List Binding →
    List Word → List Redirection → Scan Command
  | 0, _, _, _, _ => Scan.fail .nested
  | n + 1, bindings, lists, words, redirections => do
    skipBlanks
    let finish : Scan Command :=
      let command := .simple line bindings.reverse words.reverse redirections.reverse
      return if lists.isEmpty then command
        else .group [command, .simple line lists.reverse [] []]
    match ← readRedirection commands n with
    | some r => readSimple commands line n bindings lists words (r :: redirections)
    | none =>
      let rest ← Scan.rest
      match rest with
      | [] => finish
      | c :: cs =>
        if isBreak c && !((c = '<' || c = '>') && cs.head? = some '(') then finish
        else
          let binding ← if words.isEmpty then readBinding commands n else pure none
          match binding with
          | some b => readSimple commands line n (b :: bindings) lists words redirections
          | none =>
            let declares := match words.getLast? with
              | some [.plain w] => declarers.contains w
              | _ => false
            match declares, binding? rest with
            | true, some (name, none, append, length) =>
              match rest.drop length with
              | '(' :: _ =>
                Scan.pass (length + 1)
                let es ← readElements commands n
                readSimple commands line n bindings (.list name append es :: lists)
                  ([.plain name.toList] :: words) redirections
              | _ =>
                let w ← readParts commands n .bare
                readSimple commands line n bindings lists (w :: words) redirections
            | _, _ =>
              let w ← readParts commands n .bare
              readSimple commands line n bindings lists (w :: words) redirections

end SecretForge.Script
