import SecretForge.Script.Source
import SecretForge.Text.Digit

/-!
# The command language: reading words

A word ends at a blank, a line end or an operator that stands outside quotes.  What a character means
depends on the quotes around it: inside double quotes only expansions and a few escapes are special, in
the lines of a here-document not even the quotes.

* `readParts` reads the parts of a word in a context; `readWord` a word of a command.
* `readParameter` reads what stands between the braces of a parameter expansion.
* `escaped` is the text of a quotation in which backslashes begin escapes.
-/

namespace SecretForge.Script

open SecretForge.Text

inductive Context where
  /-- A word of a command. -/
  | bare
  /-- A regular expression between double brackets. -/
  | expression
  /-- Text up to a double quote. -/
  | double
  /-- The lines of a here-document. -/
  | lines
  /-- The operand of a parameter expansion, inside double quotes or not. -/
  | operand (double : Bool)
  deriving DecidableEq, Repr

/-- Whether double quotes stand around a context, or seem to. -/
def Context.isDouble : Context → Bool
  | .double | .lines | .operand true => true
  | _ => false

def isBreak (c : Char) : Bool :=
  c = ' ' || c = '\t' || c = '\n' || c = '|' || c = '&' || c = ';' || c = '(' || c = ')' || c = '<'
    || c = '>'

/-- Whether the parts of a context end at a character. -/
def Context.stops : Context → Char → Bool
  | .bare, c => isBreak c
  | .expression, c => c = ' ' || c = '\t' || c = '\n'
  | .double, c => c = '"'
  | _, _ => false

/-- Whether a backslash quotes a character inside double quotes. -/
def Context.quotes : Context → Char → Bool
  | .lines, c => c = '$' || c = '\x60' || c = '\\'
  | .operand true, c => c = '$' || c = '\x60' || c = '\\' || c = '"' || c = '}'
  | _, c => c = '$' || c = '\x60' || c = '\\' || c = '"'

/-! ### Escapes -/

/-- The value of the first digits of a text to a base, at most `limit` of them, with how many there
are. -/
def leadingValue (base limit : Nat) (cs : Octets) : Nat × Nat :=
  let ds := (cs.take limit).takeWhile fun c => ((asciiDigit? c).filter (· < base)).isSome
  (ds.foldl (fun acc c => acc * base + (asciiDigit? c).getD 0) 0, ds.length)

/-- The bytes of the character with a number; a number too large for a character has as many bytes as
the scheme of its size calls for. -/
def encodeNumber (n : Nat) : Octets :=
  let tail (k : Nat) := Char.ofNat (0x80 + n / k % 64)
  if n < 0x80 then [Char.ofNat n]
  else if n < 0x800 then [Char.ofNat (0xC0 + n / 64), tail 1]
  else if n < 0x10000 then [Char.ofNat (0xE0 + n / 4096), tail 64, tail 1]
  else if n < 0x200000 then [Char.ofNat (0xF0 + n / 262144), tail 4096, tail 64, tail 1]
  else if n < 0x4000000 then
    [Char.ofNat (0xF8 + n / 16777216), tail 262144, tail 4096, tail 64, tail 1]
  else [Char.ofNat (0xFC + n / 1073741824 % 2), tail 16777216, tail 262144, tail 4096, tail 64, tail 1]

def escapeLetter? : Char → Option Char
  | 'a' => some (Char.ofNat 7)
  | 'b' => some (Char.ofNat 8)
  | 'e' | 'E' => some (Char.ofNat 27)
  | 'f' => some (Char.ofNat 12)
  | 'n' => some '\n'
  | 'r' => some '\r'
  | 't' => some '\t'
  | 'v' => some (Char.ofNat 11)
  | '\\' => some '\\'
  | _ => none

/-- The text of a quotation in which backslashes begin escapes. -/
def escaped : Nat → Octets → Octets
  | 0, cs => cs
  | _, [] => []
  | n + 1, '\\' :: c :: cs =>
    if c = '\'' || c = '"' || c = '?' then c :: escaped n cs
    else if c = 'c' then
      match cs with
      | [] => ['\\', 'c']
      | d :: ds => Char.ofNat (d.toUpper.toNat % 32) :: escaped n ds
    else if c = 'x' then
      match leadingValue 16 2 cs with
      | (_, 0) => '\\' :: 'x' :: escaped n cs
      | (v, k) => Char.ofNat v :: escaped n (cs.drop k)
    else if c = 'u' || c = 'U' then
      match leadingValue 16 (if c = 'u' then 4 else 8) cs with
      | (_, 0) => '\\' :: c :: escaped n cs
      | (v, k) => encodeNumber v ++ escaped n (cs.drop k)
    else match escapeLetter? c with
      | some d => d :: escaped n cs
      | none =>
        match leadingValue 8 3 (c :: cs) with
        | (_, 0) => '\\' :: c :: escaped n cs
        | (v, k) => Char.ofNat (v % 256) :: escaped n ((c :: cs).drop k)
  | n + 1, c :: cs => c :: escaped n cs

/-- The end of a quotation in which backslashes begin escapes. -/
def escapedEnd : Octets → Option Octets
  | [] => none
  | '\'' :: _ => some []
  | '\\' :: c :: cs => (escapedEnd cs).map fun t => '\\' :: c :: t
  | c :: cs => (escapedEnd cs).map (c :: ·)

/-- The text between backquotes as commands: a backslash is dropped before another one, a backquote or
a dollar sign, and before a double quote inside double quotes. -/
def unbackquote (double : Bool) : Octets → Octets
  | '\\' :: c :: cs =>
    if c = '\\' || c = '\x60' || c = '$' || (double && c = '"') then c :: unbackquote double cs
    else '\\' :: c :: unbackquote double cs
  | c :: cs => c :: unbackquote double cs
  | [] => []

/-! ### Parts -/

/-- The parameter at the start of a text, without the length marks and operators, and the text after
it. -/
def subject? : Octets → Option (Subject × Octets)
  | [] => none
  | c :: cs =>
    if beginsName c then
      some (.variable (String.ofList (c :: cs.takeWhile inName)), cs.dropWhile inName)
    else if c.isDigit then
      let ds := c :: cs.takeWhile Char.isDigit
      some (.argument (leadingValue 10 ds.length ds).1, cs.dropWhile Char.isDigit)
    else if c = '@' || c = '*' then some (.arguments (c = '*'), cs)
    else if c = '#' || c = '?' || c = '$' || c = '!' || c = '-' then some (.special c, cs)
    else none

/-- A text read whole as the operand of an expansion, by a way of reading parts. -/
def readOperand (parts : Context → Scan Word) (double : Bool) (text : Octets) : Scan Word :=
  Scan.reading text (parts (.operand double))

/-- The two sides of the first mark outside quotes; everything is on the left if there is none. -/
def splitAtMark (mark : Char) (text : Octets) : Octets × Option Octets :=
  match enclosed (text.length + 1) true mark text with
  | .ok (left, right) => (left, some right)
  | .error _ => (text, none)

/-- What is done to a parameter, from the text after it; `none` if the text has no meaning. -/
def readChange (parts : Context → Scan Word) (double : Bool) : Octets → Scan (Option Change)
  | [] => return some .keep
  | ':' :: '-' :: w => return some (.presence .default true (← readOperand parts double w))
  | ':' :: '=' :: w => return some (.presence .assign true (← readOperand parts double w))
  | ':' :: '?' :: w => return some (.presence .require true (← readOperand parts double w))
  | ':' :: '+' :: w => return some (.presence .replace true (← readOperand parts double w))
  | '-' :: w => return some (.presence .default false (← readOperand parts double w))
  | '=' :: w => return some (.presence .assign false (← readOperand parts double w))
  | '?' :: w => return some (.presence .require false (← readOperand parts double w))
  | '+' :: w => return some (.presence .replace false (← readOperand parts double w))
  | '#' :: '#' :: w => return some (.dropStart true (← readOperand parts false w))
  | '#' :: w => return some (.dropStart false (← readOperand parts false w))
  | '%' :: '%' :: w => return some (.dropEnd true (← readOperand parts false w))
  | '%' :: w => return some (.dropEnd false (← readOperand parts false w))
  | '^' :: '^' :: w => return some (.recase .upper true (← readOperand parts false w))
  | '^' :: w => return some (.recase .upper false (← readOperand parts false w))
  | ',' :: ',' :: w => return some (.recase .lower true (← readOperand parts false w))
  | ',' :: w => return some (.recase .lower false (← readOperand parts false w))
  | '~' :: '~' :: w => return some (.recase .toggle true (← readOperand parts false w))
  | '~' :: w => return some (.recase .toggle false (← readOperand parts false w))
  | ['@', c] => return some (.transform c)
  | ':' :: w => do
    let (start, length) := splitAtMark ':' w
    let start ← readOperand parts true start
    match length with
    | none => return some (.slice start none)
    | some l => return some (.slice start (some (← readOperand parts true l)))
  | '/' :: w => do
    let (which, w) : Occurrence × Octets := match w with
      | '/' :: w => (.all, w)
      | '#' :: w => (.atStart, w)
      | '%' :: w => (.atEnd, w)
      | w => (.first, w)
    let (pattern, replacement) := match w with
      | '/' :: rest =>
        let (p, r) := splitAtMark '/' rest
        ('/' :: p, r)
      | w => splitAtMark '/' w
    return some (.substitute which (← readOperand parts false pattern)
      (← readOperand parts false (replacement.getD [])))
  | _ => return none

/-- The subject with the index that follows it, if one does, and the text after it. -/
def readIndex (parts : Context → Scan Word) : Subject × Octets → Scan (Subject × Octets)
  | (.variable name, '[' :: rest) =>
    match enclosed (rest.length + 1) true ']' rest with
    | .error _ => return (.variable name, '[' :: rest)
    | .ok (['@'], after) => return (.elements name false, after)
    | .ok (['*'], after) => return (.elements name true, after)
    | .ok (index, after) => return (.element name (← readOperand parts true index), after)
  | other => return other

def readParameter (parts : Context → Scan Word) (double : Bool) (text : Octets) : Scan Part := do
  let malformed : Part := .malformed (['$', '{'] ++ text ++ ['}'])
  let plainly (text : Octets) : Scan (Option Part) := do
    match subject? text with
    | none => return none
    | some found =>
      let (subject, after) ← readIndex parts found
      return (← readChange parts double after).map fun change => .parameter subject change
  match text with
  | '#' :: c :: cs =>
    match subject? (c :: cs) with
    | some found =>
      match ← readIndex parts found with
      | (subject, []) => return .parameter subject .length
      | _ => return (← plainly text).getD malformed
    | none => return (← plainly text).getD malformed
  | '!' :: c :: cs =>
    match subject? (c :: cs) with
    | some (.variable name, [mark]) =>
      if mark = '*' || mark = '@' then return .parameter (.names name) .keep
      else return malformed
    | some found =>
      match ← readIndex parts found with
      | (.elements name _, []) => return .parameter (.indices name) .keep
      | (subject, after) =>
        match ← readChange parts double after with
        | some change => return .parameter (.indirect subject) change
        | none => return malformed
    | none => return (← plainly text).getD malformed
  | _ => return (← plainly text).getD malformed

mutual

/-- What a dollar sign begins; the sign has been passed over. -/
def readDollar (commands : Scan Commands) : Nat → Context → Scan Part
  | 0, _ => Scan.fail .nested
  | n + 1, context => do
    let s ← get
    match s.rest with
    | '\'' :: cs =>
      if context.isDouble then return .plain ['$']
      else match escapedEnd cs with
        | none => Scan.fail (.unmatched s.line '\'')
        | some text =>
          Scan.pass (text.length + 2)
          return .quoted ((escaped (text.length + 1) text).takeWhile (·.toNat ≠ 0))
    | '"' :: _ =>
      if context.isDouble then return .plain ['$']
      else
        Scan.pass 1
        return .enclosed (← readDouble commands n s.line)
    | '{' :: _ =>
      Scan.pass 1
      let text ← Scan.enclosed (!context.isDouble) '}'
      readParameter (readParts commands n) context.isDouble text
    | '(' :: '(' :: cs =>
      match enclosed (cs.length + 2) true ')' ('(' :: cs), enclosed (cs.length + 1) true ')' cs with
      | .error mark, _ | _, .error mark => Scan.fail (.unmatched s.line mark)
      | .ok _, .ok (text, ')' :: _) =>
        Scan.pass (text.length + 4)
        return .arithmetic (← Scan.reading text (readParts commands n (.operand true)))
      | .ok _, .ok _ => readOutput commands
    | '(' :: _ => readOutput commands
    | '[' :: _ =>
      Scan.pass 1
      let text ← Scan.enclosed true ']'
      return .arithmetic (← Scan.reading text (readParts commands n (.operand true)))
    | c :: cs =>
      if beginsName c then
        let name := c :: cs.takeWhile inName
        Scan.pass name.length
        return .parameter (.variable (String.ofList name)) .keep
      else match subject? [c] with
        | some (subject, _) =>
          Scan.pass 1
          return .parameter subject .keep
        | none => return .plain ['$']
    | [] => return .plain ['$']
where
  /-- Commands in parentheses whose output is meant. -/
  readOutput (commands : Scan Commands) : Scan Part := do
    Scan.pass 1
    let body ← commands
    match ← Scan.rest with
    | ')' :: _ =>
      Scan.pass 1
      return .output body
    | _ => Scan.fail (.unmatched (← get).line ')')

/-- The parts up to a closing double quote, which is passed over. -/
def readDouble (commands : Scan Commands) : Nat → Nat → Scan Word
  | 0, _ => Scan.fail .nested
  | n + 1, line => do
    let parts ← readParts commands n .double
    match ← Scan.rest with
    | '"' :: _ =>
      Scan.pass 1
      return parts
    | _ => Scan.fail (.unmatched line '"')

/-- The parts of a word in a context, up to where the context ends. -/
def readParts (commands : Scan Commands) : Nat → Context → Scan Word
  | 0, _ => Scan.fail .nested
  | n + 1, context => do
    let s ← get
    let more (p : Part) : Scan Word := return p.before (← readParts commands n context)
    match s.rest with
    | [] => return []
    | '\\' :: '\n' :: _ =>
      Scan.pass 2
      readParts commands n context
    | '\\' :: c :: _ =>
      Scan.pass 2
      if context.isDouble && !context.quotes c then more (.quoted ['\\', c]) else more (.quoted [c])
    | ['\\'] =>
      Scan.pass 1
      more (.quoted ['\\'])
    | c :: cs =>
      if (context = .bare) && (c = '<' || c = '>') && cs.head? = some '(' then
        Scan.pass 2
        let body ← commands
        match ← Scan.rest with
        | ')' :: _ =>
          Scan.pass 1
          more (.outputFile body)
        | _ => Scan.fail (.unmatched (← get).line ')')
      else if context.stops c then return []
      else if c = '\'' && !context.isDouble then
        match cs.dropWhile (· ≠ '\'') with
        | [] => Scan.fail (.unmatched s.line '\'')
        | _ =>
          let text := cs.takeWhile (· ≠ '\'')
          Scan.pass (text.length + 2)
          more (.quoted text)
      else if c = '"' && context ≠ .lines then
        Scan.pass 1
        let parts ← readDouble commands n s.line
        more (.enclosed parts)
      else if c = '\x60' then
        Scan.pass 1
        let text ← Scan.enclosed false '\x60'
        more (.backquoted (unbackquote context.isDouble text))
      else if c = '$' then
        Scan.pass 1
        let p ← readDollar commands n context
        more p
      else if context = .expression && c = '(' then
        Scan.pass 1
        let text ← Scan.enclosed true ')'
        let inner ← Scan.reading text (readParts commands n (.operand false))
        let rest ← readParts commands n context
        return Part.before (.plain ['(']) ((inner ++ [.plain [')']]) ++ rest)
      else
        Scan.pass 1
        more (.plain [c])

end

end SecretForge.Script
