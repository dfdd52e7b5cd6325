import SecretForge.Script.Syntax
import SecretForge.Text.Digit
import SecretForge.Text.Search

/-!
# The command language: reading expressions

An arithmetic expression works on whole numbers of 64 bits.  Its operators bind in the usual order;
raising to a power binds to the right, and so does assignment.

* `Expression` is an expression, `readExpression` reads one.
* `ExpressionFault` is what may be wrong, with the rest of the text from where it is wrong.
* `wrap` brings a number into the range of 64 bits.
-/

namespace SecretForge.Script

open SecretForge.Text

/-- An expression.  An operator that may fail keeps the text from its right operand on. -/
inductive Expression where
  | number (value : Int)
  | variable (name : String)
  | element (name : String) (index : Expression)
  | unary (operator : String) (operand : Expression)
  | binary (operator : String) (left right : Expression) (after : Octets)
  | choose (test yes no : Expression)
  | assign (operator : String) (target value : Expression) (after : Octets)
  /-- A variable changed by one, with its value before or after. -/
  | count (before : Bool) (change : Int) (target : Expression)
  deriving Repr

/-- What is wrong with an expression, and the text from there on. -/
structure ExpressionFault where
  message : String
  token : Octets
  deriving DecidableEq, Repr

/-- A number brought into the range of 64 bits. -/
def wrap (i : Int) : Int := Int.bmod i (Nat.pow 2 64)

/-- The operators of expressions, no operator after one that begins it. -/
def expressionOperators : List String :=
  ["<<=", ">>=", "**", "||", "&&", "==", "!=", "<=", ">=", "<<", ">>", "++", "--", "+=", "-=", "*=",
    "/=", "%=", "&=", "^=", "|=", "=", "<", ">", "+", "-", "*", "/", "%", "!", "~", "(", ")", "?", ":",
    ",", "&", "|", "^"]

/-- The operators of two operands by how tightly they bind, the loosest first. -/
def binaryLevels : List (List String) :=
  [["||"], ["&&"], ["|"], ["^"], ["&"], ["==", "!="], ["<=", ">=", "<", ">"], ["<<", ">>"], ["+", "-"],
    ["*", "/", "%"]]

def assignments : List String :=
  ["=", "+=", "-=", "*=", "/=", "%=", "<<=", ">>=", "&=", "^=", "|="]

/-- An expression being read: the text left and the text from the last token on. -/
structure ExpressionSource where
  rest : Octets
  last : Octets

abbrev ExpressionScan := StateT ExpressionSource (Except ExpressionFault)

namespace ExpressionScan

/-- The text left after blanks. -/
def rest : ExpressionScan Octets := do
  modify fun s => { s with rest := s.rest.dropWhile fun c => c = ' ' || c = '\t' || c = '\n' }
  return (← get).rest

/-- The operator that comes next. -/
def operator? : ExpressionScan (Option String) := do
  let cs ← rest
  return expressionOperators.find? fun op => startsWith op.toList cs

/-- Some of the text is passed over as a token. -/
def pass (n : Nat) : ExpressionScan Unit := do
  let cs ← rest
  set ({ rest := cs.drop n, last := cs } : ExpressionSource)

/-- Something is wrong here; at the end of the text, with the last token. -/
def fail {α : Type} (message : String) : ExpressionScan α := do
  let cs ← rest
  let s ← get
  throw ⟨message, if cs.isEmpty then s.last else cs⟩

end ExpressionScan

/-- The value of a digit to a base above ten: letters in either case up to base 36, then small letters,
capital letters, `@` and `_`. -/
def baseDigit? (base : Nat) (c : Char) : Option Nat :=
  let value : Option Nat :=
    if c.isDigit then some (c.toNat - 48)
    else if base ≤ 36 then asciiDigit? c
    else if c.isLower then some (c.toNat - 87)
    else if c.isUpper then some (c.toNat - 29)
    else if c = '@' then some 62
    else if c = '_' then some 63
    else none
  value.filter (· < base)

def baseValue? (base : Nat) (ds : Octets) : Option Nat :=
  ds.foldl (fun acc c => acc.bind fun n => (baseDigit? base c).map (n * base + ·)) (some 0)

/-- The number that a token writes: to the base before a mark, to base sixteen or eight after a zero,
or to base ten. -/
def readNumber (token : Octets) : Except ExpressionFault Int :=
  let tooGreat : Except ExpressionFault Int := .error ⟨"value too great for base", token⟩
  let value (base : Nat) (ds : Octets) : Except ExpressionFault Int :=
    match baseValue? base ds with
    | some n => .ok (wrap n)
    | none => tooGreat
  let head := token.takeWhile (· ≠ '#')
  match token.drop head.length with
  | '#' :: ds =>
    match baseValue? 10 head with
    | some base =>
      if 2 ≤ base && base ≤ 64 then
        if ds.isEmpty then .error ⟨"invalid integer constant", token⟩ else value base ds
      else .error ⟨"invalid arithmetic base", token⟩
    | none => tooGreat
  | _ =>
    match token with
    | '0' :: 'x' :: ds => value 16 ds
    | '0' :: 'X' :: ds => value 16 ds
    | '0' :: ds => value 8 ds
    | ds => value 10 ds

mutual

/-- Expressions of which the last is the value. -/
def readSequence : Nat → ExpressionScan Expression
  | 0 => ExpressionScan.fail "expression recursion level exceeded"
  | n + 1 => do
    let first ← readAssignment n
    match ← ExpressionScan.operator? with
    | some "," =>
      ExpressionScan.pass 1
      let after ← ExpressionScan.rest
      return .binary "," first (← readSequence n) after
    | _ => return first

/-- An assignment, or an expression that binds tighter. -/
def readAssignment : Nat → ExpressionScan Expression
  | 0 => ExpressionScan.fail "expression recursion level exceeded"
  | n + 1 => do
    let target ← readChoice n
    match ← ExpressionScan.operator? with
    | some op =>
      if assignments.contains op then
        match target with
        | .variable _ | .element _ _ =>
          ExpressionScan.pass op.length
          let after ← ExpressionScan.rest
          return .assign op target (← readAssignment n) after
        | _ => ExpressionScan.fail "attempted assignment to non-variable"
      else return target
    | none => return target

def readChoice : Nat → ExpressionScan Expression
  | 0 => ExpressionScan.fail "expression recursion level exceeded"
  | n + 1 => do
    let test ← readBinary n binaryLevels
    match ← ExpressionScan.operator? with
    | some "?" =>
      ExpressionScan.pass 1
      let yes ← readSequence n
      match ← ExpressionScan.operator? with
      | some ":" =>
        ExpressionScan.pass 1
        return .choose test yes (← readChoice n)
      | _ => ExpressionScan.fail "\x60:' expected for conditional expression"
    | _ => return test

/-- Operators of the given levels, all binding to the left. -/
def readBinary : Nat → List (List String) → ExpressionScan Expression
  | 0, _ => ExpressionScan.fail "expression recursion level exceeded"
  | n + 1, [] => readPower n
  | n + 1, level :: tighter => do
    let left ← readBinary n tighter
    readMore n level tighter left

/-- What operators of a level join to an expression on its right. -/
def readMore : Nat → List String → List (List String) → Expression → ExpressionScan Expression
  | 0, _, _, _ => ExpressionScan.fail "expression recursion level exceeded"
  | n + 1, level, tighter, left => do
    match ← ExpressionScan.operator? with
    | some op =>
      if level.contains op then
        ExpressionScan.pass op.length
        let after ← ExpressionScan.rest
        let right ← readBinary n tighter
        readMore n level tighter (.binary op left right after)
      else return left
    | none => return left

def readPower : Nat → ExpressionScan Expression
  | 0 => ExpressionScan.fail "expression recursion level exceeded"
  | n + 1 => do
    let base ← readUnary n
    match ← ExpressionScan.operator? with
    | some "**" =>
      ExpressionScan.pass 2
      let exponent ← readPower n
      let after ← ExpressionScan.rest
      let last := (← get).last
      return .binary "**" base exponent (if after.isEmpty then last else after)
    | _ => return base

/-- An operand with the signs in front of it. -/
def readUnary : Nat → ExpressionScan Expression
  | 0 => ExpressionScan.fail "expression recursion level exceeded"
  | n + 1 => do
    match ← ExpressionScan.operator? with
    | some op =>
      if op = "++" || op = "--" then
        ExpressionScan.pass 2
        match ← readUnary n with
        | .variable name => return .count false (if op = "++" then 1 else -1) (.variable name)
        | .element name i => return .count false (if op = "++" then 1 else -1) (.element name i)
        | e => return e
      else if op = "!" || op = "~" || op = "-" || op = "+" then
        ExpressionScan.pass 1
        return .unary op (← readUnary n)
      else readAtom n
    | none => readAtom n

/-- A number, a variable or an expression in parentheses. -/
def readAtom : Nat → ExpressionScan Expression
  | 0 => ExpressionScan.fail "expression recursion level exceeded"
  | n + 1 => do
    match ← ExpressionScan.rest with
    | '(' :: _ =>
      ExpressionScan.pass 1
      let e ← readSequence n
      match ← ExpressionScan.rest with
      | ')' :: _ =>
        ExpressionScan.pass 1
        return e
      | _ => ExpressionScan.fail "missing \x60)'"
    | c :: cs =>
      if c.isDigit then
        let token := (c :: cs).takeWhile fun d => inName d || d = '#' || d = '@'
        match readNumber token with
        | .ok v =>
          ExpressionScan.pass token.length
          return .number v
        | .error f => throw f
      else if beginsName c then
        let name := (c :: cs).takeWhile inName
        ExpressionScan.pass name.length
        let target ← match (← get).rest with
          | '[' :: _ =>
            ExpressionScan.pass 1
            let index ← readSequence n
            match ← ExpressionScan.rest with
            | ']' :: _ =>
              ExpressionScan.pass 1
              pure (Expression.element (String.ofList name) index)
            | _ => ExpressionScan.fail "bad array subscript"
          | _ => pure (Expression.variable (String.ofList name))
        match ← ExpressionScan.operator? with
        | some "++" =>
          ExpressionScan.pass 2
          return .count true 1 target
        | some "--" =>
          ExpressionScan.pass 2
          return .count true (-1) target
        | _ => return target
      else ExpressionScan.fail "syntax error: operand expected"
    | [] => ExpressionScan.fail "syntax error: operand expected"

end

/-- The expression that a text writes; an empty text is zero. -/
def readExpression (text : Octets) : Except ExpressionFault Expression :=
  let blank (c : Char) := c = ' ' || c = '\t' || c = '\n'
  let text := text.dropWhile blank
  if text.isEmpty then .ok (.number 0)
  else
    match (readSequence (16 * text.length + 64)).run ⟨text, text⟩ with
    | .error f => .error f
    | .ok (e, s) =>
      match s.rest.dropWhile blank with
      | [] => .ok e
      | rest =>
        if (expressionOperators.any fun op => startsWith op.toList rest)
            || rest.head?.any (fun c => inName c) then
          .error ⟨"syntax error in expression", rest⟩
        else .error ⟨"syntax error: invalid arithmetic operator", rest⟩

end SecretForge.Script
