import SecretForge.Script.Expand
import SecretForge.Script.Format
import SecretForge.Script.Regex

/-!
# The command language: tests

A test asks about a text, a number, a variable or a file.  The `test` command has its operands as
arguments and goes by their number; between double brackets the operands are words that are not split,
an operand on the right of an equals sign is a pattern, and numbers are expressions.

* `testUnary` and `testBinary` are the tests of one and two operands.
* `testArguments` is the `test` command, `testCondition` the test between double brackets.
-/

namespace SecretForge.Script

open SecretForge.Text

def fileAt (o : Octets) : Run (Except FileFault (Path × FileEntry)) := do
  let m ← get
  return { m.world.files with here := m.session.here }.locate (Octets.toString o)

/-- The devices that are files of no other kind. -/
def devices : List Octets :=
  ["/dev/null", "/dev/zero", "/dev/random", "/dev/urandom", "/dev/tty", "/dev/stdin", "/dev/stdout",
    "/dev/stderr"].map text

/-- A test that failed to be one, with its report, or the outcome. -/
abbrev Testing := ExceptT Octets Run

def unaryOperators : List Octets :=
  ["-a", "-b", "-c", "-d", "-e", "-f", "-g", "-h", "-k", "-p", "-r", "-s", "-t", "-u", "-w", "-x", "-G",
    "-L", "-N", "-O", "-S", "-o", "-v", "-R", "-z", "-n"].map text

def binaryOperators : List Octets :=
  ["=", "==", "!=", "<", ">", "-eq", "-ne", "-lt", "-le", "-gt", "-ge", "-nt", "-ot", "-ef"].map text

def testUnary (op : Octets) (o : Octets) : Run Bool := do
  match String.ofList op with
  | "-z" => return o.isEmpty
  | "-n" => return !o.isEmpty
  | "-v" =>
    match namedSubject? o with
    | some (.element name [.quoted i]) => return (← element? name (← calculate i)).isSome
    | some (.argument k) => return k ≤ (← session).arguments.length
    | _ => return (← value? (Octets.toString o)).isSome
  | "-o" =>
    match flagNames.lookup (Octets.toString o) with
    | some c => hasFlag c
    | none => hasOption (Octets.toString o)
  | "-t" => return false
  | "-R" => return false
  | "-c" => return devices.contains o
  | kind =>
    if devices.contains o then return kind = "-e" || kind = "-a" || kind = "-r" || kind = "-w"
    else match ← fileAt o with
      | .error _ => return false
      | .ok (_, e) =>
        match kind, e with
        | "-f", .file _ => return true
        | "-f", .directory => return false
        | "-d", .directory => return true
        | "-d", .file _ => return false
        | "-s", .file content => return !content.isEmpty
        | "-s", .directory => return true
        | "-x", .directory => return true
        | "-a", _ | "-e", _ | "-r", _ | "-w", _ | "-O", _ | "-G", _ => return true
        | _, _ => return false

/-- A text as a whole number of a test. -/
def testNumber? (o : Octets) : Option Int :=
  let cs := (((o.dropWhile isSpace).reverse.dropWhile isSpace).reverse)
  (signed? cs).filter fun i => -(Nat.pow 2 63 : Int) ≤ i && i < Nat.pow 2 63

def testNumbers (op : Octets) (a b : Int) : Bool :=
  match String.ofList op with
  | "-eq" => a = b
  | "-ne" => a ≠ b
  | "-lt" => a < b
  | "-le" => a ≤ b
  | "-gt" => b < a
  | _ => b ≤ a

def isNumeric (op : Octets) : Bool :=
  (["-eq", "-ne", "-lt", "-le", "-gt", "-ge"].map text).contains op

def testFiles (op a b : Octets) : Run Bool := do
  let x ← fileAt a
  let y ← fileAt b
  match String.ofList op, x, y with
  | "-ef", .ok (p, _), .ok (q, _) => return p = q
  | "-nt", .ok _, .error _ => return true
  | "-ot", .error _, .ok _ => return true
  | _, _, _ => return false

def testBinary (op a b : Octets) : Testing Bool := do
  match String.ofList op with
  | "=" | "==" => return a = b
  | "!=" => return a ≠ b
  | "<" => return Octets.before a b
  | ">" => return Octets.before b a
  | "-nt" | "-ot" | "-ef" => testFiles op a b
  | _ =>
    match testNumber? a, testNumber? b with
    | some x, some y => return testNumbers op x y
    | none, _ => throw (a ++ text ": integer expression expected")
    | _, none => throw (b ++ text ": integer expression expected")

mutual

/-- Tests joined by operators, with the arguments after them. -/
def testEither : Nat → List Octets → Testing (Bool × List Octets)
  | 0, rest => return (false, rest)
  | n + 1, args => do
    let (a, rest) ← testBoth n args
    match rest with
    | ['-', 'o'] :: more =>
      let (b, rest) ← testEither n more
      return (a || b, rest)
    | _ => return (a, rest)

/-- Tests that must all hold, with the arguments after them. -/
def testBoth : Nat → List Octets → Testing (Bool × List Octets)
  | 0, rest => return (false, rest)
  | n + 1, args => do
    let (a, rest) ← testTerm n args
    match rest with
    | ['-', 'a'] :: more =>
      let (b, rest) ← testBoth n more
      return (a && b, rest)
    | _ => return (a, rest)

def testTerm : Nat → List Octets → Testing (Bool × List Octets)
  | 0, rest => return (false, rest)
  | n + 1, args => do
    match args with
    | [] => throw (text "argument expected")
    | ['!'] :: rest =>
      let (a, rest) ← testTerm n rest
      return (!a, rest)
    | ['('] :: rest =>
      let (a, rest) ← testEither n rest
      match rest with
      | [')'] :: rest => return (a, rest)
      | [] => throw (text "\x60)' expected")
      | found :: _ => throw (text "\x60)' expected, found " ++ found)
    | a :: op :: b :: rest =>
      if binaryOperators.contains op then return (← testBinary op a b, rest)
      else if unaryOperators.contains a then return (← testUnary a op, b :: rest)
      else return (!a.isEmpty, op :: b :: rest)
    | [op, a] =>
      if unaryOperators.contains op then return (← testUnary op a, [])
      else return (!op.isEmpty, [a])
    | [a] => return (!a.isEmpty, [])

end

def testTwo (op a : Octets) : Testing Bool := do
  if op = ['!'] then return a.isEmpty
  else if unaryOperators.contains op then testUnary op a
  else throw (op ++ text ": unary operator expected")

def testThree (a op b : Octets) : Testing Bool := do
  if binaryOperators.contains op then testBinary op a b
  else if op = text "-a" then return !a.isEmpty && !b.isEmpty
  else if op = text "-o" then return !a.isEmpty || !b.isEmpty
  else if a = ['!'] then return !(← testTwo op b)
  else if a = ['('] && b = [')'] then return !op.isEmpty
  else throw (op ++ text ": binary operator expected")

def testArguments (args : List Octets) : Testing Bool := do
  match args with
  | [] => return false
  | [a] => return !a.isEmpty
  | [op, a] => testTwo op a
  | [a, op, b] => testThree a op b
  | [['!'], a, op, b] => return !(← testThree a op b)
  | [['('], op, a, [')']] => testTwo op a
  | _ =>
    let (a, rest) ← testEither (4 * args.length + 8) args
    if rest.isEmpty then return a else throw (text "too many arguments")

def truth (b : Bool) : Nat := if b then 0 else 1

def runTest (name : String) (args : List Octets) : Run Nat := do
  let outcome ← (testArguments args).run
  match outcome with
  | .ok b => return truth b
  | .error message =>
    complain (text s!"{name}: " ++ message)
    return 2

/-! ### Between double brackets -/

/-- A text matched by a regular expression; the match and its groups are kept in a variable. -/
def testRegex (o : Octets) (pattern : List Marked) : Run (Option Bool) := do
  match Regex.read true (markedCharacters pattern) with
  | none => return none
  | some r =>
    match r.search (Octets.characters o) with
    | none =>
      setVariable "BASH_REMATCH" { contents := .list [] }
      return some false
    | some m =>
      let last := m.groups.foldl (fun k g => max k g.1) 0
      let group (k : Nat) : Nat × Octets :=
        (k, (if k = 0 then m.found else (m.groups.lookup k).getD []).flatten)
      setVariable "BASH_REMATCH" { contents := .list ((List.range (last + 1)).map group) }
      return some true

/-- A test between double brackets: whether it holds, or `none` if it is no test. -/
def testCondition (h : Hooks) : Nat → Condition → Run (Option Bool)
  | 0, _ => throw .exhausted
  | n + 1, c => do
    match c with
    | .word w => return some !(← expandText h w).isEmpty
    | .not a => return (← testCondition h n a).map not
    | .and a b =>
      match ← testCondition h n a with
      | some true => testCondition h n b
      | other => return other
    | .or a b =>
      match ← testCondition h n a with
      | some false => testCondition h n b
      | other => return other
    | .unary op w => return some (← testUnary op.toList (← expandText h w))
    | .binary op l r =>
      let a ← expandText h l
      match op with
      | "=~" => testRegex a (pieceMarks (← expandWord h r))
      | "=" | "==" | "!=" =>
        let p ← expandPattern h r
        return some (matchesAll p (Octets.characters a) == (op != "!="))
      | _ =>
        let b ← expandText h r
        if isNumeric op.toList then
          match ← tryCalculate (text "[[: ") a with
          | none => return some false
          | some x =>
            match ← tryCalculate (text "[[: ") b with
            | none => return some false
            | some y => return some (testNumbers op.toList x y)
        else match op with
          | "<" => return some (Octets.before a b)
          | ">" => return some (Octets.before b a)
          | _ => return some (← testFiles op.toList a b)

end SecretForge.Script
