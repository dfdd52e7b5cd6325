import SecretForge.Script.Format
import SecretForge.Script.Program.Pattern

/-!
# The command language: calculating with arguments

`expr` evaluates an expression whose operators and operands are arguments of their own; `date` writes
a moment.

* `evaluate` is the value of an expression.
* `momentOf?` reads a moment.
-/

namespace SecretForge.Script.Compute

open SecretForge.Text

/-! ### Expressions -/

abbrev ExprFault := Octets

/-- A step of reading an expression: its arguments that are left. -/
abbrev ExprScan := StateT (List Octets) (Except ExprFault)

/-- The whole number that a text writes. -/
def wholeOf? (o : Octets) : Option Int :=
  match o with
  | '-' :: ds => (naturalOf? ds).map fun n => -(n : Int)
  | ds => (naturalOf? ds).map Int.ofNat

def wholeText (i : Int) : Octets := if i < 0 then '-' :: decimalDigits i.natAbs else decimalDigits i.natAbs

/-- Whether a value counts as nothing. -/
def isNull (o : Octets) : Bool := o.isEmpty || wholeOf? o = some 0

/-- The operators from the loosest to the tightest. -/
def levels : List (List String) :=
  [["|"], ["&"], ["<", "<=", "=", "==", "!=", ">=", ">"], ["+", "-"], ["*", "/", "%"], [":"]]

/-- A text as a truth. -/
def flag (b : Bool) : Octets := if b then ['1'] else ['0']

/-- The value of an anchored match: the first group, or the length of the match. -/
def matchValue (o pattern : Octets) : Except ExprFault Octets :=
  match Pattern.regexOf false false false pattern with
  | none => .error (text "Invalid regular expression")
  | some regex =>
    let grouped := occursIn ['\\', '('] pattern
    match longest regex ⟨[], Octets.characters o, []⟩ with
    | none => .ok (if grouped then [] else ['0'])
    | some spot =>
      if grouped then .ok (((spot.groups.lookup 1).getD []).flatten)
      else .ok (decimalDigits ((Octets.characters o).length - spot.after.length))

def operateOn (op : String) (a b : Octets) : Except ExprFault Octets :=
  let numbers : Except ExprFault (Int × Int) :=
    match wholeOf? a, wholeOf? b with
    | some i, some j => .ok (i, j)
    | _, _ => .error (text "non-integer argument")
  let order : Ordering :=
    match wholeOf? a, wholeOf? b with
    | some i, some j => compare i j
    | _, _ => if a = b then .eq else if Octets.before a b then .lt else .gt
  match op with
  | "|" => .ok (if isNull a then (if isNull b then ['0'] else b) else a)
  | "&" => .ok (if isNull a || isNull b then ['0'] else a)
  | "<" => .ok (flag (order == .lt))
  | "<=" => .ok (flag (order != .gt))
  | "=" | "==" => .ok (flag (order == .eq))
  | "!=" => .ok (flag (order != .eq))
  | ">=" => .ok (flag (order != .lt))
  | ">" => .ok (flag (order == .gt))
  | "+" => numbers.map fun (i, j) => wholeText (i + j)
  | "-" => numbers.map fun (i, j) => wholeText (i - j)
  | "*" => numbers.map fun (i, j) => wholeText (i * j)
  | "/" => numbers.bind fun (i, j) =>
    if j = 0 then .error (text "division by zero") else .ok (wholeText (Int.tdiv i j))
  | "%" => numbers.bind fun (i, j) =>
    if j = 0 then .error (text "division by zero") else .ok (wholeText (Int.tmod i j))
  | _ => matchValue a b

/-- The next argument of an expression; `last` is the one before it. -/
def operand (last : Octets) : ExprScan Octets := do
  match ← get with
  | [] => throw (text "syntax error: missing argument after " ++ quoteMarks last)
  | o :: rest =>
    set rest
    return o

mutual

/-- The value of an expression of the levels from a list on. -/
def evaluateLevel : Nat → Octets → List (List String) → ExprScan Octets
  | 0, _, _ => throw (text "memory exhausted")
  | n + 1, last, [] => evaluateTerm n last
  | n + 1, last, ops :: tighter => do
    let first ← evaluateLevel n last tighter
    evaluateMore n first ops tighter

/-- The value of what follows a first operand. -/
def evaluateMore : Nat → Octets → List String → List (List String) → ExprScan Octets
  | 0, _, _, _ => throw (text "memory exhausted")
  | n + 1, first, ops, tighter => do
    match ← get with
    | op :: rest =>
      if ops.contains (Octets.toString op) then
        set rest
        let second ← evaluateLevel n op tighter
        match operateOn (Octets.toString op) first second with
        | .ok value => evaluateMore n value ops tighter
        | .error f => throw f
      else return first
    | [] => return first

/-- The value of an operand or of something in parentheses. -/
def evaluateTerm : Nat → Octets → ExprScan Octets
  | 0, _ => throw (text "memory exhausted")
  | n + 1, last => do
    let o ← operand last
    match Octets.toString o with
    | "(" =>
      let value ← evaluateLevel n o levels
      match ← get with
      | [')'] :: rest =>
        set rest
        return value
      | [] => throw (text "syntax error: expecting ')' after " ++ quoteMarks value)
      | p :: _ => throw (text "syntax error: expecting ')' instead of " ++ quoteMarks p)
    | "length" =>
      let value ← evaluateTerm n o
      return decimalDigits (Octets.characters value).length
    | "match" =>
      let value ← evaluateTerm n o
      let pattern ← evaluateTerm n value
      match matchValue value pattern with
      | .ok v => return v
      | .error f => throw f
    | "index" =>
      let value ← evaluateTerm n o
      let chars ← evaluateTerm n value
      let place := (Octets.characters value).findIdx? fun c => (Octets.characters chars).contains c
      return match place with
        | some k => decimalDigits (k + 1)
        | none => ['0']
    | "substr" =>
      let value ← evaluateTerm n o
      let start ← evaluateTerm n value
      let size ← evaluateTerm n start
      match wholeOf? start, wholeOf? size with
      | some i, some k =>
        if i ≤ 0 || k ≤ 0 then return []
        else return (((Octets.characters value).drop (i.toNat - 1)).take k.toNat).flatten
      | _, _ => return []
    | "+" => operand o
    | _ => return o

end

/-- The value of an expression. -/
def evaluateArguments (args : List Octets) : Except ExprFault Octets :=
  match (evaluateLevel (20 * args.length + 40) [] levels).run args with
  | .error f => .error f
  | .ok (value, []) => .ok value
  | .ok (_, extra :: _) => .error (text "syntax error: unexpected argument " ++ quoteMarks extra)

/-- The program `expr`; it takes no options. -/
def runExpr (args : List Octets) : Run Nat := do
  let args := match args with
    | ['-', '-'] :: rest => rest
    | _ => args
  match args with
  | [] => misuse "expr" [text "missing operand"] 2
  | _ =>
    match evaluateArguments args with
    | .error f =>
      remark "expr" f
      return 2
    | .ok value =>
      say (value ++ ['\n'])
      return if isNull value then 1 else 0

/-! ### Moments -/

/-- The number of days from the first of January 1970 to a day. -/
def dayNumber (year : Int) (month day : Nat) : Int :=
  let y := if month ≤ 2 then year - 1 else year
  let era := y.fdiv 400
  let yoe := (y - era * 400).toNat
  let mp := (month + 9) % 12
  let doy := (153 * mp + 2) / 5 + day - 1
  era * 146097 + (yoe * 365 + yoe / 4 - yoe / 100 + doy : Nat) - 719468

/-- A date, its parts joined by dashes or written together. -/
def dateOf? (o : Octets) : Option Int :=
  let build (y m d : Octets) : Option Int :=
    match naturalOf? y, naturalOf? m, naturalOf? d with
    | some y, some m, some d =>
      let days := dayNumber y m d
      if 1 ≤ m && m ≤ 12 && civil days = ((y : Int), m, d) then some days else none
    | _, _, _ => none
  match splitOnChar '-' o with
  | [y, m, d] => if y.length = 4 then build y m d else none
  | [all] => if all.length = 8 then build (all.take 4) ((all.drop 4).take 2) (all.drop 6) else none
  | _ => none

/-- A time of day in seconds. -/
def clockOf? (o : Octets) : Option Int :=
  match (splitOnChar ':' o).map naturalOf? with
  | [some h, some m] => if h < 24 && m < 60 then some (h * 3600 + m * 60 : Nat) else none
  | [some h, some m, some s] =>
    if h < 24 && m < 60 && s < 61 then some (h * 3600 + m * 60 + s : Nat) else none
  | _ => none

/-- A moment in seconds from the start of 1970. -/
def momentOf? (o : Octets) : Option Int :=
  match o with
  | '@' :: ds => wholeOf? (ds.takeWhile (· ≠ '.'))
  | _ =>
    let o := if o.getLast? = some 'Z' then o.dropLast else o
    let words := (splitOnChar ' ' (o.map fun c => if c = 'T' then ' ' else c)).filter (!·.isEmpty)
    let words := words.filter fun w => w ≠ text "UTC"
    match words with
    | [d] => (dateOf? d).map (· * 86400)
    | [d, t] =>
      match dateOf? d, clockOf? t with
      | some days, some s => some (days * 86400 + s)
      | _, _ => none
    | _ => none

/-- The form in which `date` writes a moment if it is given none. -/
def usualForm : Octets := text "%a %b %e %H:%M:%S UTC %Y"

def date : Program where
  name := "date"
  letters := "ud:I:Rr:s:"
  names := [("utc", 'u'), ("universal", 'u'), ("date", 'd'), ("iso-8601", 'I'), ("rfc-email", 'R')]
  run g operands := do
    match operands with
    | _ :: extra :: _ => misuse "date" [text "extra operand " ++ quoteMarks extra] 1
    | _ =>
      let moment := match g.value? 'd' with
        | some o => momentOf? o
        | none => some 0
      match moment with
      | none =>
        remark "date" (text "invalid date " ++ quoteMarks ((g.value? 'd').getD []))
        return 1
      | some seconds =>
        let form : Except Octets Octets := match operands with
          | [] =>
            .ok (if g.has 'R' then text "%a, %d %b %Y %H:%M:%S +0000"
              else match g.value? 'I' with
                | some ['s', 'e', 'c', 'o', 'n', 'd', 's'] => text "%Y-%m-%dT%H:%M:%S+00:00"
                | some _ => text "%Y-%m-%d"
                | none => usualForm)
          | ('+' :: form) :: _ => .ok form
          | o :: _ => .error o
        match form with
        | .error o =>
          remark "date" (text "invalid date " ++ quoteMarks o)
          return 1
        | .ok form =>
          say (timeText seconds (form.length * 8 + 64) form ++ ['\n'])
          return 0

end SecretForge.Script.Compute
