import SecretForge.Script.Arithmetic
import SecretForge.Script.Machine

/-!
# The command language: variables and expressions

The value of a variable in an expression is the value of its text as an expression.  Setting a variable
honours what was declared about it: a fixed variable keeps its value, another one may hold numbers only
or letters of one case.

* `evaluate` is the value of an expression, `evaluateText` that of a text.
* `calculate` reports what is wrong with an expression and gives up the unit being run.
* `store` and `storeElement` set variables.
-/

namespace SecretForge.Script

open SecretForge.Text

/-- What acts on the machine and may find an expression wrong: its text, and what is wrong, unless that is
reported already. -/
abbrev Calculation := ExceptT (Option (Octets × ExpressionFault)) Run

def decimal (i : Int) : Octets :=
  if i < 0 then '-' :: decimalDigits i.natAbs else decimalDigits i.natAbs

/-- The elements of a list with one put at an index, in the order of their indices. -/
def putElement (i : Nat) (o : Octets) : List (Nat × Octets) → List (Nat × Octets)
  | [] => [(i, o)]
  | (j, p) :: es =>
    if i < j then (i, o) :: (j, p) :: es
    else if i = j then (i, o) :: es
    else (j, p) :: putElement i o es

/-- The value of an element of a variable; an index below zero counts from the end. -/
def element? (name : String) (index : Int) : Run (Option Octets) := do
  match ← variableOf? name with
  | none => return none
  | some v =>
    let es := v.elements
    let size := ((es.getLast?.map (·.1 + 1)).getD 0 : Nat)
    let i := if index < 0 then (size : Int) + index else index
    return es.lookup i.toNat

/-- A number raised to a power, in the range of 64 bits. -/
def power : Nat → Int → Nat → Int
  | 0, _, _ => 1
  | n + 1, base, exponent =>
    if exponent = 0 then 1
    else
      let half := power n base (exponent / 2)
      let square := wrap (half * half)
      if exponent % 2 = 0 then square else wrap (square * base)

def operate (source : Octets) (op : String) (a b : Int) (after : Octets) :
    Except (Octets × ExpressionFault) Int :=
  let truth (p : Bool) : Except (Octets × ExpressionFault) Int := .ok (if p then 1 else 0)
  let bits (f : Nat → Nat → Nat) : Except (Octets × ExpressionFault) Int :=
    .ok (wrap (f (a % Nat.pow 2 64).toNat (b % Nat.pow 2 64).toNat))
  let byZero : Except (Octets × ExpressionFault) Int := .error (source, ⟨"division by 0", after⟩)
  match op with
  | "+" => .ok (wrap (a + b))
  | "-" => .ok (wrap (a - b))
  | "*" => .ok (wrap (a * b))
  | "/" => if b = 0 then byZero else .ok (wrap (a.tdiv b))
  | "%" => if b = 0 then byZero else .ok (wrap (a.tmod b))
  | "**" =>
    if b < 0 then .error (source, ⟨"exponent less than 0", after⟩) else .ok (power 64 a b.toNat)
  | "<<" => .ok (wrap (a * Nat.pow 2 (b % 64).toNat))
  | ">>" => .ok (a.fdiv (Nat.pow 2 (b % 64).toNat))
  | "&" => bits (· &&& ·)
  | "|" => bits (· ||| ·)
  | "^" => bits (· ^^^ ·)
  | "==" => truth (a = b)
  | "!=" => truth (a ≠ b)
  | "<=" => truth (a ≤ b)
  | ">=" => truth (b ≤ a)
  | "<" => truth (a < b)
  | ">" => truth (b < a)
  | _ => .ok b

def recased (kind : CaseChange) (o : Octets) : Octets :=
  match kind with
  | .upper => o.map fun c => if c.toNat < 128 then c.toUpper else c
  | .lower => o.map fun c => if c.toNat < 128 then c.toLower else c
  | .toggle => o.map fun c => if c.isUpper then c.toLower else if c.isLower then c.toUpper else c

/-- A variable is fixed: nothing is set. -/
def refuse (name : String) : Run Bool := do
  complain (text s!"{name}: readonly variable")
  return false

/-- The contents of a variable are set; false if it is fixed. -/
def setContents (name : String) (f : Variable → Contents) : Run Bool := do
  let v := (← variableOf? name).getD {}
  if v.isFixed then refuse name
  else
    let exports := v.isExported || (← hasFlag 'a')
    setVariable name { v with contents := f v, isExported := exports }
    return true

/-- A variable is set to a text as it is; the first element is, if it is a list. -/
def storeText (name : String) (o : Octets) : Run Bool :=
  setContents name fun v =>
    let o := match v.recase with
      | some kind => recased kind o
      | none => o
    match v.contents with
    | .list es => .list (putElement 0 o es)
    | _ => .scalar o

/-- An element of a variable is set to a text as it is. -/
def storeElement (name : String) (index : Int) (o : Octets) : Run Bool := do
  let v := (← variableOf? name).getD {}
  let size := ((v.elements.getLast?.map (·.1 + 1)).getD 0 : Nat)
  let i := if index < 0 then (size : Int) + index else index
  if i < 0 then
    complain (text s!"{name}[{index}]: bad array subscript")
    return false
  else setContents name fun v => .list (putElement i.toNat o v.elements)

mutual

def evaluate : Nat → Octets → Expression → Calculation Int
  | 0, source, _ => throw (some (source, ⟨"expression recursion level exceeded", source⟩))
  | n + 1, source, e =>
    match e with
    | .number v => return v
    | .variable name => do evaluateValue n name (← value? name)
    | .element name i => do
      let index ← evaluate n source i
      evaluateValue n name (← element? name index)
    | .unary op e => do
      let v ← evaluate n source e
      match op with
      | "-" => return wrap (-v)
      | "!" => return if v = 0 then 1 else 0
      | "~" => return wrap (-v - 1)
      | _ => return v
    | .binary "&&" a b _ => do
      if (← evaluate n source a) = 0 then return 0
      else return if (← evaluate n source b) = 0 then 0 else 1
    | .binary "||" a b _ => do
      if (← evaluate n source a) ≠ 0 then return 1
      else return if (← evaluate n source b) = 0 then 0 else 1
    | .binary op a b after => do
      let x ← evaluate n source a
      let y ← evaluate n source b
      liftExcept (operate source op x y after)
    | .choose test yes no => do
      if (← evaluate n source test) = 0 then evaluate n source no else evaluate n source yes
    | .assign op target value after => do
      let new ← evaluate n source value
      if op = "=" then assignTo n source target new
      else
        let old ← evaluate n source target
        assignTo n source target
          (← liftExcept (operate source (String.ofList (op.toList.take (op.length - 1))) old new after))
    | .count before change target => do
      let old ← evaluate n source target
      let new ← assignTo n source target (wrap (old + change))
      return if before then old else new
where
  /-- A value or a fault. -/
  liftExcept : Except (Octets × ExpressionFault) Int → Calculation Int
    | .ok v => return v
    | .error f => throw (some f)

/-- A variable or an element set to a number. -/
def assignTo : Nat → Octets → Expression → Int → Calculation Int
  | 0, source, _, _ => throw (some (source, ⟨"expression recursion level exceeded", source⟩))
  | n + 1, source, target, v => do
    match target with
    | .variable name =>
      if ← storeText name (decimal v) then return v else throw none
    | .element name i =>
      let index ← evaluate n source i
      if ← storeElement name index (decimal v) then return v else throw none
    | _ => return v

/-- The value of a variable's text. -/
def evaluateValue : Nat → String → Option Octets → Calculation Int
  | 0, _, o => throw (some (o.getD [], ⟨"expression recursion level exceeded", o.getD []⟩))
  | n + 1, name, o => do
    match o with
    | some o => evaluateText n o
    | none =>
      if ← hasFlag 'u' then
        complain (text s!"{name}: unbound variable")
        leaveUnset
      else return 0

def evaluateText : Nat → Octets → Calculation Int
  | 0, o => throw (some (o, ⟨"expression recursion level exceeded", o⟩))
  | n + 1, o =>
    let source := o.dropWhile fun c => c = ' ' || c = '\t' || c = '\n'
    match readExpression o with
    | .error f => throw (some (source, f))
    | .ok e => evaluate (n + 1) source e

end

/-- Steps enough for an expression. -/
def calculationSteps : Nat := 1024

def expressionReport (source : Octets) (f : ExpressionFault) : Octets :=
  source ++ text s!": {f.message} (error token is \"" ++ f.token ++ text "\")"

/-- The value of a text as an expression; what is wrong with it is reported after a lead. -/
def tryCalculate (lead : Octets) (o : Octets) : Run (Option Int) := do
  match ← (evaluateText calculationSteps o).run with
  | .ok v => return some v
  | .error none => return none
  | .error (some (source, f)) =>
    complain (lead ++ expressionReport source f)
    return none

/-- The value of a text as an expression; the unit being run is given up for a wrong one. -/
def calculate (o : Octets) : Run Int := do
  match ← tryCalculate [] o with
  | some v => return v
  | none => giveUp

/-- A variable is set to a text, or to the number it stands for if the variable holds numbers. -/
def store (name : String) (o : Octets) : Run Bool := do
  match ← variableOf? name with
  | some v => if v.isInteger then storeText name (decimal (← calculate o)) else storeText name o
  | none => storeText name o

end SecretForge.Script
