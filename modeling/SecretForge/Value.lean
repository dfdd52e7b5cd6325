import SecretForge.Scalar

/-!
# Values

What a template can be read from.  There are several ways to hold a value, as a tree or as a place in
a graph that may lead back to itself; all of them show one *layer* at a time, which is a scalar or a
container of further values.

* `Layered` is a type of values that can be looked into.
* `Value` is a tree of lists and mappings.
-/

namespace SecretForge

open SecretForge.Number

/-- One layer of a value: a scalar, or a container with the values in it. -/
inductive Layer (ν : Type) where
  | scalar (s : Scalar)
  | list (items : List ν)
  /-- A mapping as its entries in order, with distinct keys. -/
  | map (entries : List (ν × ν))
  /-- A set of distinct values. -/
  | set (members : List ν)
  /-- A pair, as it stands in a list of pairs. -/
  | pair (key value : ν)
  deriving DecidableEq, Inhabited

namespace Layer

variable {ν : Type}

def kind : Layer ν → String
  | .scalar s => s.kind
  | .list _ => "list"
  | .map _ => "dict"
  | .set _ => "set"
  | .pair _ _ => "tuple"

/-- Whether a value counts as absent: no value, false, zero, or empty. -/
def isEmpty : Layer ν → Bool
  | .scalar s => s.isEmpty
  | .list items => items.isEmpty
  | .map entries => entries.isEmpty
  | .set members => members.isEmpty
  | .pair _ _ => false

def scalar? : Layer ν → Option Scalar
  | .scalar s => some s
  | _ => none

/-- The text around an ellipsis that stands for a container in itself. -/
def ellipsis : Layer ν → String
  | .map _ => "\x7b...\x7d"
  | .pair _ _ => "(...)"
  | .set _ => "set(...)"
  | _ => "[...]"

/-- The quoted text of a layer whose values are given by their quoted texts. -/
def text : Layer String → Except IntegerFault String
  | .scalar s => s.quoted
  | .list items => .ok ("[" ++ String.intercalate ", " items ++ "]")
  | .map entries =>
    .ok ("\x7b" ++ String.intercalate ", " (entries.map fun e => e.1 ++ ": " ++ e.2) ++ "\x7d")
  | .set [] => .ok "set()"
  | .set members => .ok ("\x7b" ++ String.intercalate ", " members ++ "\x7d")
  | .pair a b => .ok ("(" ++ a ++ ", " ++ b ++ ")")

/-- A layer with its values replaced, in order, by what `f` makes of them. -/
def traverse {μ ε : Type} (f : ν → Except ε μ) : Layer ν → Except ε (Layer μ)
  | .scalar s => .ok (.scalar s)
  | .list items => return .list (← items.mapM f)
  | .map entries => return .map (← entries.mapM fun e => return (← f e.1, ← f e.2))
  | .set members => return .set (← members.mapM f)
  | .pair a b => return .pair (← f a) (← f b)

end Layer

/-- A type of values that can be looked into, and shown exactly. -/
class Layered (ν : Type) where
  /-- The outermost layer of a value. -/
  layer : ν → Layer ν
  /-- The quoted text of a value: what shows it exactly. -/
  quoted : ν → Except IntegerFault String

namespace Layered

variable {ν : Type} [Layered ν]

/-- The plain text of a value: that of a scalar, or the quoted text of a container. -/
def plain (v : ν) : Except IntegerFault String :=
  match layer v with
  | .scalar s => s.plain
  | _ => quoted v

def items? (v : ν) : Option (List ν) :=
  match layer v with
  | .list items => some items
  | _ => none

def entries? (v : ν) : Option (List (ν × ν)) :=
  match layer v with
  | .map entries => some entries
  | _ => none

def under? (key : String) (entries : List (ν × ν)) : Option ν :=
  (entries.find? fun e =>
    match layer e.1 with
    | .scalar s => s.sameKey (.text key)
    | _ => false).map (·.2)

end Layered

inductive Value where
  | scalar (s : Scalar)
  | list (items : List Value)
  | map (entries : List (Value × Value))
  deriving Inhabited

namespace Value

@[match_pattern] abbrev null : Value := .scalar .null

/-- A text as a value. -/
@[match_pattern] abbrev text (s : String) : Value := .scalar (.text s)

def layer : Value → Layer Value
  | .scalar s => .scalar s
  | .list items => .list items
  | .map entries => .map entries

def kind (v : Value) : String := v.layer.kind

def isEmpty (v : Value) : Bool := v.layer.isEmpty

mutual

def quoted : Value → Except IntegerFault String
  | .scalar s => s.quoted
  | .list items => do Layer.text (.list (← quotedAll items))
  | .map entries => do Layer.text (.map (← quotedEntries entries))

def quotedAll : List Value → Except IntegerFault (List String)
  | [] => .ok []
  | v :: vs => return (← quoted v) :: (← quotedAll vs)

/-- The quoted texts of the keys and values of entries in order. -/
def quotedEntries : List (Value × Value) → Except IntegerFault (List (String × String))
  | [] => .ok []
  | (k, v) :: es => return (← quoted k, ← quoted v) :: (← quotedEntries es)

end

instance : Layered Value := ⟨layer, quoted⟩

/-- The plain text of a tree. -/
def plain (v : Value) : Except IntegerFault String := Layered.plain v

end Value

end SecretForge
