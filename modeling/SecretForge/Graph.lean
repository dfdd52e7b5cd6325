import SecretForge.Value

/-!
# Values in a graph

Values that share parts, and may even lie inside themselves.  A graph numbers its values; a container
holds the numbers of the values in it.  A value that is shown inside itself is shown as an ellipsis.

* `Graph.Vertex` is a value of a graph, which can be looked into like any other.
-/

namespace SecretForge

open SecretForge.Number

/-- Values by number, and the number of the one that holds all others. -/
structure Graph where
  cells : Array (Layer Nat)
  root : Nat
  deriving DecidableEq

/-- A layer with every value in it replaced. -/
def Layer.mapValues {ν μ : Type} (f : ν → μ) : Layer ν → Layer μ
  | .scalar s => .scalar s
  | .list items => .list (items.map f)
  | .map entries => .map (entries.map fun e => (f e.1, f e.2))
  | .set members => .set (members.map f)
  | .pair a b => .pair (f a) (f b)

namespace Graph

def layer (g : Graph) (n : Nat) : Layer Nat := g.cells.getD n (.scalar .null)

/-- The quoted text of the value `n` inside the values `around`.  As a value inside itself is not
looked into again, no more than `g.cells.size` levels are shown. -/
def quotedIn (g : Graph) : Nat → List Nat → Nat → Except IntegerFault String
  | 0, _, n => .ok (g.layer n).ellipsis
  | levels + 1, around, n =>
    if around.contains n then .ok (g.layer n).ellipsis
    else do Layer.text (← (g.layer n).traverse (g.quotedIn levels (n :: around)))

structure Vertex (g : Graph) where
  number : Nat

instance (g : Graph) : Layered (Vertex g) where
  layer v := (g.layer v.number).mapValues .mk
  quoted v := g.quotedIn (g.cells.size + 1) [] v.number

/-- The value that holds all others. -/
def top (g : Graph) : Vertex g := ⟨g.root⟩

end Graph

end SecretForge
