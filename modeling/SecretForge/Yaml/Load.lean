import SecretForge.Graph
import SecretForge.Yaml.Node
import SecretForge.Yaml.Scalar

/-!
# The value of a YAML text

A document's nodes become values.  Every node gives one value, however often it stands in the
document: a scalar is converted at once, a container is empty at first and is filled later, when the
containers made before it have been.  So a container can lie inside itself, and of several faults the
one that comes first in this order is reported.

A merge key is taken out of its mapping, and what it brings in comes before the mapping's own entries;
this changes the node, and every later look at it sees it changed.

* `Build.make` makes the value of a node, `Build.fill` the content of a container.
* `load` is the value of a text.
-/

namespace SecretForge.Yaml

/-- What is known while values are made: the nodes, the values of those that have one, and the
containers still to be filled, in order.  The value of a node has its number; pairs, which no node
gives, have the numbers after these. -/
structure Building where
  nodes : Array Node
  cells : Array (Option (Layer Nat))
  pending : List Nat := []

/-- A step in the making of values. -/
abbrev Build := StateT Building (Except Fault)

namespace Build

def node (n : Nat) : Build Node := return (← get).nodes.getD n (.scalar .null "")

def setNode (n : Nat) (node : Node) : Build Unit :=
  modify fun b => { b with nodes := b.nodes.setIfInBounds n node }

/-- The value of the node of a number. -/
def cell? (n : Nat) : Build (Option (Layer Nat)) := return ((← get).cells.getD n none)

/-- Gives the node of a number its value. -/
def setCell (n : Nat) (layer : Layer Nat) : Build Unit :=
  modify fun b => { b with cells := b.cells.setIfInBounds n (some layer) }

/-- The first of some entries whose key has the given type: the entries before it, its value, and the
entries after it. -/
def splitAtKey (tag : Tag) :
    List (Nat × Nat) → Build (Option (List (Nat × Nat) × Nat × List (Nat × Nat)))
  | [] => return none
  | e :: es => do
    if (← node e.1).tag = tag then return some ([], e.2, es)
    else return (← splitAtKey tag es).map fun (before, value, after) => (e :: before, value, after)

/-! ### Scalars -/

/-- The text of a node where a scalar is wanted: its own, or that of the default entry of a mapping.
Default entries are followed a limited number of times, as they may lead back to where they started. -/
def scalarText : Nat → Nat → Build String
  | 0, _ => throw .malformed
  | limit + 1, n => do
    match ← node n with
    | .scalar _ text => return text
    | .sequence _ _ => throw .malformed
    | .mapping _ entries =>
      match ← splitAtKey .default entries with
      | some (_, value, _) => scalarText limit value
      | none => throw .malformed

/-- The scalar of a type that a node stands for. -/
def scalar (tag : Tag) (n : Nat) : Build Scalar := do
  let text ← scalarText ((← get).nodes.size + 1) n
  match tag, ← node n with
  | .timestamp, .mapping _ _ => throw .timestampOfMapping
  | _, _ => scalarValue tag text

/-- Makes the value of a node, unless it is made already.  A container is left to be filled. -/
def make (n : Nat) : Build Unit := do
  if (← cell? n).isNone then
    let container (layer : Layer Nat) : Build Unit := do
      setCell n layer
      modify fun b => { b with pending := b.pending ++ [n] }
    match (← node n).tag with
    | .sequence | .orderedMap | .pairs => container (.list [])
    | .mapping => container (.map [])
    | .set => container (.set [])
    | tag => setCell n (.scalar (← scalar tag n))

/-! ### Merge keys -/

/-- The entries of a mapping; what is merged must be one. -/
def entriesOf (n : Nat) : Build (List (Nat × Nat)) := do
  match ← node n with
  | .mapping _ entries => return entries
  | _ => throw .malformed

def setEntries (n : Nat) (entries : List (Nat × Nat)) : Build Unit := do
  setNode n (.mapping (← node n).tag entries)

/-- Makes an ordinary text of a key that is the default key. -/
def settleKey (k : Nat) : Build Unit := do
  let key ← node k
  if key.tag = .default then
    setNode k (match key with
      | .scalar _ text => .scalar .text text
      | .sequence _ items => .sequence .text items
      | .mapping _ entries => .mapping .text entries)

/-- The entries of a mapping whose merge keys have been taken out, after those in `brought`. -/
def settle (n : Nat) (brought : List (Nat × Nat)) : Build (List (Nat × Nat)) := do
  let entries ← entriesOf n
  entries.forM fun e => settleKey e.1
  setEntries n (brought ++ entries)
  return brought ++ entries

/-- Takes the merge keys out of a mapping and brings in the entries that they name, in front of its
own and after those in `brought`.  A sequence of mappings is merged from the last to the first, so
that the first one prevails.  Each step takes out one merge key, so that their number is a limit. -/
def absorb : Nat → Nat → List (Nat × Nat) → Build (List (Nat × Nat))
  | 0, n, brought => settle n brought
  | limit + 1, n, brought => do
    match ← splitAtKey .merge (← entriesOf n) with
    | none => settle n brought
    | some (before, value, after) =>
      setEntries n (before ++ after)
      let more ← match ← node value with
        | .sequence _ items => do
          let parts ← items.mapM fun item => absorb limit item []
          pure parts.reverse.flatten
        | _ => absorb limit value []
      absorb limit n (brought ++ more)

/-! ### Containers -/

/-- Whether the value of a node is the one object for decimal numbers with the name `.nan`. -/
def isSharedNan (n : Nat) : Build Bool := do
  let b ← get
  match (b.nodes.getD n (.scalar .null "")).tag, (scalarText (b.nodes.size + 1) n).run b with
  | .float, .ok (text, _) => return namesNan text
  | _, _ => return false

/-- Whether two values are the same key: equal, or one and the same object. -/
def sameKey (a b : Nat) : Build Bool := do
  match ← cell? a, ← cell? b with
  | some (.scalar (.float .nan)), some (.scalar (.float .nan)) =>
    return a = b || ((← isSharedNan a) && (← isSharedNan b))
  | some (.scalar s), some (.scalar t) => return a = b || s.sameKey t
  | _, _ => return a = b

/-- An entry put into a mapping: a key that is there keeps its place and gets the new value. -/
def putEntry (k v : Nat) : List (Nat × Nat) → Build (List (Nat × Nat))
  | [] => return [(k, v)]
  | e :: es => do
    if ← sameKey e.1 k then return (e.1, v) :: es else return e :: (← putEntry k v es)

/-- The value of a mapping: its entries with their values made, where a key must be a scalar. -/
def mappingValue (n : Nat) : Build (List (Nat × Nat)) := do
  let limit := (← get).nodes.foldl (fun k node => match node with
    | .mapping _ entries => k + entries.length
    | _ => k) 0
  (← absorb limit n []).foldlM (fun done (k, v) => do
    make k
    match ← cell? k with
    | some (.scalar _) =>
      make v
      putEntry k v done
    | _ => throw .malformed) []

/-- The value of a node that must be a mapping of one entry: a pair. -/
def pairValue (n : Nat) : Build Nat := do
  match ← node n with
  | .mapping _ [(k, v)] =>
    make k
    make v
    let pair := (← get).cells.size
    modify fun b => { b with cells := b.cells.push (some (.pair k v)) }
    return pair
  | _ => throw .malformed

def fill (n : Nat) : Build Unit := do
  match ← node n with
  | .sequence .sequence items =>
    items.forM make
    setCell n (.list items)
  | .sequence .orderedMap items => setCell n (.list (← items.mapM pairValue))
  | .sequence .pairs items => setCell n (.list (← items.mapM pairValue))
  | .mapping .mapping _ => setCell n (.map (← mappingValue n))
  | .mapping .set _ => setCell n (.set ((← mappingValue n).map (·.1)))
  | _ => throw .malformed

/-- Fills the containers that are to be filled, and those that turn up meanwhile.  Every node is
filled at most once, so that the number of nodes is a limit. -/
def fillAll : Nat → Build Unit
  | 0 => return ()
  | limit + 1 => do
    match (← get).pending with
    | [] => return ()
    | n :: rest =>
      modify fun b => { b with pending := rest }
      fill n
      fillAll limit

end Build

def Document.toGraph (doc : Document) : Except Fault Graph := do
  let size := doc.nodes.size
  let start : Building := { nodes := doc.nodes, cells := Array.replicate size none }
  let (_, b) ← (do Build.make doc.root; Build.fillAll size : Build Unit).run start
  return ⟨b.cells.map fun c => c.getD (.scalar .null), doc.root⟩

/-- The value of a YAML text.  A text with nothing in it has the value null. -/
def load (text : String) : Except Fault Graph := do
  match ← Document.ofTokens (Token.ofText text) with
  | none => return ⟨#[.scalar .null], 0⟩
  | some doc => doc.toGraph

end SecretForge.Yaml
