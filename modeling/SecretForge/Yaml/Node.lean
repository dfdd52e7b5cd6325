import SecretForge.Yaml.Tag
import SecretForge.Yaml.Token.Scan

/-!
# YAML nodes

The nodes that the tokens of a document describe: scalars, sequences and mappings, each with its type.
A document numbers its nodes, and a collection holds the numbers of its members.  An alias is the
number of the node under its anchor, so that a node may stand in several places, and even in itself.

* `Document.ofTokens` reads the one document of a text.
-/

namespace SecretForge.Yaml

/-- A node.  Other nodes stand in it by their numbers. -/
inductive Node where
  | scalar (tag : Tag) (text : String)
  | sequence (tag : Tag) (items : List Nat)
  | mapping (tag : Tag) (entries : List (Nat × Nat))
  deriving DecidableEq, Repr

def Node.tag : Node → Tag
  | .scalar tag _ => tag
  | .sequence tag _ => tag
  | .mapping tag _ => tag

/-- The nodes of a document, numbered from zero, and the number of the one that holds all others. -/
structure Document where
  nodes : Array Node
  root : Nat
  deriving Repr

namespace Node

/-- What is known while the tokens are read: those still ahead, the nodes met so far, the anchors
among them, and the tag handles. -/
structure Reader where
  tokens : List Token
  nodes : Array Node := #[]
  anchors : List (String × Nat) := []
  handles : List (String × String) := []

abbrev Reading := StateT Reader (Except Fault)

def peek : Reading Token := do
  match (← get).tokens with
  | [] => throw .malformed
  | .fault f :: _ => throw f
  | t :: _ => return t

def next : Reading Unit := modify fun r => { r with tokens := r.tokens.tail }

/-- Moves past a token that must come next. -/
def expect (t : Token) : Reading Unit := do
  if (← peek) = t then next else throw .malformed

/-- Whether one of some tokens comes next. -/
def ahead (ts : List Token) : Reading Bool := return ts.contains (← peek)

def anchorHere : Reading (Option String) := do
  match ← peek with
  | .anchor name => next; return some name
  | _ => return none

def tagHere : Reading (Option (Option String × String)) := do
  match ← peek with
  | .tag handle suffix => next; return some (handle, suffix)
  | _ => return none

/-- The full name of a tag, whose handle must be known. -/
def tagName : Option (Option String × String) → Reading (Option String)
  | none => return none
  | some (none, suffix) => return some suffix
  | some (some handle, suffix) => do
    match (← get).handles.lookup handle with
    | some target => return some (target ++ suffix)
    | none => throw .malformed

/-- Whether a tag leaves the type to the node's form. -/
def isOpen (tag : Option String) : Bool := tag.isNone || tag = some "!"

def collectionTag (form : Tag) (tag : Option String) : Tag :=
  if isOpen tag then form else Tag.ofName (tag.getD "")

def scalarTag (text : String) (plain : Bool) (tag : Option String) : Tag :=
  match tag with
  | none => if plain then Tag.ofPlain text else .text
  | some "!" => Tag.ofPlain text
  | some name => Tag.ofName name

/-- Numbers a node; an anchor, which must be new, names it from here on. -/
def number (anchor : Option String) (node : Node) : Reading Nat := do
  let r ← get
  let n := r.nodes.size
  match anchor with
  | none => set { r with nodes := r.nodes.push node }
  | some name =>
    if (r.anchors.lookup name).isSome then throw .malformed
    set { r with nodes := r.nodes.push node, anchors := (name, n) :: r.anchors }
  return n

def omitted : Reading Nat := number none (.scalar .null "")

def complete (n : Nat) (node : Node) : Reading Nat := do
  modify fun r => { r with nodes := r.nodes.setIfInBounds n node }
  return n

/-- A sequence, which is numbered before its members. -/
def sequenceOf (anchor tag : Option String) (members : Reading (List Nat)) : Reading Nat := do
  let tag := collectionTag .sequence tag
  let n ← number anchor (.sequence tag [])
  complete n (.sequence tag (← members))

/-- A mapping, which is numbered before its entries. -/
def mappingOf (anchor tag : Option String) (entries : Reading (List (Nat × Nat))) : Reading Nat := do
  let tag := collectionTag .mapping tag
  let n ← number anchor (.mapping tag [])
  complete n (.mapping tag (← entries))

mutual

/-- A node.  `block` allows block collections, and `indentless` a block sequence that is not indented
against the mapping it stands in. -/
def read (block indentless : Bool) : Nat → Reading Nat
  | 0 => throw .malformed
  | fuel + 1 => do
    match ← peek with
    | .alias name =>
      next
      match (← get).anchors.lookup name with
      | some n => return n
      | none => throw .malformed
    | _ =>
      let before ← anchorHere
      let written ← tagHere
      let anchor ← if before.isNone && written.isSome then anchorHere else pure before
      let tag ← tagName written
      match ← peek with
      | .scalar text plain =>
        next
        number anchor (.scalar (scalarTag text plain tag) text)
      | .flowSequenceStart =>
        next
        sequenceOf anchor tag (readFlowSequence true fuel)
      | .flowMappingStart =>
        next
        mappingOf anchor tag (readFlowMapping true fuel)
      | .blockEntry =>
        if indentless then sequenceOf anchor tag (readIndentless fuel) else readOmitted anchor tag
      | .blockSequenceStart =>
        if block then
          next
          sequenceOf anchor tag (readBlockSequence fuel)
        else readOmitted anchor tag
      | .blockMappingStart =>
        if block then
          next
          mappingOf anchor tag (readBlockMapping fuel)
        else readOmitted anchor tag
      | _ => readOmitted anchor tag

/-- A scalar of which only the anchor or the tag is written. -/
def readOmitted (anchor tag : Option String) : Reading Nat := do
  if anchor.isNone && tag.isNone then throw .malformed
  number anchor (.scalar (if isOpen tag then .null else Tag.ofName (tag.getD "")) "")

/-- A node, unless one of the tokens comes that show it is omitted. -/
def readUnless (ends : List Token) (block indentless : Bool) : Nat → Reading Nat
  | 0 => throw .malformed
  | fuel + 1 => do
    if ← ahead ends then omitted else read block indentless fuel

/-- The members of a block sequence, up to its end. -/
def readBlockSequence : Nat → Reading (List Nat)
  | 0 => throw .malformed
  | fuel + 1 => do
    if ← ahead [.blockEntry] then
      next
      let item ← readUnless [.blockEntry, .blockEnd] true false fuel
      let items ← readBlockSequence fuel
      return item :: items
    else
      expect .blockEnd
      return []

/-- The members of a block sequence that has no indentation of its own. -/
def readIndentless : Nat → Reading (List Nat)
  | 0 => throw .malformed
  | fuel + 1 => do
    if ← ahead [.blockEntry] then
      next
      let item ← readUnless [.blockEntry, .key, .value, .blockEnd] true false fuel
      let items ← readIndentless fuel
      return item :: items
    else return []

/-- The entries of a block mapping, up to its end. -/
def readBlockMapping : Nat → Reading (List (Nat × Nat))
  | 0 => throw .malformed
  | fuel + 1 => do
    if ← ahead [.key] then
      next
      let key ← readUnless [.key, .value, .blockEnd] true true fuel
      let value ← readBlockValue fuel
      let entries ← readBlockMapping fuel
      return (key, value) :: entries
    else
      expect .blockEnd
      return []

def readBlockValue : Nat → Reading Nat
  | 0 => throw .malformed
  | fuel + 1 => do
    if ← ahead [.value] then
      next
      readUnless [.key, .value, .blockEnd] true true fuel
    else omitted

/-- The members of a flow sequence, up to its end.  A member with a key is a mapping of one entry. -/
def readFlowSequence (first : Bool) : Nat → Reading (List Nat)
  | 0 => throw .malformed
  | fuel + 1 => do
    if ← ahead [.flowSequenceEnd] then
      next
      return []
    else
      if !first then expect .flowEntry
      match ← peek with
      | .flowSequenceEnd =>
        next
        return []
      | .key =>
        next
        let item ← mappingOf none none do
          let key ← readUnless [.value, .flowEntry, .flowSequenceEnd] false false fuel
          let value ← readFlowValue .flowSequenceEnd fuel
          return [(key, value)]
        let items ← readFlowSequence false fuel
        return item :: items
      | _ =>
        let item ← read false false fuel
        let items ← readFlowSequence false fuel
        return item :: items

/-- The entries of a flow mapping, up to its end.  A node alone is a key without a value. -/
def readFlowMapping (first : Bool) : Nat → Reading (List (Nat × Nat))
  | 0 => throw .malformed
  | fuel + 1 => do
    if ← ahead [.flowMappingEnd] then
      next
      return []
    else
      if !first then expect .flowEntry
      match ← peek with
      | .flowMappingEnd =>
        next
        return []
      | .key =>
        next
        let key ← readUnless [.value, .flowEntry, .flowMappingEnd] false false fuel
        let value ← readFlowValue .flowMappingEnd fuel
        let entries ← readFlowMapping false fuel
        return (key, value) :: entries
      | _ =>
        let key ← read false false fuel
        let value ← omitted
        let entries ← readFlowMapping false fuel
        return (key, value) :: entries

/-- The value of an entry inside a flow collection. -/
def readFlowValue (closing : Token) : Nat → Reading Nat
  | 0 => throw .malformed
  | fuel + 1 => do
    if ← ahead [.value] then
      next
      readUnless [.flowEntry, closing] false false fuel
    else omitted

end

/-- The directives before a document: at most one version, of major number one, and no handle
twice. -/
def readDirectives : Nat → Bool → List (String × String) → Reading (List (String × String))
  | 0, _, _ => throw .malformed
  | fuel + 1, versioned, handles => do
    match ← peek with
    | .version major =>
      next
      if versioned || major ≠ 1 then throw .malformed
      readDirectives fuel true handles
    | .handle name target =>
      next
      if (handles.lookup name).isSome then throw .malformed
      readDirectives fuel versioned (handles ++ [(name, target)])
    | .reserved =>
      next
      readDirectives fuel versioned handles
    | _ => return handles

/-- The handles that need no directive. -/
def standardHandles : List (String × String) := [("!", "!"), ("!!", Tag.standard)]

/-- Moves past the document ends here. -/
def skipEnds : Nat → Reading Unit
  | 0 => throw .malformed
  | fuel + 1 => do
    if ← ahead [.documentEnd] then
      next
      skipEnds fuel

/-- Whether a directive or a document start comes next. -/
def atDocumentHead : Reading Bool := do
  match ← peek with
  | .version _ | .handle _ _ | .reserved | .documentStart => return true
  | _ => return false

/-- The one document of a text; `none` when there is nothing in it.  What follows the document must
be the end of the text. -/
def readStream (fuel : Nat) : Reading (Option Nat) := do
  if ← ahead [.streamEnd] then return none
  let root ←
    if ← atDocumentHead then do
      let handles ← readDirectives fuel false []
      modify fun r => { r with handles := handles ++ standardHandles }
      expect .documentStart
      match ← peek with
      | .version _ | .handle _ _ | .reserved | .documentStart | .documentEnd | .streamEnd =>
        omitted
      | _ => read true false fuel
    else do
      modify fun r => { r with handles := standardHandles }
      read true false fuel
  skipEnds fuel
  expect .streamEnd
  return some root

end Node

/-- The one document that the tokens describe; `none` when there is nothing in the text. -/
def Document.ofTokens (ts : List Token) : Except Fault (Option Document) := do
  let (root, r) ← (Node.readStream (4 * ts.length + 8)).run { tokens := ts }
  return root.map fun n => ⟨r.nodes, n⟩

end SecretForge.Yaml
