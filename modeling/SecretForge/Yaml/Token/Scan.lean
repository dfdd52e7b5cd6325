import SecretForge.Yaml.Token.Property

/-!
# From text to tokens

Layout becomes brackets here.  Outside flow collections a line that is indented deeper than the
current block opens a block collection, and a shallower line closes the deeper ones.  A mapping key
is recognised only by the colon after it, so every node that could be a key is remembered as a
*pending key*; when the colon comes, the tokens that announce the key are put in front of it.  A
pending key lapses with its line, or after 1024 characters.
-/

namespace SecretForge.Yaml

/-- A node that becomes a key if a colon follows: its place among the tokens and in the text, and
whether it must become one for the block to be well-formed. -/
structure PendingKey where
  position : Nat
  required : Bool
  index : Nat
  line : Nat
  column : Nat
  deriving Repr

/-- The state of the division into tokens.  `emitted` holds the tokens so far, last one first, and
`pending` the pending key of each flow level, innermost first. -/
structure Scanner where
  cursor : Cursor
  emitted : List Token := []
  count : Nat := 0
  flowLevel : Nat := 0
  indent : Int := -1
  indents : List Int := []
  keyAllowed : Bool := true
  pending : List (Nat × PendingKey) := []
  deriving Repr

namespace Scanner

def emit (t : Token) (s : Scanner) : Scanner :=
  { s with emitted := t :: s.emitted, count := s.count + 1 }

/-- Puts tokens in front of the token at a position. -/
def insert (position : Nat) (ts : List Token) (s : Scanner) : Scanner :=
  let behind := s.count - position
  { s with
    emitted := s.emitted.take behind ++ ts.reverse ++ s.emitted.drop behind
    count := s.count + ts.length }

/-- Moves to another place in the text. -/
def moveTo (c : Cursor) (s : Scanner) : Scanner := { s with cursor := c }

/-- Moves past a number of characters. -/
def skip (k : Nat) (s : Scanner) : Scanner := s.moveTo (s.cursor.skip k)

def inFlow (s : Scanner) : Bool := s.flowLevel != 0

def lapsed (s : Scanner) (k : PendingKey) : Bool :=
  k.line != s.cursor.line || 1024 < s.cursor.index - k.index

/-- Forgets the pending keys that have lapsed; a required one may not. -/
def dropLapsed (s : Scanner) : Except Fault Scanner :=
  if s.pending.any fun (_, k) => s.lapsed k && k.required then .error .malformed
  else .ok { s with pending := s.pending.filter fun (_, k) => !s.lapsed k }

def pendingHere? (s : Scanner) : Option PendingKey := s.pending.lookup s.flowLevel

/-- Forgets the pending key of the current flow level; a required one may not be forgotten. -/
def dropPending (s : Scanner) : Except Fault Scanner :=
  match s.pendingHere? with
  | some k =>
    if k.required then .error .malformed
    else .ok { s with pending := s.pending.filter fun (level, _) => level != s.flowLevel }
  | none => .ok s

/-- Remembers the node that starts here as a pending key, where a key is allowed.  In a block, a node
at the column of the block can only be a key. -/
def savePending (s : Scanner) : Except Fault Scanner :=
  if !s.keyAllowed then .ok s
  else do
    let required := !s.inFlow && s.indent == s.cursor.column
    let key : PendingKey :=
      ⟨s.count, required, s.cursor.index, s.cursor.line, s.cursor.column⟩
    let s ← s.dropPending
    return { s with pending := (s.flowLevel, key) :: s.pending }

/-- Closes the block collections that are indented deeper than a column. -/
def unwind (column : Int) (s : Scanner) : Scanner :=
  if s.inFlow then s
  else
    let rec go : List Int → Scanner → Scanner
      | [], s => s
      | outer :: indents, s =>
        if column < s.indent then
          go indents { s.emit .blockEnd with indent := outer, indents }
        else s
    go s.indents s

/-- Opens a block collection at a column, if the current block is shallower.  The token that opens it
goes in front of the token at `position`. -/
def openBlock (t : Token) (column position : Nat) (s : Scanner) : Scanner :=
  if s.indent < column then
    { s.insert position [t] with indent := column, indents := s.indent :: s.indents }
  else s

/-- The place of the next token: after spaces, comments and line breaks.  Outside flow collections a
line break allows a key. -/
def skipToToken : Nat → Scanner → Scanner
  | 0, s => s
  | fuel + 1, s =>
    let c := s.cursor.skipSpaces.skipComment
    match c.takeBreak? with
    | none => s.moveTo c
    | some (_, c) => skipToToken fuel { s.moveTo c with keyAllowed := s.keyAllowed || !s.inFlow }

/-- Ends the blocks and the pending key before a token that stands outside all of them. -/
def leaveBlocks (s : Scanner) : Except Fault Scanner := do
  let s ← (s.unwind (-1)).dropPending
  return { s with keyAllowed := false }

/-- A directive or a document marker. -/
def outerToken (t : Token) (width : Nat) (s : Scanner) : Except Fault Scanner := do
  let s ← s.leaveBlocks
  return (s.emit t).skip width

def openFlow (t : Token) (s : Scanner) : Except Fault Scanner := do
  let s ← s.savePending
  return { (s.emit t).skip 1 with flowLevel := s.flowLevel + 1, keyAllowed := true }

def closeFlow (t : Token) (s : Scanner) : Except Fault Scanner := do
  let s ← s.dropPending
  if s.flowLevel = 0 then throw .malformed
  return { (s.emit t).skip 1 with flowLevel := s.flowLevel - 1, keyAllowed := false }

/-- The comma between the members of a flow collection. -/
def flowEntry (s : Scanner) : Except Fault Scanner := do
  let s ← { s with keyAllowed := true }.dropPending
  return (s.emit .flowEntry).skip 1

/-- The indicator of a member of a block sequence or of an explicit key.  In a block it may open the
collection that `opener` names. -/
def blockIndicator (t opener : Token) (keyAfter : Bool) (s : Scanner) :
    Except Fault Scanner := do
  if !s.inFlow && !s.keyAllowed then throw .malformed
  let s := if s.inFlow then s else s.openBlock opener s.cursor.column s.count
  let s ← { s with keyAllowed := keyAfter }.dropPending
  return (s.emit t).skip 1

/-- The colon of a value.  It makes the pending key a key, or stands for an empty key. -/
def valueIndicator (s : Scanner) : Except Fault Scanner :=
  match s.pendingHere? with
  | some k =>
    let s := { s with pending := s.pending.filter fun (level, _) => level != s.flowLevel }
    let s := s.insert k.position [.key]
    let s := if s.inFlow then s else s.openBlock .blockMappingStart k.column k.position
    .ok ({ s with keyAllowed := false }.emit .value |>.skip 1)
  | none => s.blockIndicator .value .blockMappingStart (!s.inFlow)

/-- A node of one token, which may be a key. -/
def nodeToken (read : Cursor → Except Fault (Token × Cursor)) (s : Scanner) :
    Except Fault Scanner := do
  let s ← s.savePending
  let (t, c) ← read s.cursor
  return ({ s with keyAllowed := false }.emit t).moveTo c

/-- A plain scalar, which allows a key after it when its line ends. -/
def plainToken (s : Scanner) : Except Fault Scanner := do
  let s ← s.savePending
  let (text, crossed, c) := plainScalar s.inFlow (s.indent + 1) s.cursor
  return ({ s with keyAllowed := crossed }.emit (.scalar text true)).moveTo c

def blockToken (folded : Bool) (s : Scanner) : Except Fault Scanner := do
  let s ← { s with keyAllowed := true }.dropPending
  let (text, c) ← blockScalar folded s.indent s.cursor
  return (s.emit (.scalar text false)).moveTo c

def startsPlain (s : Scanner) : Bool :=
  let ch := s.cursor.head
  let indicators := ['-', '?', ':', ',', '[', ']', '\x7b', '\x7d', '#', '&', '*', '!', '|', '>',
    '\'', '"', '%', '@', '\x60']
  !(isBlankOrEnd ch || indicators.contains ch)
    || (!isBlankOrEnd (s.cursor.peek 1) && (ch = '-' || (!s.inFlow && (ch = '?' || ch = ':'))))

/-- The state at the next token: pending keys that lapse on the way there are forgotten, and the blocks
that it is not part of are closed. -/
def toNext (s : Scanner) : Except Fault Scanner := do
  let s ← (s.skipToToken (s.cursor.rest.length + 1)).dropLapsed
  return s.unwind s.cursor.column

/-- Reads the token that stands here; the answer says whether it is the last one. -/
def token (s : Scanner) : Except Fault (Scanner × Bool) := do
  let c := s.cursor
  let ch := c.head
  let blankNext := isBlankOrEnd (c.peek 1)
  let more (r : Except Fault Scanner) : Except Fault (Scanner × Bool) := r.map (·, false)
  if c.rest.isEmpty then
    let s ← s.leaveBlocks
    return (s.emit .streamEnd, true)
  else if ch = '%' && c.column == 0 then
    let s ← s.leaveBlocks
    let (t, c) ← directive s.cursor
    return ((s.emit t).moveTo c, false)
  else if c.column == 0 && c.atSeparator then
    more (s.outerToken (if ch = '-' then .documentStart else .documentEnd) 3)
  else if ch = '[' then more (s.openFlow .flowSequenceStart)
  else if ch = '\x7b' then more (s.openFlow .flowMappingStart)
  else if ch = ']' then more (s.closeFlow .flowSequenceEnd)
  else if ch = '\x7d' then more (s.closeFlow .flowMappingEnd)
  else if ch = ',' then more s.flowEntry
  else if ch = '-' && blankNext then
    more (s.blockIndicator .blockEntry .blockSequenceStart true)
  else if ch = '?' && (s.inFlow || blankNext) then
    more (s.blockIndicator .key .blockMappingStart (!s.inFlow))
  else if ch = ':' && (s.inFlow || blankNext) then more s.valueIndicator
  else if ch = '*' then
    more (s.nodeToken fun c => (anchorName c).map fun (n, c) => (.alias n, c))
  else if ch = '&' then
    more (s.nodeToken fun c => (anchorName c).map fun (n, c) => (.anchor n, c))
  else if ch = '!' then more (s.nodeToken tagToken)
  else if (ch = '|' || ch = '>') && !s.inFlow then more (s.blockToken (ch = '>'))
  else if ch = '\'' || ch = '"' then
    more (s.nodeToken fun c => (quotedScalar (ch = '"') c).map fun (t, c) => (.scalar t false, c))
  else if s.startsPlain then more s.plainToken
  else throw .malformed

/-- Reads the next token; the answer says whether it is the last one. -/
def step (s : Scanner) : Except Fault (Scanner × Bool) := do (← s.toNext).token

/-- The tokens that can be told apart before the text becomes faulty, and the fault.  A token at or
after a pending key is held back, as the key is not yet decided. -/
def stopWith (f : Fault) (s : Scanner) : List Token :=
  let held := match s.dropLapsed with
    | .ok s => s.pending.foldl (fun n (_, k) => min n k.position) s.count
    | .error _ => s.count
  s.emitted.reverse.take held ++ [.fault f]

def run : Nat → Scanner → List Token
  | 0, s => s.stopWith .malformed
  | fuel + 1, s =>
    match s.step with
    | .error f => s.stopWith f
    | .ok (s, true) => s.emitted.reverse
    | .ok (s, false) => s.run fuel

end Scanner

/-- The tokens of a text.  A text with a character that no YAML text contains has none. -/
def Token.ofText (text : String) : List Token :=
  let cs := text.toList
  if !cs.all isTextChar then [.fault .malformed]
  else
    let c : Cursor := { rest := cs }
    let c := if c.head = byteOrderMark then c.advance else c
    Scanner.run (cs.length + 2) { cursor := c }

end SecretForge.Yaml
