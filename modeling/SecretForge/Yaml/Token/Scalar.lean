import SecretForge.Text.Digit
import SecretForge.Yaml.Cursor
import SecretForge.Yaml.Fault

/-!
# Scalars in a YAML text

The five ways to write a scalar: plain, in single or double quotes, and as a literal or folded block.
Each reader starts at the scalar and returns its text and the place after it.  Line breaks inside a
scalar are folded: a single one becomes a space, and of several the first is dropped.
-/

namespace SecretForge.Yaml

open SecretForge.Text

def isSpaceOrTab (c : Char) : Bool := c = ' ' || c = '\t'

/-- The text that a line break and the breaks right after it fold into. -/
def foldBreaks (first : Char) (more : List Char) : List Char :=
  if first ≠ '\n' then first :: more else if more.isEmpty then [' '] else more

/-! ### Quoted scalars -/

/-- The line breaks of the empty lines here, up to the first character of the next line with text.
A document separator may not stand at the start of such a line. -/
def quotedBreaks : Nat → Cursor → Except Fault (List Char × Cursor)
  | 0, _ => .error .malformed
  | fuel + 1, c =>
    if c.atSeparator then .error .malformed
    else
      let c := (c.span isSpaceOrTab).2
      match c.takeBreak? with
      | none => .ok ([], c)
      | some (b, c) => (quotedBreaks fuel c).map fun (bs, c) => (b :: bs, c)

/-- The blanks here: kept inside a line, folded at the end of one. -/
def quotedBlanks (c : Cursor) : Except Fault (List Char × Cursor) :=
  let (blanks, c) := c.span isSpaceOrTab
  match c.takeBreak? with
  | none => if c.rest.isEmpty then .error .malformed else .ok (blanks, c)
  | some (b, c) =>
    (quotedBreaks (c.rest.length + 1) c).map fun (bs, c) => (foldBreaks b bs, c)

/-- The character that a one-letter escape stands for. -/
def escapedChar? (c : Char) : Option Char :=
  match c with
  | '0' => some '\x00'
  | 'a' => some '\x07'
  | 'b' => some '\x08'
  | 't' => some '\t'
  | '\t' => some '\t'
  | 'n' => some '\n'
  | 'v' => some '\x0b'
  | 'f' => some '\x0c'
  | 'r' => some '\r'
  | 'e' => some '\x1b'
  | ' ' => some ' '
  | '"' => some '"'
  | '\\' => some '\\'
  | '/' => some '/'
  | 'N' => some '\u0085'
  | '_' => some '\u00a0'
  | 'L' => some '\u2028'
  | 'P' => some '\u2029'
  | _ => none

/-- The number of hexadecimal digits that a numeric escape takes. -/
def escapeWidth? (c : Char) : Option Nat :=
  if c = 'x' then some 2 else if c = 'u' then some 4 else if c = 'U' then some 8 else none

/-- The number that hexadecimal digits write. -/
def readHex? (cs : List Char) : Option Nat :=
  cs.foldlM (fun n c => (hexDigit? c).map (n * 16 + ·)) 0

/-- The character of a code point.  One that is no scalar value is shown by the replacement
character. -/
def charOfCode (n : Nat) : Except Fault Char :=
  if 0x7FFFFFFF < n then .error .codePointOverflow
  else if 0x10FFFF < n then .error .codePointTooLarge
  else if 0xD800 ≤ n && n ≤ 0xDFFF then .ok (Char.ofNat 0xFFFD)
  else .ok (Char.ofNat n)

/-- The text of an escape, from the character after the backslash. -/
def escaped (c : Cursor) : Except Fault (List Char × Cursor) :=
  match escapedChar? c.head, escapeWidth? c.head with
  | some ch, _ => .ok ([ch], c.advance)
  | none, some width =>
    let c := c.advance
    match readHex? (c.rest.take width) with
    | some n =>
      if c.rest.length < width then .error .malformed
      else (charOfCode n).map fun ch => ([ch], c.skip width)
    | none => .error .malformed
  | none, none =>
    match c.takeBreak? with
    | some (_, c) => quotedBreaks (c.rest.length + 1) c
    | none => .error .malformed

/-- A character that a quoted scalar takes over as it is, whichever the quote. -/
def isQuotedPlain (c : Char) : Bool :=
  !(c = '\'' || c = '"' || c = '\\' || isBlankOrEnd c)

/-- The text up to the closing quote, and the place after it. -/
def quotedRest (double : Bool) : Nat → Cursor → Except Fault (List Char × Cursor)
  | 0, _ => .error .malformed
  | fuel + 1, c => do
    let ch := c.head
    let (part, next) ←
      if isQuotedPlain ch then pure (c.span isQuotedPlain)
      else if !double && ch = '\'' && c.peek 1 = '\'' then pure (['\''], c.skip 2)
      else if ch = (if double then '"' else '\'') then return ([], c.advance)
      else if double && ch = '\\' then escaped c.advance
      else if ch = '\'' || ch = '"' || ch = '\\' then pure ([ch], c.advance)
      else quotedBlanks c
    let (more, last) ← quotedRest double fuel next
    return (part ++ more, last)

/-- A quoted scalar, from its opening quote. -/
def quotedScalar (double : Bool) (c : Cursor) : Except Fault (String × Cursor) :=
  (quotedRest double (c.rest.length + 1) c.advance).map fun (cs, c) => (String.ofList cs, c)

/-! ### Plain scalars -/

/-- An indicator that separates the members of a flow collection. -/
def isFlowIndicator (c : Char) : Bool :=
  c = ',' || c = '[' || c = ']' || c = '\x7b' || c = '\x7d'

/-- How many characters a plain scalar takes before a blank, before a colon that ends a key, and in a
flow collection before an indicator. -/
def plainLength (flow : Bool) : List Char → Nat
  | [] => 0
  | ch :: rest =>
    let next := rest.headD endOfText
    if isBlankOrEnd ch || (ch = ':' && (isBlankOrEnd next || (flow && isFlowIndicator next)))
      || (flow && (ch = '?' || isFlowIndicator ch))
    then 0
    else plainLength flow rest + 1

/-- The line breaks of the empty lines here; `none` when a document separator follows. -/
def plainBreaks : Nat → Cursor → Option (List Char) × Cursor
  | 0, c => (none, c)
  | fuel + 1, c =>
    if c.atSeparator then (none, c)
    else
      let c := c.skipSpaces
      match c.takeBreak? with
      | none => (some [], c)
      | some (b, c) =>
        let (bs, c) := plainBreaks fuel c
        (bs.map (b :: ·), c)

/-- The blanks inside a plain scalar, whether they cross a line, and the place after them. -/
def plainBlanks (c : Cursor) : List Char × Bool × Cursor :=
  let (spaces, c) := c.span (· = ' ')
  match c.takeBreak? with
  | none => (spaces, false, c)
  | some (b, c) =>
    match plainBreaks (c.rest.length + 1) c with
    | (none, c) => ([], true, c)
    | (some bs, c) => (foldBreaks b bs, true, c)

/-- The rest of a plain scalar that must be indented by `indent`: `blanks` stand before it, and
`crossed` says whether they cross a line.  The result says whether the blanks after it do. -/
def plainRest (flow : Bool) (indent : Int) :
    Nat → List Char → Bool → Cursor → List Char × Bool × Cursor
  | 0, _, crossed, c => ([], crossed, c)
  | fuel + 1, blanks, crossed, c =>
    let n := if c.head = '#' then 0 else plainLength flow c.rest
    if n = 0 then ([], crossed, c)
    else
      let part := blanks ++ c.rest.take n
      let (blanks', crossed', c') := plainBlanks (c.skip n)
      if blanks'.isEmpty || c'.head = '#' || (!flow && (c'.column : Int) < indent) then
        (part, crossed', c')
      else
        let (more, crossed'', c'') := plainRest flow indent fuel blanks' crossed' c'
        (part ++ more, crossed'', c'')

/-- A plain scalar, whether a line ends right after it, and the place after it. -/
def plainScalar (flow : Bool) (indent : Int) (c : Cursor) : String × Bool × Cursor :=
  let (cs, crossed, c) := plainRest flow indent (c.rest.length + 1) [] false c
  (String.ofList cs, crossed, c)

/-! ### Block scalars -/

/-- What happens to the line breaks at the end of a block scalar. -/
inductive Chomping where
  /-- All are dropped. -/
  | strip
  /-- The first is kept. -/
  | clip
  /-- All are kept. -/
  | keep
  deriving DecidableEq, Repr

/-- The chomping that a sign asks for. -/
def chomping? (c : Char) : Option Chomping :=
  if c = '+' then some .keep else if c = '-' then some .strip else none

/-- The indentation that a digit asks for. -/
def increment? (c : Char) : Option Nat :=
  if '0' ≤ c && c ≤ '9' then some (c.toNat - 48) else none

/-- The header of a block scalar after its indicator: a chomping sign and an indentation digit in
either order, each optional.  The digit is not zero. -/
def blockHeader (c : Cursor) : Except Fault (Chomping × Option Nat × Cursor) :=
  let (chomp, increment, c) :=
    match chomping? c.head, increment? c.head with
    | some ch, _ =>
      match increment? (c.peek 1) with
      | some n => (ch, some n, c.skip 2)
      | none => (ch, none, c.advance)
    | none, some n =>
      match chomping? (c.peek 1) with
      | some ch => (ch, some n, c.skip 2)
      | none => (.clip, some n, c.advance)
    | none, none => (.clip, none, c)
  if increment = some 0 || !isSpaceOrEnd c.head then .error .malformed
  else .ok (chomp, increment, c)

/-- The place after the rest of a line that may hold only a comment. -/
def ignoredLine (c : Cursor) : Except Fault Cursor :=
  let c := c.skipSpaces.skipComment
  match c.takeBreak? with
  | some (_, c) => .ok c
  | none => if c.rest.isEmpty then .ok c else .error .malformed

/-- The empty lines here, the greatest column that spaces reach in them, and the place after them. -/
def blockIndentation : Nat → Nat → Cursor → List Char × Nat × Cursor
  | 0, widest, c => ([], widest, c)
  | fuel + 1, widest, c =>
    let next := c.skipSpaces
    let widest := if c.head = ' ' then max widest next.column else widest
    match next.takeBreak? with
    | none => ([], widest, next)
    | some (b, c) =>
      let (bs, widest, c) := blockIndentation fuel widest c
      (b :: bs, widest, c)

/-- The place after the spaces that indent a line, at most up to the column `indent`. -/
def skipIndent (indent : Nat) (c : Cursor) : Cursor :=
  c.skip (min (c.rest.takeWhile (· = ' ')).length (indent - c.column))

/-- The line breaks of the empty lines here, and the place after the indentation of the next line. -/
def blockBreaks (indent : Nat) : Nat → Cursor → List Char × Cursor
  | 0, c => ([], c)
  | fuel + 1, c =>
    let c := skipIndent indent c
    match c.takeBreak? with
    | none => ([], c)
    | some (b, c) =>
      let (bs, c) := blockBreaks indent fuel c
      (b :: bs, c)

/-- The lines of a block scalar indented by `indent`, after the empty lines `breaks`: their text, the
break of the last line, the empty lines after it, and the place after those. -/
def blockLines (folded : Bool) (indent : Nat) :
    Nat → List Char → Cursor → List Char × List Char × List Char × Cursor
  | 0, breaks, c => ([], [], breaks, c)
  | fuel + 1, breaks, c =>
    if c.column ≠ indent || c.rest.isEmpty then ([], [], breaks, c)
    else
      let (line, next) := c.span (!isBreak ·)
      let (lineBreak, next) := match next.takeBreak? with
        | some (b, next) => ([b], next)
        | none => ([], next)
      let (breaks', next) := blockBreaks indent (next.rest.length + 1) next
      let text := breaks ++ line
      if next.column ≠ indent || next.rest.isEmpty then (text, lineBreak, breaks', next)
      else
        let joint :=
          if folded && lineBreak = ['\n'] && !isSpaceOrTab c.head && !isSpaceOrTab next.head then
            if breaks'.isEmpty then [' '] else []
          else lineBreak
        let (more, lastBreak, trailing, last) := blockLines folded indent fuel breaks' next
        (text ++ joint ++ more, lastBreak, trailing, last)

/-- A block scalar inside a block at column `parent`, from its indicator. -/
def blockScalar (folded : Bool) (parent : Int) (c : Cursor) : Except Fault (String × Cursor) := do
  let (chomp, increment, c) ← blockHeader c.advance
  let c ← ignoredLine c
  let least := max 1 (parent + 1).toNat
  let (breaks, indent, c) := match increment with
    | some n =>
      let indent := least + n - 1
      let (breaks, c) := blockBreaks indent (c.rest.length + 1) c
      (breaks, indent, c)
    | none =>
      let (breaks, widest, c) := blockIndentation (c.rest.length + 1) 0 c
      (breaks, max least widest, c)
  let (text, lastBreak, trailing, c) := blockLines folded indent (c.rest.length + 1) breaks c
  let tail := match chomp with
    | .strip => []
    | .clip => lastBreak
    | .keep => lastBreak ++ trailing
  return (String.ofList (text ++ tail), c)

end SecretForge.Yaml
