/-!
# A place in a YAML text

The text that is still unread, with the index, line and column reached.  Layout depends on columns,
and a mapping key must stand on one line, so every advance keeps them.  The end of the text reads as
the NUL character, which no YAML text contains.
-/

namespace SecretForge.Yaml

/-- The character that stands for the end of the text. -/
def endOfText : Char := '\x00'

/-- The mark that may open a text and takes no column. -/
def byteOrderMark : Char := Char.ofNat 0xFEFF

/-- A line break: carriage return, line feed, next line, line separator, paragraph separator. -/
def isBreak (c : Char) : Bool :=
  c = '\n' || c = '\r' || c.toNat == 0x85 || c.toNat == 0x2028 || c.toNat == 0x2029

def isBreakOrEnd (c : Char) : Bool := isBreak c || c = endOfText

def isSpaceOrEnd (c : Char) : Bool := c = ' ' || isBreakOrEnd c

/-- A space, a tab, a line break or the end of the text. -/
def isBlankOrEnd (c : Char) : Bool := c = '\t' || isSpaceOrEnd c

/-- A letter, a digit, a hyphen or an underscore: the characters of anchors and handles. -/
def isWordChar (c : Char) : Bool :=
  ('0' ≤ c && c ≤ '9') || ('A' ≤ c && c ≤ 'Z') || ('a' ≤ c && c ≤ 'z') || c = '-' || c = '_'

def isTextChar (c : Char) : Bool :=
  let n := c.toNat
  n == 9 || n == 10 || n == 13 || (0x20 ≤ n && n ≤ 0x7E) || n == 0x85 || (0xA0 ≤ n && n ≤ 0xD7FF)
    || (0xE000 ≤ n && n ≤ 0xFFFD) || 0x10000 ≤ n

/-- A place in a text. -/
structure Cursor where
  rest : List Char
  index : Nat := 0
  line : Nat := 0
  column : Nat := 0
  deriving Repr

namespace Cursor

/-- The character `k` places ahead. -/
def peek (c : Cursor) (k : Nat) : Char := c.rest.getD k endOfText

def head (c : Cursor) : Char := c.rest.headD endOfText

/-- The place after the next character.  A carriage return before a line feed does not end the
line. -/
def advance (c : Cursor) : Cursor :=
  match c.rest with
  | [] => c
  | ch :: rest =>
    let ends := isBreak ch && !(ch = '\r' && rest.head? = some '\n')
    { rest
      index := c.index + 1
      line := if ends then c.line + 1 else c.line
      column := if ends then 0 else if ch = byteOrderMark then c.column else c.column + 1 }

/-- The place `k` characters ahead. -/
def skip : Nat → Cursor → Cursor
  | 0, c => c
  | k + 1, c => skip k c.advance

/-- The longest run of characters of the class `p`, and the place after it. -/
def span (p : Char → Bool) (c : Cursor) : List Char × Cursor :=
  let cs := c.rest.takeWhile p
  (cs, c.skip cs.length)

def skipSpaces (c : Cursor) : Cursor := (c.span (· = ' ')).2

/-- The place after a comment that starts here. -/
def skipComment (c : Cursor) : Cursor :=
  if c.head = '#' then (c.span (!isBreak ·)).2 else c

/-- The line break here as it counts in a text, and the place after it. -/
def takeBreak? (c : Cursor) : Option (Char × Cursor) :=
  let ch := c.head
  if ch = '\r' && c.peek 1 = '\n' then some ('\n', c.skip 2)
  else if !isBreak ch then none
  else if ch.toNat = 0x2028 || ch.toNat = 0x2029 then some (ch, c.advance)
  else some ('\n', c.advance)

/-- Whether a document separator (three hyphens or three dots, then a blank) stands here. -/
def atSeparator (c : Cursor) : Bool :=
  let three := c.rest.take 3
  (three = ['-', '-', '-'] || three = ['.', '.', '.']) && isBlankOrEnd (c.peek 3)

end Cursor

end SecretForge.Yaml
