import SecretForge.Tree
import SecretForge.Yaml.Tag

/-!
# Writing YAML

A tree of texts, lists and mappings in block style: one member to a line, two columns of indentation
for each mapping inside another, none for a list inside a mapping.  A text is written plain where it
reads back as the same text, else in single quotes, and in double quotes when it needs escapes.  A
line that has grown beyond 80 columns is broken at the next single space, or in double quotes also
after an escape.  A key that is empty, has line breaks or is too long gets a line of its own behind a
question mark.
-/

namespace SecretForge.Yaml

open SecretForge.Text

namespace Render

/-- The column beyond which a line is broken. -/
def width : Nat := 80

/-- A line break followed by the indentation of the next line. -/
def newLine (indent : Nat) : List Char := '\n' :: List.replicate indent ' '

/-! ### What a text allows -/

/-- A character that can only be written as an escape. -/
def isSpecial (c : Char) : Bool := !(c = '\n' || (' ' ≤ c && c ≤ '~'))

/-- Whether a text starts with a document separator. -/
def startsSeparator (cs : List Char) : Bool :=
  startsWith ['-', '-', '-'] cs || startsWith ['.', '.', '.'] cs

/-- Whether the first character, followed by `rest`, would be read as an indicator. -/
def leadingIndicator (c : Char) (rest : List Char) : Bool :=
  ['#', ',', '[', ']', '\x7b', '\x7d', '&', '*', '!', '|', '>', '\'', '"', '%', '@', '\x60'].contains c
    || ((c = '?' || c = ':' || c = '-') && isBlankOrEnd (rest.headD endOfText))

/-- Whether a character after the first would be read as an indicator: a colon before a blank, or a
number sign after one. -/
def innerIndicator : Char → List Char → Bool
  | _, [] => false
  | previous, c :: rest =>
    (c = ':' && isBlankOrEnd (rest.headD endOfText)) || (c = '#' && isBlankOrEnd previous)
      || innerIndicator c rest

/-- Whether two characters with the given classes stand next to each other. -/
def adjacent (p q : Char → Bool) : List Char → Bool
  | a :: b :: rest => (p a && q b) || adjacent p q (b :: rest)
  | _ => false

/-- Whether a text may be written plain, as far as its characters go. -/
def allowsPlain (cs : List Char) : Bool :=
  match cs with
  | [] => true
  | c :: rest =>
    !(startsSeparator cs || leadingIndicator c rest || innerIndicator c rest
      || cs.any isSpecial || cs.contains '\n' || c = ' ' || cs.getLast? = some ' ')

/-- Whether a text may be written in single quotes: no escapes, and no space beside a line break. -/
def allowsSingle (cs : List Char) : Bool :=
  !(cs.any isSpecial || adjacent (· = '\n') (· = ' ') cs || adjacent (· = ' ') (· = '\n') cs)

/-- How a text is written. -/
inductive Style where
  | plain
  | single
  | double
  deriving DecidableEq, Repr

def isTextBreak (c : Char) : Bool :=
  c = '\n' || c.toNat == 0x85 || c.toNat == 0x2028 || c.toNat == 0x2029

/-- The style of a text; `key` is set for a key that stands on one line with its value. -/
def style (key : Bool) (s : String) : Style :=
  let cs := s.toList
  if allowsPlain cs && Tag.ofPlain s = .text then .plain
  else if allowsSingle cs && !(key && cs.any isTextBreak) then .single
  else .double

/-- Whether a key stands on one line with its value: it is neither empty nor too long, and has no line
breaks. -/
def isSimpleKey (s : String) : Bool :=
  let cs := s.toList
  !cs.isEmpty && cs.length < 123 && !cs.any isTextBreak

/-! ### Texts -/

/-- The rest of a plain text from a column on.  `spaced` says whether a space comes right before. -/
def plainText (split : Bool) (indent : Nat) : Nat → Bool → List Char → List Char
  | _, _, [] => []
  | column, spaced, c :: rest =>
    if c = ' ' && split && !spaced && rest.head? ≠ some ' ' && width < column then
      newLine indent ++ plainText split indent indent true rest
    else c :: plainText split indent (column + 1) (c = ' ') rest

/-- The rest of a text in single quotes from a column on, with the closing quote.  `before` is the
character right before, if any.  A line break is doubled once for each run of them. -/
def singleText (split : Bool) (indent : Nat) : Nat → Option Char → List Char → List Char
  | _, _, [] => ['\'']
  | column, before, c :: rest =>
    if c = '\'' then '\'' :: '\'' :: singleText split indent (column + 2) (some c) rest
    else if c = '\n' then
      let first := if before = some '\n' then ['\n'] else ['\n', '\n']
      if rest.head? = some '\n' then first ++ singleText split indent 0 (some c) rest
      else
        first ++ List.replicate indent ' ' ++ singleText split indent indent (some c) rest
    else if c = ' ' && split && before.isSome && before ≠ some ' ' && !rest.isEmpty
        && rest.head? ≠ some ' ' && width < column then
      newLine indent ++ singleText split indent indent (some c) rest
    else c :: singleText split indent (column + 1) (some c) rest

def escapeLetter? (c : Char) : Option Char :=
  match c with
  | '\x00' => some '0'
  | '\x07' => some 'a'
  | '\x08' => some 'b'
  | '\t' => some 't'
  | '\n' => some 'n'
  | '\x0b' => some 'v'
  | '\x0c' => some 'f'
  | '\r' => some 'r'
  | '\x1b' => some 'e'
  | '"' => some '"'
  | '\\' => some '\\'
  | '\u0085' => some 'N'
  | '\u00a0' => some '_'
  | '\u2028' => some 'L'
  | '\u2029' => some 'P'
  | _ => none

/-- The escape of a character, if it needs one in double quotes. -/
def escape? (c : Char) : Option (List Char) :=
  if ' ' ≤ c && c ≤ '~' && c ≠ '"' && c ≠ '\\' then none
  else match escapeLetter? c with
    | some l => some ['\\', l]
    | none =>
      let n := c.toNat
      some (if n < 0x100 then '\\' :: 'x' :: hexDigits hexCharUpper 2 n
        else if n < 0x10000 then '\\' :: 'u' :: hexDigits hexCharUpper 4 n
        else '\\' :: 'U' :: hexDigits hexCharUpper 8 n)

/-- A line break inside double quotes before `next`: a space that would start the next line is
escaped.  With the break comes the column after it. -/
def doubleBreak (indent : Nat) (next : Option Char) : List Char × Nat :=
  if next = some ' ' then ('\\' :: newLine indent ++ ['\\'], indent + 1)
  else ('\\' :: newLine indent, indent)

/-- The rest of a text in double quotes from a column on, with the closing quote.  `first` says
whether no character comes before, and `resumed` whether an escape comes right before. -/
def doubleText (split : Bool) (indent : Nat) : Nat → Bool → Bool → List Char → List Char
  | _, _, _, [] => ['"']
  | column, first, resumed, c :: rest =>
    let inner := split && !first && !rest.isEmpty
    match escape? c with
    | some e =>
      let column := column + e.length
      if inner && width + 1 < column then
        let (gap, column) := doubleBreak indent rest.head?
        e ++ gap ++ doubleText split indent column false true rest
      else e ++ doubleText split indent column false true rest
    | none =>
      if inner && (c = ' ' || resumed) && width < column then
        let (gap, column) := doubleBreak indent (some c)
        gap ++ c :: doubleText split indent (column + 1) false false rest
      else c :: doubleText split indent (column + 1) false false rest

/-- A text that starts at a column inside a block of the given indentation. -/
def text (key : Bool) (indent column : Nat) (s : String) : List Char :=
  match style key s with
  | .plain => plainText (!key) indent column false s.toList
  | .single => '\'' :: singleText (!key) indent (column + 1) none s.toList
  | .double => '"' :: doubleText (!key) indent (column + 1) true false s.toList

/-! ### Collections -/

mutual

/-- A tree after the indicator that ends at a column, inside a block of the given indentation.  After
a key with its colon a collection starts on the next line. -/
def after (indent column : Nat) (afterKey : Bool) : Tree → List Char
  | .text s => ' ' :: text false (indent + 2) (column + 1) s
  | .list ts =>
    if ts.isEmpty then [' ', '[', ']']
    else if afterKey then items indent (newLine indent) ts
    else items (indent + 2) [' '] ts
  | .map es =>
    if es.isEmpty then [' ', '\x7b', '\x7d']
    else if afterKey then entries (indent + 2) (newLine (indent + 2)) es
    else entries (indent + 2) [' '] es

/-- The members of a list at an indentation, the first of which comes after `gap`. -/
def items (indent : Nat) (gap : List Char) : List Tree → List Char
  | [] => []
  | t :: ts => gap ++ '-' :: after indent (indent + 1) false t ++ items indent (newLine indent) ts

/-- The entries of a mapping at an indentation, the first of which comes after `gap`. -/
def entries (indent : Nat) (gap : List Char) : List (String × Tree) → List Char
  | [] => []
  | (k, t) :: es =>
    let line :=
      if isSimpleKey k then
        let key := text true (indent + 2) indent k
        key ++ ':' :: after indent (indent + key.length + 1) true t
      else
        '?' :: ' ' :: text false (indent + 2) (indent + 2) k ++ newLine indent
          ++ ':' :: after indent (indent + 1) false t
    gap ++ line ++ entries indent (newLine indent) es

end

def document : Tree → List Char
  | .text s => text false 2 0 s ++ ['\n']
  | .list ts => if ts.isEmpty then ['[', ']', '\n'] else items 0 [] ts ++ ['\n']
  | .map es => if es.isEmpty then ['\x7b', '\x7d', '\n'] else entries 0 [] es ++ ['\n']

end Render

def render (t : Tree) : String := String.ofList (Render.document t)

end SecretForge.Yaml
