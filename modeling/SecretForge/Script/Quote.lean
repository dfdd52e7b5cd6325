import SecretForge.Text.Octets
import SecretForge.Text.Digit

/-!
# The command language: quoting

A word can be written in ways that read back as the word: with a backslash before each special
character, in single quotes, or with escapes for what cannot be printed.
-/

namespace SecretForge.Script

open SecretForge.Text

/-- The characters that a word cannot hold without quotes. -/
def specials : List Char :=
  [' ', '\t', '\n', '\'', '"', '\\', '|', '&', ';', '(', ')', '<', '>', '!', '{', '}', '*', '[', '?',
    ']', '^', '$', '\x60']

def hasUnprintable (o : Octets) : Bool :=
  (Utf8.pieces (Octets.toBytes o)).any fun
    | .char c => c.toNat < 32 || (127 ≤ c.toNat && c.toNat < 160)
    | .fault _ _ => true

def singleQuoted (o : Octets) : Octets :=
  '\'' :: (o.flatMap fun c => if c = '\'' then ['\'', '\\', '\'', '\''] else [c]) ++ ['\'']

/-- A word in a quotation with escapes. -/
def escapeQuoted (o : Octets) : Octets :=
  '$' :: '\'' :: (o.flatMap fun c =>
    match c.toNat with
    | 7 => ['\\', 'a']
    | 8 => ['\\', 'b']
    | 9 => ['\\', 't']
    | 10 => ['\\', 'n']
    | 11 => ['\\', 'v']
    | 12 => ['\\', 'f']
    | 13 => ['\\', 'r']
    | 27 => ['\\', 'E']
    | n =>
      if c = '\\' || c = '\'' then ['\\', c]
      else if n < 32 || 127 ≤ n then
        ['\\', Char.ofNat (48 + n / 64), Char.ofNat (48 + n / 8 % 8), Char.ofNat (48 + n % 8)]
      else [c]) ++ ['\'']

def backslashQuoted (o : Octets) : Octets :=
  match o with
  | [] => ['\'', '\'']
  | c :: cs =>
    if hasUnprintable o then escapeQuoted o
    else
      let first := if c = '#' || c = '~' then ['\\', c] else plain c
      first ++ cs.flatMap plain
where
  /-- A character after the first. -/
  plain (c : Char) : Octets := if specials.contains c || c = ',' then ['\\', c] else [c]

/-- A word as a trace of commands shows it. -/
def traceQuoted (o : Octets) : Octets :=
  if o.isEmpty then ['\'', '\'']
  else if hasUnprintable o then escapeQuoted o
  else if o.any specials.contains || o.head? = some '#' || o.head? = some '~' then singleQuoted o
  else o

end SecretForge.Script
