import SecretForge.Text.Digit
import SecretForge.Text.Printable

/-!
# Quoted text

A text or a byte sequence as a quoted literal, for messages that show a value exactly.  The quote is
the apostrophe, unless the text holds apostrophes and no double quotes; what does not print is
escaped.
-/

namespace SecretForge.Text.Quoted

/-- The quote for a text: the double quote exactly when it saves escaping an apostrophe. -/
def quoteFor (cs : List Char) : Char :=
  if cs.contains '\'' && !cs.contains '"' then '"' else '\''

/-- A code point outside the text as an escape of the least width that holds it. -/
def escapeCode (n : Nat) : List Char :=
  if n < 0x100 then '\\' :: 'x' :: hexDigits hexChar 2 n
  else if n < 0x10000 then '\\' :: 'u' :: hexDigits hexChar 4 n
  else '\\' :: 'U' :: hexDigits hexChar 8 n

def escapeChar (q c : Char) : List Char :=
  if c = q || c = '\\' then ['\\', c]
  else if c = '\t' then ['\\', 't']
  else if c = '\n' then ['\\', 'n']
  else if c = '\r' then ['\\', 'r']
  else if isPrintable c then [c]
  else escapeCode c.toNat

/-- A text as a quoted literal. -/
def text (s : String) : String :=
  let q := quoteFor s.toList
  String.ofList (q :: s.toList.flatMap (escapeChar q) ++ [q])

/-- Code points as a quoted literal; half of a surrogate pair, which is no character, is escaped. -/
def codePoints (ns : List Nat) : String :=
  let isHalf (n : Nat) : Bool := 0xD800 ≤ n && n ≤ 0xDFFF
  let q := quoteFor ((ns.filter fun n => !isHalf n).map Char.ofNat)
  String.ofList (q :: ns.flatMap (fun n =>
    if isHalf n then escapeCode n else escapeChar q (Char.ofNat n)) ++ [q])

/-- A byte sequence as a quoted literal after a `b`: printable ASCII as it is, every other byte
escaped. -/
def bytes (bs : List UInt8) : String :=
  let cs := bs.map fun b => Char.ofNat b.toNat
  let q := quoteFor cs
  String.ofList ('b' :: q :: cs.flatMap (fun c =>
    if c.toNat < 127 then escapeChar q c else escapeCode c.toNat) ++ [q])

end SecretForge.Text.Quoted
