/-!
# Blank characters and trimming

Which characters count as blank, and the text that is left when blanks are removed from both ends.
Secrets are registered trimmed, a key file is read trimmed, and so is a project name that another
program prints.
-/

namespace SecretForge.Text

/-- A blank: a space or line separator of any script, or one of the ASCII control characters that
separate text (tab to carriage return, and the four information separators). -/
def isBlank (c : Char) : Bool :=
  let n := c.toNat
  (9 ≤ n && n ≤ 13) || (28 ≤ n && n ≤ 32) || n == 0x85 || n == 0xA0 || n == 0x1680
    || (0x2000 ≤ n && n ≤ 0x200A) || n == 0x2028 || n == 0x2029 || n == 0x202F || n == 0x205F
    || n == 0x3000

def trimChars (cs : List Char) : List Char :=
  ((cs.dropWhile isBlank).reverse.dropWhile isBlank).reverse

def trim (s : String) : String := String.ofList (trimChars s.toList)

/-- Lower-case form of the ASCII letters; every other character is kept. -/
def lowerAscii (s : String) : String := s.map Char.toLower

end SecretForge.Text
