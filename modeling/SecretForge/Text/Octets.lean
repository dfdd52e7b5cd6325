import SecretForge.Text.Utf8

/-!
# Byte strings as characters

Programs exchange bytes, and most bytes that matter to them are ASCII characters.  A byte string is
therefore kept as a list of characters below 256, each standing for the byte of its number; what a
program does with a blank or a quote reads as it does for text.
-/

namespace SecretForge.Text

/-- A byte string, each byte as the character with its number. -/
abbrev Octets := List Char

namespace Octets

def ofBytes (bs : List UInt8) : Octets := bs.map fun b => Char.ofNat b.toNat

def toBytes (o : Octets) : List UInt8 := o.map fun c => c.toNat.toUInt8

def ofString (s : String) : Octets := ofBytes (Utf8.encode s)

/-- The text that the bytes encode; bytes that encode none are replaced. -/
def toString (o : Octets) : String := Utf8.decodeReplacing (toBytes o)

/-- The bytes of each character of the encoded text; a byte of a fault stands alone. -/
def characters (o : Octets) : List Octets :=
  (Utf8.pieces (toBytes o)).flatMap fun
    | .char c => [ofBytes (Utf8.encodeChar c)]
    | .fault _ bytes => bytes.map fun b => [Char.ofNat b.toNat]

/-- The byte string with a function applied to each ASCII character. -/
def mapAscii (f : Char → Char) (o : Octets) : Octets :=
  o.map fun c => if c.toNat < 128 then f c else c

/-- The lines of a byte string, each without its line end, and whether the last of them has one. -/
def lines (o : Octets) : List Octets × Bool :=
  let parts := splitOnNewline o
  match parts.getLast? with
  | some [] => (parts.dropLast, true)
  | _ => (parts, false)
where
  /-- The parts of a byte string between its line ends. -/
  splitOnNewline : Octets → List Octets
    | [] => [[]]
    | c :: cs =>
      match splitOnNewline cs with
      | [] => [[c]]
      | p :: ps => if c = '\n' then [] :: p :: ps else (c :: p) :: ps

/-- Whether one byte string comes before another, byte by byte. -/
def before : Octets → Octets → Bool
  | [], [] => false
  | [], _ :: _ => true
  | _ :: _, [] => false
  | a :: as, b :: bs => if a = b then before as bs else a.toNat < b.toNat

end Octets

end SecretForge.Text
