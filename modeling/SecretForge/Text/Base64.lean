/-!
# Base 64

Three bytes are written as four characters of a 64-letter alphabet, the last group padded with `=`.
Reading skips every character outside the alphabet and stops at the padding.
-/

namespace SecretForge.Text.Base64

def letter (n : Nat) : Char :=
  if n < 26 then Char.ofNat (65 + n)
  else if n < 52 then Char.ofNat (71 + n)
  else if n < 62 then Char.ofNat (n - 4)
  else if n = 62 then '+' else '/'

def value? (c : Char) : Option Nat :=
  if 'A' ≤ c && c ≤ 'Z' then some (c.toNat - 65)
  else if 'a' ≤ c && c ≤ 'z' then some (c.toNat - 71)
  else if '0' ≤ c && c ≤ '9' then some (c.toNat + 4)
  else if c = '+' then some 62
  else if c = '/' then some 63
  else none

def encodeChars : List UInt8 → List Char
  | [] => []
  | [a] =>
    let a := a.toNat
    [letter (a / 4), letter (a % 4 * 16), '=', '=']
  | [a, b] =>
    let a := a.toNat
    let b := b.toNat
    [letter (a / 4), letter (a % 4 * 16 + b / 16), letter (b % 16 * 4), '=']
  | a :: b :: c :: rest =>
    let a := a.toNat
    let b := b.toNat
    let c := c.toNat
    letter (a / 4) :: letter (a % 4 * 16 + b / 16) :: letter (b % 16 * 4 + c / 64)
      :: letter (c % 64) :: encodeChars rest

def encode (bs : List UInt8) : String := String.ofList (encodeChars bs)

/-- Reads letters with `held` bits of `acc` left over from the letters before: `phase` is the number
of letters of the current group of four, `pads` the number of `=` since the last letter.  A group
that lacks letters must be closed by padding. -/
def decodeFrom (phase pads acc : Nat) : List Char → Option (List UInt8)
  | [] => if phase = 0 then some [] else none
  | c :: cs =>
    if c = '=' then
      if 2 ≤ phase && 4 ≤ phase + pads + 1 then some []
      else decodeFrom phase (if 2 ≤ phase then pads + 1 else pads) acc cs
    else match value? c with
      | none => decodeFrom phase pads acc cs
      | some v =>
        match phase with
        | 0 => decodeFrom 1 0 v cs
        | 1 => (decodeFrom 2 0 (v % 16) cs).map ((acc * 4 + v / 16).toUInt8 :: ·)
        | 2 => (decodeFrom 3 0 (v % 4) cs).map ((acc * 16 + v / 4).toUInt8 :: ·)
        | _ => (decodeFrom 0 0 0 cs).map ((acc * 64 + v).toUInt8 :: ·)

/-- The bytes that a text holds in base 64; `none` when its last group is incomplete. -/
def decode (s : String) : Option (List UInt8) := decodeFrom 0 0 0 s.toList

end SecretForge.Text.Base64
