import SecretForge.Text.Digit

/-!
# UTF-8

Encoding is total.  Decoding reads one character at a time; a sequence that encodes no character is a
fault that spans the longest prefix which could still have begun one.  What becomes of a fault is the
reader's choice: refuse the text (`decode`), put the replacement character in its place
(`decodeReplacing`), or spell its bytes out (`decodeEscaping`).
-/

namespace SecretForge.Text.Utf8

/-- Why a byte sequence encodes no character. -/
inductive Reason where
  /-- The first byte begins no character. -/
  | invalidStart
  /-- A later byte does not continue the character. -/
  | invalidContinuation
  /-- The text ends inside the character. -/
  | unexpectedEnd
  deriving DecidableEq, Repr

def encodeChar (c : Char) : List UInt8 :=
  let n := c.toNat
  if n < 0x80 then [n.toUInt8]
  else if n < 0x800 then [(0xC0 + n / 64).toUInt8, (0x80 + n % 64).toUInt8]
  else if n < 0x10000 then
    [(0xE0 + n / 4096).toUInt8, (0x80 + n / 64 % 64).toUInt8, (0x80 + n % 64).toUInt8]
  else
    [(0xF0 + n / 262144).toUInt8, (0x80 + n / 4096 % 64).toUInt8, (0x80 + n / 64 % 64).toUInt8,
      (0x80 + n % 64).toUInt8]

def encode (s : String) : List UInt8 := s.toList.flatMap encodeChar

/-- Whether a byte continues a character. -/
def isTail (b : Nat) : Bool := 0x80 ≤ b && b ≤ 0xBF

/-- How many bytes follow the first byte of a character, and the range of the byte right after it;
`none` for a byte that begins no character. -/
def lead? (b : Nat) : Option (Nat × Nat × Nat) :=
  if b < 0x80 then some (0, 0, 0)
  else if b < 0xC2 then none
  else if b < 0xE0 then some (1, 0x80, 0xBF)
  else if b = 0xE0 then some (2, 0xA0, 0xBF)
  else if b = 0xED then some (2, 0x80, 0x9F)
  else if b < 0xF0 then some (2, 0x80, 0xBF)
  else if b = 0xF0 then some (3, 0x90, 0xBF)
  else if b < 0xF4 then some (3, 0x80, 0xBF)
  else if b = 0xF4 then some (3, 0x80, 0x8F)
  else none

/-- One step of decoding: the character read, or the reason there is none; and the number of bytes
that the character or the fault takes. -/
def step (b : UInt8) (rest : List UInt8) : Except Reason Char × Nat :=
  match lead? b.toNat, rest.map UInt8.toNat with
  | none, _ => (.error .invalidStart, 1)
  | some (0, _), _ => (.ok (Char.ofNat b.toNat), 1)
  | some _, [] => (.error .unexpectedEnd, 1)
  | some (1, lo, hi), x :: _ =>
    if lo ≤ x && x ≤ hi then (.ok (Char.ofNat ((b.toNat - 0xC0) * 64 + (x - 0x80))), 2)
    else (.error .invalidContinuation, 1)
  | some (2, lo, hi), x :: ys =>
    if !(lo ≤ x && x ≤ hi) then (.error .invalidContinuation, 1)
    else match ys with
      | [] => (.error .unexpectedEnd, 2)
      | y :: _ =>
        if isTail y then
          (.ok (Char.ofNat ((b.toNat - 0xE0) * 4096 + (x - 0x80) * 64 + (y - 0x80))), 3)
        else (.error .invalidContinuation, 2)
  | some (_, lo, hi), x :: ys =>
    if !(lo ≤ x && x ≤ hi) then (.error .invalidContinuation, 1)
    else match ys with
      | [] => (.error .unexpectedEnd, 2)
      | y :: zs =>
        if !isTail y then (.error .invalidContinuation, 2)
        else match zs with
          | [] => (.error .unexpectedEnd, 3)
          | z :: _ =>
            if isTail z then
              (.ok (Char.ofNat ((b.toNat - 0xF0) * 262144 + (x - 0x80) * 4096 + (y - 0x80) * 64
                + (z - 0x80))), 4)
            else (.error .invalidContinuation, 3)

/-- A stretch of the bytes: a character, or the bytes of a fault with its reason. -/
inductive Piece where
  | char (c : Char)
  | fault (reason : Reason) (bytes : List UInt8)
  deriving DecidableEq, Repr

/-- The pieces of a byte sequence, in order.  `skip` counts the bytes that belong to the piece before
them. -/
def piecesFrom : Nat → List UInt8 → List Piece
  | _, [] => []
  | skip + 1, _ :: rest => piecesFrom skip rest
  | 0, b :: rest =>
    match step b (rest.take 3) with
    | (.ok c, n) => .char c :: piecesFrom (n - 1) rest
    | (.error r, n) => .fault r (b :: rest.take (n - 1)) :: piecesFrom (n - 1) rest

/-- The pieces of a byte sequence, in order. -/
def pieces (bs : List UInt8) : List Piece := piecesFrom 0 bs

/-- The first fault of a decoding: its offset, its bytes and its reason. -/
structure Fault where
  offset : Nat
  bytes : List UInt8
  reason : Reason
  deriving DecidableEq, Repr

/-- The characters of the pieces up to the first fault, which starts at the offset reached. -/
def charsOf : Nat → List Piece → Except Fault (List Char)
  | _, [] => .ok []
  | offset, .char c :: ps => (charsOf (offset + (encodeChar c).length) ps).map (c :: ·)
  | offset, .fault r bs :: _ => .error ⟨offset, bs, r⟩

/-- The text that the bytes encode, or the first fault. -/
def decode (bs : List UInt8) : Except Fault String := (charsOf 0 (pieces bs)).map String.ofList

/-- The text that the bytes encode, with the replacement character in place of each fault. -/
def decodeReplacing (bs : List UInt8) : String :=
  String.ofList ((pieces bs).map fun
    | .char c => c
    | .fault _ _ => Char.ofNat 0xFFFD)

/-- The text that the bytes encode, with each byte of a fault spelled as a backslash, an `x` and two
hexadecimal digits. -/
def decodeEscaping (bs : List UInt8) : String :=
  String.ofList ((pieces bs).flatMap fun
    | .char c => [c]
    | .fault _ bytes => bytes.flatMap fun b => '\\' :: 'x' :: hexDigits hexChar 2 b.toNat)

/-- What went wrong, in words. -/
def Reason.message : Reason → String
  | .invalidStart => "invalid start byte"
  | .invalidContinuation => "invalid continuation byte"
  | .unexpectedEnd => "unexpected end of data"

/-- The report of a fault: the byte or the range of offsets concerned, and the reason. -/
def Fault.message (f : Fault) : String :=
  let place := match f.bytes with
    | [b] => s!"byte 0x{String.ofList (hexDigits hexChar 2 b.toNat)} in position {f.offset}"
    | bs => s!"bytes in position {f.offset}-{f.offset + bs.length - 1}"
  s!"'utf-8' codec can't decode {place}: {f.reason.message}"

end SecretForge.Text.Utf8
