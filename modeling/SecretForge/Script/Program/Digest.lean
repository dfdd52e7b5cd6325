import SecretForge.Script.Program.Arguments

/-!
# The command language: digests

A digest is computed block by block: the message is padded to whole blocks with a one, zeros and its
length in bits, and each block changes a state of a few words.

* `md5`, `sha1`, `sha256` and `sha512` are the digests of byte strings.
* `digestProgram` writes the digests of files.
-/

namespace SecretForge.Script.Digest

open SecretForge.Text

/-- A number as bytes, the least significant first. -/
def littleBytes : Nat → Nat → List UInt8
  | 0, _ => []
  | n + 1, v => (v % 256).toUInt8 :: littleBytes n (v / 256)

def bigNumber (bs : List UInt8) : Nat := bs.foldl (fun n b => n * 256 + b.toNat) 0

/-- A message padded to blocks of a size; the length takes `width` bytes in the order given. -/
def padMessage (size width : Nat) (bigEndian : Bool) (bs : List UInt8) : List UInt8 :=
  let fill := (2 * size - (bs.length + 1 + width) % size) % size
  let count := littleBytes width (bs.length * 8)
  bs ++ 0x80 :: List.replicate fill 0 ++ (if bigEndian then count.reverse else count)

def chunks {α : Type} (size : Nat) : Nat → List α → List (List α)
  | 0, _ => []
  | _, [] => []
  | n + 1, as => as.take size :: chunks size n (as.drop size)

def chunksOf {α : Type} (size : Nat) (as : List α) : List (List α) := chunks size (as.length + 1) as

/-! ### Words of 32 bits -/

/-- A word with its bits moved round to the left. -/
def rotateLeft (x : UInt32) (n : UInt32) : UInt32 := (x <<< n) ||| (x >>> (32 - n))

/-- A word with its bits moved round to the right. -/
def rotateRight (x : UInt32) (n : UInt32) : UInt32 := (x >>> n) ||| (x <<< (32 - n))

/-- The number with the bits of the integer part of a quotient's `root`-th root past the point,
`bits` of them: the start of the words that the digests are made from. -/
def rootBits (root bits n : Nat) : Nat :=
  let target := n * Nat.pow 2 (root * bits)
  let rec grow : Nat → Nat → Nat
    | 0, acc => acc
    | k + 1, acc =>
      let next := acc + Nat.pow 2 k
      if Nat.pow next root ≤ target then grow k next else grow k acc
  grow (bits + 8) 0 % Nat.pow 2 bits

def isPrime (n : Nat) : Bool := (List.range (n - 2)).all fun k => n % (k + 2) ≠ 0

def primes (count : Nat) : List Nat :=
  (((List.range 410).filter fun n => 2 ≤ n && isPrime n)).take count

/-! ### MD5 -/

def md5Table : List UInt32 := [
  0xd76aa478, 0xe8c7b756, 0x242070db, 0xc1bdceee, 0xf57c0faf, 0x4787c62a, 0xa8304613, 0xfd469501,
  0x698098d8, 0x8b44f7af, 0xffff5bb1, 0x895cd7be, 0x6b901122, 0xfd987193, 0xa679438e, 0x49b40821,
  0xf61e2562, 0xc040b340, 0x265e5a51, 0xe9b6c7aa, 0xd62f105d, 0x02441453, 0xd8a1e681, 0xe7d3fbc8,
  0x21e1cde6, 0xc33707d6, 0xf4d50d87, 0x455a14ed, 0xa9e3e905, 0xfcefa3f8, 0x676f02d9, 0x8d2a4c8a,
  0xfffa3942, 0x8771f681, 0x6d9d6122, 0xfde5380c, 0xa4beea44, 0x4bdecfa9, 0xf6bb4b60, 0xbebfbc70,
  0x289b7ec6, 0xeaa127fa, 0xd4ef3085, 0x04881d05, 0xd9d4d039, 0xe6db99e5, 0x1fa27cf8, 0xc4ac5665,
  0xf4292244, 0x432aff97, 0xab9423a7, 0xfc93a039, 0x655b59c3, 0x8f0ccc92, 0xffeff47d, 0x85845dd1,
  0x6fa87e4f, 0xfe2ce6e0, 0xa3014314, 0x4e0811a1, 0xf7537e82, 0xbd3af235, 0x2ad7d2bb, 0xeb86d391]

/-- The state of the digest. -/
abbrev Words4 := UInt32 × UInt32 × UInt32 × UInt32

def md5Step (block : Array UInt32) (s : Words4) (step : Nat × UInt32) : Words4 :=
  let (a, b, c, d) := s
  let (i, k) := step
  let (f, g) : UInt32 × Nat :=
    if i < 16 then ((b &&& c) ||| (~~~b &&& d), i)
    else if i < 32 then ((d &&& b) ||| (~~~d &&& c), (5 * i + 1) % 16)
    else if i < 48 then (b ^^^ c ^^^ d, (3 * i + 5) % 16)
    else (c ^^^ (b ||| ~~~d), (7 * i) % 16)
  let turns : List UInt32 := match i / 16 with
    | 0 => [7, 12, 17, 22]
    | 1 => [5, 9, 14, 20]
    | 2 => [4, 11, 16, 23]
    | _ => [6, 10, 15, 21]
  (d, b + rotateLeft (a + f + k + block.getD g 0) (turns.getD (i % 4) 0), b, c)

def md5Block (s : Words4) (bs : List UInt8) : Words4 :=
  let block := ((chunksOf 4 bs).map fun w => (bigNumber w.reverse).toUInt32).toArray
  let (a, b, c, d) := ((List.range 64).zip md5Table).foldl (md5Step block) s
  (s.1 + a, s.2.1 + b, s.2.2.1 + c, s.2.2.2 + d)

def md5 (bs : List UInt8) : List UInt8 :=
  let (a, b, c, d) := (chunksOf 64 (padMessage 64 8 false bs)).foldl md5Block
    (0x67452301, 0xefcdab89, 0x98badcfe, 0x10325476)
  [a, b, c, d].flatMap fun w => littleBytes 4 w.toNat

/-! ### SHA-1 -/

/-- The state of the digest. -/
abbrev Words5 := UInt32 × UInt32 × UInt32 × UInt32 × UInt32

/-- The words of the 80 steps on a block, from the first sixteen. -/
def sha1Words : Nat → Array UInt32 → Array UInt32
  | 0, w => w
  | n + 1, w =>
    let at_ (k : Nat) : UInt32 := w.getD (w.size - k) 0
    sha1Words n (w.push (rotateLeft (at_ 3 ^^^ at_ 8 ^^^ at_ 14 ^^^ at_ 16) 1))

def sha1Step (s : Words5) (step : Nat × UInt32) : Words5 :=
  let (a, b, c, d, e) := s
  let (i, w) := step
  let (f, k) : UInt32 × UInt32 :=
    if i < 20 then ((b &&& c) ||| (~~~b &&& d), 0x5a827999)
    else if i < 40 then (b ^^^ c ^^^ d, 0x6ed9eba1)
    else if i < 60 then ((b &&& c) ||| (b &&& d) ||| (c &&& d), 0x8f1bbcdc)
    else (b ^^^ c ^^^ d, 0xca62c1d6)
  (rotateLeft a 5 + f + e + k + w, a, rotateLeft b 30, c, d)

def sha1Block (s : Words5) (bs : List UInt8) : Words5 :=
  let first := ((chunksOf 4 bs).map fun w => (bigNumber w).toUInt32).toArray
  let (a, b, c, d, e) := ((List.range 80).zip (sha1Words 64 first).toList).foldl sha1Step s
  (s.1 + a, s.2.1 + b, s.2.2.1 + c, s.2.2.2.1 + d, s.2.2.2.2 + e)

def sha1 (bs : List UInt8) : List UInt8 :=
  let (a, b, c, d, e) := (chunksOf 64 (padMessage 64 8 true bs)).foldl sha1Block
    (0x67452301, 0xefcdab89, 0x98badcfe, 0x10325476, 0xc3d2e1f0)
  [a, b, c, d, e].flatMap fun w => (littleBytes 4 w.toNat).reverse

/-! ### SHA-2 -/

/-- What the two widths of SHA-2 differ in: numbers are taken modulo `2 ^ bits`. -/
structure Sha2 where
  bits : Nat
  rounds : Nat
  /-- The turns of the two sums over the state. -/
  sums : (Nat × Nat × Nat) × (Nat × Nat × Nat)
  /-- The turns, and the last the shift, of the two mixtures of the words. -/
  mixtures : (Nat × Nat × Nat) × (Nat × Nat × Nat)

namespace Sha2

/-- A word with its bits moved round to the right. -/
def turn (h : Sha2) (n x : Nat) : Nat := x >>> n ||| x <<< (h.bits - n) % Nat.pow 2 h.bits

/-- Three turns of a word together. -/
def sum (h : Sha2) (t : Nat × Nat × Nat) (x : Nat) : Nat :=
  h.turn t.1 x ^^^ h.turn t.2.1 x ^^^ h.turn t.2.2 x

/-- Two turns and a shift of a word together. -/
def mixture (h : Sha2) (t : Nat × Nat × Nat) (x : Nat) : Nat :=
  h.turn t.1 x ^^^ h.turn t.2.1 x ^^^ x >>> t.2.2

/-- The words of the steps on a block, from the first sixteen. -/
def words (h : Sha2) : Nat → Array Nat → Array Nat
  | 0, w => w
  | n + 1, w =>
    let at_ (k : Nat) : Nat := w.getD (w.size - k) 0
    h.words n (w.push ((h.mixture h.mixtures.2 (at_ 2) + at_ 7 + h.mixture h.mixtures.1 (at_ 15) + at_ 16)
      % Nat.pow 2 h.bits))

def step (h : Sha2) (s : List Nat) (kw : Nat × Nat) : List Nat :=
  match s with
  | [a, b, c, d, e, f, g, i] =>
    let t := i + h.sum h.sums.2 e + ((e &&& f) ^^^ ((Nat.pow 2 h.bits - 1 - e) &&& g)) + kw.1 + kw.2
    let u := h.sum h.sums.1 a + ((a &&& b) ^^^ (a &&& c) ^^^ (b &&& c))
    [(t + u) % Nat.pow 2 h.bits, a, b, c, (d + t) % Nat.pow 2 h.bits, e, f, g]
  | s => s

def block (h : Sha2) (constants s : List Nat) (bs : List UInt8) : List Nat :=
  let first := ((chunksOf (h.bits / 8) bs).map bigNumber).toArray
  let t := (constants.zip (h.words (h.rounds - 16) first).toList).foldl h.step s
  List.zipWith (fun a b => (a + b) % Nat.pow 2 h.bits) s t

def digest (h : Sha2) (bs : List UInt8) : List UInt8 :=
  let size := h.bits * 2
  let start := (primes 8).map (rootBits 2 h.bits)
  let constants := (primes h.rounds).map (rootBits 3 h.bits)
  let s := (chunksOf size (padMessage size (h.bits / 4) true bs)).foldl (h.block constants) start
  s.flatMap fun w => (littleBytes (h.bits / 8) w).reverse

end Sha2

def sha256 : List UInt8 → List UInt8 := Sha2.digest {
  bits := 32, rounds := 64
  sums := ((2, 13, 22), (6, 11, 25)), mixtures := ((7, 18, 3), (17, 19, 10)) }

def sha512 : List UInt8 → List UInt8 := Sha2.digest {
  bits := 64, rounds := 80
  sums := ((28, 34, 39), (14, 18, 41)), mixtures := ((1, 8, 7), (19, 61, 6)) }

/-- A program that writes digests in hexadecimal, each with the name of the file. -/
def digestProgram (name : String) (digest : List UInt8 → List UInt8) : Program where
  name := name
  letters := "bt"
  names := [("binary", 'b'), ("text", 't')]
  run g operands := do
    let mark := if g.has 'b' then '*' else ' '
    let (_, status) ← withInputs (reportFile name) (fun _ o content => do
      let hex := (digest (Octets.toBytes content)).flatMap fun b => hexDigits hexChar 2 b.toNat
      say (hex ++ [' ', mark] ++ o ++ ['\n'])) () (orInput operands)
    return status

end SecretForge.Script.Digest
