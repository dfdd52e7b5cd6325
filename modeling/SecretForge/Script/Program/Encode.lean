import SecretForge.Script.Program.Digest
import SecretForge.Text.Base64

/-!
# The command language: other spellings of octets

These programs write octets in base 64 or as numbers.

* `base64` writes and reads base 64, `od` writes numbers in rows.
-/

namespace SecretForge.Script.Encode

open SecretForge.Text
open SecretForge.Script.Digest (chunksOf)

/-! ### Base 64 -/

/-- Text cut into lines of a width; none if the width is zero. -/
def wrapped (width : Nat) (o : Octets) : Octets :=
  if width = 0 then o else (chunksOf width o).flatMap (· ++ ['\n'])

/-- The bytes of a group of four letters as far as it is right, and whether all of it is. -/
def groupBytes (cs : Octets) : List UInt8 × Bool :=
  let first (a b : Nat) : UInt8 := (a * 4 + b / 16).toUInt8
  let second (b c : Nat) : UInt8 := (b % 16 * 16 + c / 4).toUInt8
  match cs.map fun c => (c, Base64.value? c) with
  | (_, some a) :: (_, some b) :: rest =>
    match rest with
    | [('=', _), ('=', _)] => ([first a b], true)
    | (_, some c) :: rest =>
      match rest with
      | [('=', _)] => ([first a b, second b c], true)
      | [(_, some d)] => ([first a b, second b c, (c % 4 * 64 + d).toUInt8], true)
      | _ => ([first a b, second b c], false)
    | _ => ([first a b], false)
  | _ => ([], false)

/-- The bytes of groups up to the first wrong one, and whether all are right. -/
def groupsBytes : List Octets → List UInt8 × Bool
  | [] => ([], true)
  | g :: gs =>
    match groupBytes g with
    | (bs, false) => (bs, false)
    | (bs, true) =>
      let (more, isRight) := groupsBytes gs
      (bs ++ more, isRight)

def base64 : Program where
  name := "base64"
  letters := "diw:"
  names := [("decode", 'd'), ("ignore-garbage", 'i'), ("wrap", 'w')]
  run g operands := do
    match operands with
    | _ :: extra :: _ => misuse "base64" [text "extra operand " ++ quoteMarks extra] 1
    | _ =>
      let width := (g.value? 'w').map naturalOf?
      if width = some none then
        remark "base64" (text "invalid wrap size: " ++ quoteMarks ((g.value? 'w').getD []))
        return 1
      else
        let (content, status) ← takeInput (fun o f => match f with
          | .isADirectory => remark "base64" (text s!"read error: {f.text}")
          | _ => reportFile "base64" o f) operands
        if status ≠ 0 then return 1
        if g.has 'd' then
          let letters := content.filter fun c =>
            if g.has 'i' then c = '=' || (Base64.value? c).isSome else c ≠ '\n'
          let (bs, isRight) := groupsBytes (chunksOf 4 letters)
          say (Octets.ofBytes bs)
          if isRight then return 0
          else
            remark "base64" (text "invalid input")
            return 1
        else
          say (wrapped ((width.bind id).getD 76) (Base64.encodeChars (Octets.toBytes content)))
          return 0

/-! ### Numbers in rows -/

inductive RowForm where
  /-- Numbers of a size in octets and of a base. -/
  | number (size base : Nat)
  | character
  deriving DecidableEq, Repr

/-- The digits that the largest number of a size has. -/
def RowForm.width : RowForm → Nat
  | .number size base => (Nat.toDigits base (Nat.pow 256 size - 1)).length
  | .character => 3

/-- The number of octets that one field of a row shows. -/
def RowForm.size : RowForm → Nat
  | .number size _ => size
  | .character => 1

def characterCell (c : Char) : Octets :=
  match c.toNat with
  | 0 => ['\\', '0']
  | 7 => ['\\', 'a']
  | 8 => ['\\', 'b']
  | 9 => ['\\', 't']
  | 10 => ['\\', 'n']
  | 11 => ['\\', 'v']
  | 12 => ['\\', 'f']
  | 13 => ['\\', 'r']
  | n => if 32 ≤ n && n < 127 then [c] else (Nat.toDigits 8 (n + 512)).drop 1

def RowForm.row (f : RowForm) (o : Octets) : Octets :=
  match f with
  | .character => o.flatMap fun c => paddedLeft 4 (characterCell c)
  | .number size base => (chunksOf size o).flatMap fun w =>
    let digits := Nat.toDigits base (w.reverse.foldl (fun n c => n * 256 + c.toNat) 0)
    if base = 10 then paddedLeft (f.width + 1) digits
    else ' ' :: List.replicate (f.width - digits.length) '0' ++ digits

def rowForm? (o : Octets) : Option RowForm :=
  match o with
  | ['c'] => some .character
  | c :: size =>
    let base := match c with
      | 'x' => 16
      | 'o' => 8
      | 'u' | 'd' => 10
      | _ => 0
    let size := if size.isEmpty then some 4 else naturalOf? size
    match base, size with
    | 0, _ => none
    | b, some n => if [1, 2, 4, 8].contains n then some (.number n b) else none
    | _, none => none
  | [] => none

/-- Rows with their addresses; rows that repeat the one before are shown as a star. -/
def rows (address : Nat → Octets) (all : Bool) (f : RowForm) :
    Nat → Option Octets → Bool → List Octets → Octets
  | n, _, _, [] => address n
  | n, last, starred, r :: rs =>
    if !all && last = some r && !rs.isEmpty then
      (if starred then [] else ['*', '\n']) ++ rows address all f (n + r.length) last true rs
    else
      address n ++ f.row r ++ ['\n'] ++ rows address all f (n + r.length) (some r) false rs

def od : Program where
  name := "od"
  letters := "A:t:N:j:vcxobdw:"
  names := [("address-radix", 'A'), ("format", 't'), ("read-bytes", 'N'), ("skip-bytes", 'j'),
    ("output-duplicates", 'v'), ("width", 'w')]
  run g operands := do
    let form := (g.filterMap fun (c, o) => match c with
      | 't' => rowForm? o
      | 'c' => some .character
      | 'x' => some (.number 2 16)
      | 'o' => some (.number 2 8)
      | 'b' => some (.number 1 8)
      | 'd' => some (.number 2 10)
      | _ => none).getLast?.getD (.number 2 8)
    let base := match (g.value? 'A').getD ['o'] with
      | ['x'] => some 16
      | ['d'] => some 10
      | ['n'] => none
      | _ => some 8
    let address (n : Nat) : Octets := match base with
      | none => []
      | some b =>
        let digits := Nat.toDigits b n
        List.replicate ((if b = 16 then 6 else 7) - digits.length) '0' ++ digits
    let (content, status) ← takeInput (reportFile "od") operands
    let content := content.drop (((g.value? 'j').bind naturalOf?).getD 0)
    let content := match (g.value? 'N').bind naturalOf? with
      | some n => content.take n
      | none => content
    let size := max 1 (((g.value? 'w').bind naturalOf?).getD 16)
    let body := rows address (g.has 'v') form 0 none false (chunksOf size content)
    say (body ++ (if base.isNone then [] else ['\n']))
    return status

end SecretForge.Script.Encode
