import SecretForge.Script.Syntax
import SecretForge.Text.Digit

/-!
# The command language: braces

Before anything else, a word with alternatives in braces stands for several words: one for each
alternative, or for each number or letter of a range.  Braces that hold neither stand for themselves.
-/

namespace SecretForge.Script

open SecretForge.Text

/-- A character without quotes, or a part that braces do not look into. -/
abbrev Atom := Char ⊕ Part

def atoms (w : Word) : List Atom :=
  w.flatMap fun
    | .plain t => t.map .inl
    | p => [.inr p]

def ofAtoms : List Atom → Word
  | [] => []
  | .inl c :: as => Part.before (.plain [c]) (ofAtoms as)
  | .inr p :: as => p :: ofAtoms as

def plainChar? : Atom → Option Char
  | .inl c => some c
  | .inr _ => none

/-- The alternatives up to the closing brace, and what follows it.  `current` is the alternative being
read, the last atom first. -/
def alternatives : Nat → List Atom → List Atom → List (List Atom) →
    Option (List (List Atom) × List Atom)
  | _, [], _, _ => none
  | depth, a :: as, current, done =>
    match plainChar? a with
    | some '{' => alternatives (depth + 1) as (a :: current) done
    | some '}' =>
      match depth with
      | 0 => some ((current.reverse :: done).reverse, as)
      | d + 1 => alternatives d as (a :: current) done
    | some ',' =>
      if depth = 0 then alternatives depth as [] (current.reverse :: done)
      else alternatives depth as (a :: current) done
    | _ => alternatives depth as (a :: current) done

/-- The whole number that a text writes with an optional sign. -/
def signed? (cs : List Char) : Option Int :=
  let (negative, ds) := match cs with
    | '-' :: ds => (true, ds)
    | '+' :: ds => (false, ds)
    | ds => (false, ds)
  if ds.isEmpty || !ds.all Char.isDigit then none
  else
    let n : Nat := ds.foldl (fun acc c => acc * 10 + (c.toNat - 48)) 0
    some (if negative then -(n : Int) else n)

/-- The parts of a range between its pairs of dots. -/
def rangeParts : List Char → List (List Char)
  | [] => [[]]
  | '.' :: '.' :: cs => [] :: rangeParts cs
  | c :: cs =>
    match rangeParts cs with
    | [] => [[c]]
    | p :: ps => (c :: p) :: ps

/-- The numbers from one to another by steps of a size. -/
def span (first last : Int) (step : Nat) : List Int :=
  let count := (last - first).natAbs / step + 1
  (List.range count).map fun k =>
    if first ≤ last then first + (k * step : Nat) else first - (k * step : Nat)

/-- Whether a number is written with a leading zero. -/
def isPadded (cs : List Char) : Bool :=
  match cs with
  | '0' :: _ :: _ => true
  | '-' :: '0' :: _ :: _ => true
  | _ => false

def range? (cs : List Char) : Option (List (List Char)) :=
  let build (a b : List Char) (step : Int) : Option (List (List Char)) :=
    let step := if step = 0 then 1 else step.natAbs
    match signed? a, signed? b with
    | some x, some y =>
      let width := if isPadded a || isPadded b then max a.length b.length else 0
      some ((span x y step).map fun i =>
        let ds := decimalDigits i.natAbs
        if i < 0 then '-' :: (List.replicate (width - 1 - ds.length) '0' ++ ds)
        else List.replicate (width - ds.length) '0' ++ ds)
    | none, none =>
      match a, b with
      | [x], [y] =>
        if x.isAlpha && y.isAlpha then
          some ((span x.toNat y.toNat step).map fun i => [Char.ofNat i.toNat])
        else none
      | _, _ => none
    | _, _ => none
  match rangeParts cs with
  | [a, b] => build a b 1
  | [a, b, c] => (signed? c).bind (build a b)
  | _ => none

/-- The words that a word stands for. -/
def braceWords : Nat → List Atom → List (List Atom)
  | 0, as => [as]
  | _, [] => [[]]
  | n + 1, a :: as =>
    let plainly := (braceWords n as).map (a :: ·)
    match plainChar? a with
    | some '{' =>
      match alternatives 0 as [] [] with
      | none => plainly
      | some ([single], rest) =>
        match (single.mapM plainChar?).bind range? with
        | some words =>
          let ends := braceWords n rest
          words.flatMap fun w => ends.map (w.map .inl ++ ·)
        | none => plainly
      | some (many, rest) =>
        let ends := braceWords n rest
        many.flatMap fun alternative =>
          (braceWords n alternative).flatMap fun w => ends.map (w ++ ·)
    | _ => plainly

def expandBraces (w : Word) : List Word :=
  let as := atoms w
  if as.any (fun a => plainChar? a = some '{') then (braceWords (as.length + 1) as).map ofAtoms
  else [w]

end SecretForge.Script
