import SecretForge.Text.Octets

/-!
# The command language: patterns

A pattern matches a text character by character; a star matches any number of characters, a question
mark one, and brackets one of a set.  A quoted character of a pattern stands for itself.

* `Glob` is an element of a pattern, `Glob.ofMarked` reads a pattern.
* `matchesAll` is the match of a whole text; `dropStart`, `dropEnd` and `replaceMatches` cut matches out.
-/

namespace SecretForge.Script

open SecretForge.Text

/-- An octet and whether it is quoted. -/
abbrev Marked := Char × Bool

/-- An element of a pattern.  Characters are the octets that encode them. -/
inductive Glob where
  | literal (char : Octets)
  | one
  | many
  | set (negated : Bool) (ranges : List (Octets × Octets)) (classes : List String)
  deriving DecidableEq, Repr

/-- Marked octets grouped to characters.  A character is quoted if its first octet is. -/
def markedCharacters (ms : List Marked) : List (Octets × Bool) :=
  go (Octets.characters (ms.map (·.1))) ms
where
  /-- The groups of the given sizes. -/
  go : List Octets → List Marked → List (Octets × Bool)
    | [], _ => []
    | c :: cs, ms => (c, (ms.head?.map (·.2)).getD false) :: go cs (ms.drop c.length)

def unmarked (o : Octets) : List Marked := o.map fun c => (c, false)

/-- Whether an octet that is a character belongs to a named class. -/
def inClass (name : String) (o : Octets) : Bool :=
  match o with
  | [c] =>
    let n := c.toNat
    match name with
    | "alpha" => c.isAlpha
    | "digit" => c.isDigit
    | "alnum" => c.isAlphanum
    | "upper" => c.isUpper
    | "lower" => c.isLower
    | "space" => n = 32 || (9 ≤ n && n ≤ 13)
    | "blank" => n = 32 || n = 9
    | "punct" => 33 ≤ n && n ≤ 126 && !c.isAlphanum
    | "print" => 32 ≤ n && n ≤ 126
    | "graph" => 33 ≤ n && n ≤ 126
    | "cntrl" => n < 32 || n = 127
    | "xdigit" => c.isDigit || ('a' ≤ c && c ≤ 'f') || ('A' ≤ c && c ≤ 'F')
    | "word" => c.isAlphanum || c = '_'
    | "ascii" => n < 128
    | _ => false
  | _ => false

namespace Glob

/-- The name of the class that starts after `[:`, and what follows its end. -/
def className? (cs : List (Octets × Bool)) : Option (String × List (Octets × Bool)) :=
  let name := cs.takeWhile fun c => c.1 ≠ [':']
  match cs.drop name.length with
  | (_, _) :: ([']'], _) :: rest => some (String.ofList (name.flatMap (·.1)), rest)
  | _ => none

/-- The ranges and classes of a set, up to its closing bracket, and what follows it. -/
def setItems : Nat → List (Octets × Bool) → List (Octets × Octets) → List String → Bool →
    Option (List (Octets × Octets) × List String × List (Octets × Bool))
  | 0, _, _, _, _ => none
  | _, [], _, _, _ => none
  | n + 1, (c, isQuoted) :: cs, ranges, classes, isFirst =>
    if c = [']'] && !isQuoted && !isFirst then some (ranges, classes, cs)
    else
      let plain : Option (List (Octets × Octets) × List String × List (Octets × Bool)) :=
        let (c, cs) := match c, isQuoted, cs with
          | ['\\'], false, (d, _) :: ds => (d, ds)
          | _, _, _ => (c, cs)
        match cs with
        | (['-'], false) :: (d, dq) :: rest =>
          if d = [']'] && !dq then setItems n cs (ranges ++ [(c, c)]) classes false
          else setItems n rest (ranges ++ [(c, d)]) classes false
        | _ => setItems n cs (ranges ++ [(c, c)]) classes false
      match c, isQuoted, cs with
      | ['['], false, ([':'], false) :: rest =>
        match className? rest with
        | some (name, after) => setItems n after ranges (classes ++ [name]) false
        | none => plain
      | _, _, _ => plain

def ofCharacters : Nat → List (Octets × Bool) → List Glob
  | 0, _ => []
  | _, [] => []
  | n + 1, (c, true) :: cs => .literal c :: ofCharacters n cs
  | n + 1, (c, false) :: cs =>
    match c, cs with
    | ['*'], _ => .many :: ofCharacters n cs
    | ['?'], _ => .one :: ofCharacters n cs
    | ['\\'], (d, _) :: ds => .literal d :: ofCharacters n ds
    | ['['], _ =>
      let (negated, inner) := match cs with
        | (['!'], false) :: ds => (true, ds)
        | (['^'], false) :: ds => (true, ds)
        | ds => (false, ds)
      match setItems (inner.length + 1) inner [] [] true with
      | some (ranges, classes, rest) => .set negated ranges classes :: ofCharacters n rest
      | none => .literal c :: ofCharacters n cs
    | _, _ => .literal c :: ofCharacters n cs

/-- The pattern that marked octets write. -/
def ofMarked (ms : List Marked) : List Glob :=
  let cs := markedCharacters ms
  ofCharacters (cs.length + 1) cs

def order (o : Octets) : Nat := o.foldl (fun n c => n * 256 + c.toNat) 0

/-- Whether an element that matches one character matches this one. -/
def admits (c : Octets) : Glob → Bool
  | .literal d => c = d
  | .one => true
  | .many => false
  | .set negated ranges classes =>
    (ranges.any (fun r => order r.1 ≤ order c && order c ≤ order r.2)
      || classes.any fun k => inClass k c) != negated

end Glob

/-- The tails of a list, the whole list first. -/
def tails {α : Type} : List α → List (List α)
  | [] => [[]]
  | a :: as => (a :: as) :: tails as

def matchesAll : List Glob → List Octets → Bool
  | [], s => s.isEmpty
  | .many :: ps, s => (tails s).any (matchesAll ps)
  | p :: ps, s =>
    match s with
    | [] => false
    | c :: cs => p.admits c && matchesAll ps cs

/-- The lengths of the starts of a text that a pattern matches, in ascending order. -/
def matchLengths (p : List Glob) (s : List Octets) : List Nat :=
  (List.range (s.length + 1)).filter fun k => matchesAll p (s.take k)

/-- The text without the shortest or longest start that the pattern matches. -/
def dropStart (longest : Bool) (p : List Glob) (o : Octets) : Octets :=
  let s := Octets.characters o
  let found := matchLengths p s
  match if longest then found.getLast? else found.head? with
  | some k => (s.drop k).flatten
  | none => o

/-- The text without the shortest or longest end that the pattern matches. -/
def dropEnd (longest : Bool) (p : List Glob) (o : Octets) : Octets :=
  let s := Octets.characters o
  let found := (List.range (s.length + 1)).filter fun k => matchesAll p (s.drop k)
  match if longest then found.head? else found.getLast? with
  | some k => (s.take k).flatten
  | none => o

/-- A text with the longest matches replaced, the first one or each of them; a match takes at least one
character. -/
def replaceMatches (all : Bool) (p : List Glob) (r : Octets) : Nat → List Octets → Octets
  | 0, s => s.flatten
  | _, [] => []
  | n + 1, c :: cs =>
    match ((matchLengths p (c :: cs)).filter (0 < ·)).getLast? with
    | none => c ++ replaceMatches all p r n cs
    | some k =>
      let after := (c :: cs).drop k
      r ++ (if all then replaceMatches all p r n after else after.flatten)

end SecretForge.Script
