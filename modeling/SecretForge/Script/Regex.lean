import SecretForge.Script.Glob
import SecretForge.Script.Word

/-!
# The command language: regular expressions

A regular expression is matched character by character.  Of the matches at a place the longest is
taken, and of those the one that the operators try first.  In the basic syntax the operators of groups,
alternatives and repetitions are written with a backslash, in the extended syntax without one.

* `Regex` is a regular expression, `Regex.read` reads one.
* `ends` are the ways to match at a place, `Regex.search` the first place where one matches.
-/

namespace SecretForge.Script

open SecretForge.Text

/-- A regular expression over characters given by their octets. -/
inductive Regex where
  | empty
  | element (g : Glob)
  | atStart
  | atEnd
  | wordEdge
  | again (group : Nat)
  | group (index : Nat) (inner : Regex)
  | sequence (first second : Regex)
  | either (first second : Regex)
  | times (inner : Regex) (least : Nat) (most : Option Nat)
  deriving Repr

/-! ### Reading -/

/-- What is left of a regular expression to read, and the number of groups read. -/
structure RegexSource where
  rest : List (Octets × Bool)
  groups : Nat := 0

/-- A step of reading a regular expression; a wrong one has no value. -/
abbrev RegexScan := StateT RegexSource Option

namespace Regex

/-- What comes next, as an operator if it is one: a character that is not quoted, with whether a
backslash stands before it, and the number of characters of both. -/
def peek : RegexScan (Option (Octets × Bool × Nat)) := do
  match (← get).rest with
  | (['\\'], false) :: (c, _) :: _ => return some (c, true, 2)
  | (c, false) :: _ => return some (c, false, 1)
  | _ => return none

def pass (n : Nat) : RegexScan Unit := modify fun s => { s with rest := s.rest.drop n }

/-- The bounds of a repetition, after its opening brace. -/
def bounds (extended : Bool) : RegexScan (Nat × Option Nat) := do
  let text := (← get).rest.takeWhile fun c => c.1 ≠ ['}'] && c.1 ≠ ['\\']
  let digits := text.flatMap (·.1)
  pass (text.length + (if extended then 1 else 2))
  let first := digits.takeWhile Char.isDigit
  let least := (leadingValue 10 first.length first).1
  match digits.drop first.length with
  | [] => return (least, some least)
  | [','] => return (least, none)
  | _ :: rest => return (least, some (leadingValue 10 rest.length rest).1)

mutual

def readEither (extended : Bool) : Nat → RegexScan Regex
  | 0 => failure
  | n + 1 => do
    let first ← readSequence extended n true
    match ← peek with
    | some (['|'], escaped, k) =>
      if escaped ≠ extended then
        pass k
        return .either first (← readEither extended n)
      else return first
    | _ => return first

def readSequence (extended : Bool) : Nat → Bool → RegexScan Regex
  | 0, _ => failure
  | n + 1, isFirst => do
    if (← get).rest.isEmpty then return .empty
    else match ← peek with
      | some (['|'], escaped, _) =>
        if escaped ≠ extended then return .empty else readMore extended n isFirst
      | some ([')'], escaped, _) =>
        if escaped ≠ extended then return .empty else readMore extended n isFirst
      | _ => readMore extended n isFirst

/-- An element with its repetitions, and what follows. -/
def readMore (extended : Bool) : Nat → Bool → RegexScan Regex
  | 0, _ => failure
  | n + 1, isFirst => do
    let a ← readAtom extended n isFirst
    let a ← readTimes extended n a
    match a, isFirst with
    | .atStart, true => return .sequence a (← readSequence extended n (!extended))
    | _, _ => return .sequence a (← readSequence extended n false)

def readTimes (extended : Bool) : Nat → Regex → RegexScan Regex
  | 0, _ => failure
  | n + 1, a => do
    match ← peek with
    | some (['*'], false, k) =>
      match a, extended with
      | .atStart, false => return a
      | _, _ =>
        pass k
        readTimes extended n (.times a 0 none)
    | some (['+'], escaped, k) =>
      if escaped ≠ extended then
        pass k
        readTimes extended n (.times a 1 none)
      else return a
    | some (['?'], escaped, k) =>
      if escaped ≠ extended then
        pass k
        readTimes extended n (.times a 0 (some 1))
      else return a
    | some (['{'], escaped, k) =>
      if escaped ≠ extended then
        pass k
        let (least, most) ← bounds extended
        readTimes extended n (.times a least most)
      else return a
    | _ => return a

def readAtom (extended : Bool) : Nat → Bool → RegexScan Regex
  | 0, _ => failure
  | n + 1, isFirst => do
    match (← get).rest with
    | [] => return .empty
    | (c, true) :: _ =>
      pass 1
      return .element (.literal c)
    | (c, false) :: rest =>
      match ← peek with
      | some (['('], escaped, k) =>
        if escaped ≠ extended then
          pass k
          let index := (← get).groups + 1
          modify fun s => { s with groups := index }
          let inner ← readEither extended n
          match ← peek with
          | some ([')'], _, k) =>
            pass k
            return .group index inner
          | _ => failure
        else
          pass k
          return .element (.literal ['('])
      | some (d, true, k) =>
        pass k
        match d with
        | ['b'] => return .wordEdge
        | ['<'] => return .wordEdge
        | ['>'] => return .wordEdge
        | ['w'] => return .element (.set false [] ["word"])
        | ['W'] => return .element (.set true [] ["word"])
        | ['s'] => return .element (.set false [] ["space"])
        | ['S'] => return .element (.set true [] ["space"])
        | [x] =>
          if x.isDigit && x ≠ '0' then return .again (x.toNat - 48)
          else return .element (.literal d)
        | _ => return .element (.literal d)
      | _ =>
        match c with
        | ['.'] =>
          pass 1
          return .element .one
        | ['^'] =>
          pass 1
          return if isFirst || extended then .atStart else .element (.literal c)
        | ['$'] =>
          pass 1
          let ends := match rest with
            | [] => true
            | (['\\'], false) :: ([x], _) :: _ => x = ')' || x = '|'
            | _ => false
          return if extended || ends then .atEnd else .element (.literal c)
        | ['['] =>
          let (negated, inner) := match rest with
            | (['^'], false) :: ds => (true, ds)
            | ds => (false, ds)
          let inner := inner.map fun (d, q) => (d, q || d = ['\\'])
          match Glob.setItems (inner.length + 1) inner [] [] true with
          | some (ranges, classes, after) =>
            modify fun s => { s with rest := s.rest.drop (s.rest.length - after.length) }
            return .element (.set negated ranges classes)
          | none => failure
        | _ =>
          pass 1
          return .element (.literal c)

end

/-- The regular expression that a text writes. -/
def read (extended : Bool) (cs : List (Octets × Bool)) : Option Regex :=
  match (readEither extended (8 * cs.length + 16)).run { rest := cs } with
  | some (r, s) => if s.rest.isEmpty then some r else none
  | none => none

end Regex

/-! ### Matching -/

/-- A place in a text: what comes before it, the last character first, what comes after it, and where
the groups matched. -/
structure Spot where
  before : List Octets
  after : List Octets
  groups : List (Nat × List Octets) := []

def isWordChar (c : Option Octets) : Bool := c.any (inClass "word")

/-- The spots where a match that starts at a spot can end, in the order they are tried. -/
def ends : Nat → Regex → Spot → List Spot
  | 0, _, _ => []
  | n + 1, r, s =>
    match r with
    | .empty => [s]
    | .element g =>
      match s.after with
      | [] => []
      | c :: cs => if g.admits c then [{ s with before := c :: s.before, after := cs }] else []
    | .atStart => if s.before.isEmpty then [s] else []
    | .atEnd => if s.after.isEmpty then [s] else []
    | .wordEdge => if isWordChar s.before.head? ≠ isWordChar s.after.head? then [s] else []
    | .again k =>
      let text := (s.groups.lookup k).getD []
      if text.isPrefixOf s.after then
        [{ s with before := text.reverse ++ s.before, after := s.after.drop text.length }]
      else []
    | .group k inner =>
      (ends n inner s).map fun t =>
        { t with
          groups := (k, s.after.take (s.after.length - t.after.length)) :: t.groups }
    | .sequence a b => (ends n a s).flatMap (ends n b)
    | .either a b => ends n a s ++ ends n b s
    | .times a least most =>
      if most = some 0 then [s]
      else
        let moved := (ends n a s).filter fun t => 0 < least || t.after.length < s.after.length
        let more := moved.flatMap (ends n (.times a (least - 1) (most.map (· - 1))))
        if 0 < least then more else more ++ [s]

def longest (r : Regex) (s : Spot) : Option Spot :=
  (ends (4 * s.after.length + 400) r s).foldl (fun best t =>
    match best with
    | some b => if t.after.length < b.after.length then some t else best
    | none => some t) none

/-- A match in a text: what stands before it, the match, what stands after it, and the groups. -/
structure Match where
  before : List Octets
  found : List Octets
  after : List Octets
  groups : List (Nat × List Octets)

/-- The first match in a text, looked for from a spot on. -/
def searchFrom (r : Regex) (seen : List Octets) : List Octets → Option Match
  | [] =>
    (longest r ⟨seen, [], []⟩).map fun t => ⟨seen.reverse, [], [], t.groups⟩
  | c :: cs =>
    match longest r ⟨seen, c :: cs, []⟩ with
    | some t =>
      some ⟨seen.reverse, (c :: cs).take ((c :: cs).length - t.after.length), t.after, t.groups⟩
    | none => searchFrom r (c :: seen) cs

def Regex.search (r : Regex) (s : List Octets) : Option Match := searchFrom r [] s

end SecretForge.Script
