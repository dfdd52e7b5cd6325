import SecretForge.Script.Program.Arguments

/-!
# The command language: translating characters

`tr` reads octets and writes them with some replaced, deleted or squeezed.  Which ones is written as a
list of characters, ranges, classes and repetitions.

* `TranslateItem` is an element of such a list, `items` reads one.
* `Translation` is what is done to the octets, `Translation.apply` does it.
* `tr` is the program.
-/

namespace SecretForge.Script.Translate

open SecretForge.Text

inductive TranslateItem where
  | range (first last : Char)
  | class (name : String)
  /-- A character a number of times, or as often as it is needed. -/
  | fill (char : Char) (count : Option Nat)
  deriving DecidableEq, Repr

/-- What is wrong with a list of characters. -/
inductive TranslateFault where
  | reversed (first last : Char)
  | unknownClass (name : Octets)
  | notOne (chars : Octets)
  deriving DecidableEq, Repr

def shownChar (c : Char) : Octets :=
  if 32 ≤ c.toNat && c.toNat < 127 then [c]
  else '\\' :: (Nat.toDigits 8 (c.toNat + 512)).drop 1

def TranslateFault.message : TranslateFault → Octets
  | .reversed a b =>
    text "range-endpoints of '" ++ shownChar a ++ ['-'] ++ shownChar b
      ++ text "' are in reverse collating sequence order"
  | .unknownClass name => text "invalid character class " ++ quoteMarks name
  | .notOne chars => chars ++ text ": equivalence class operand must be a single character"

/-- The characters of a list, with whether a backslash stands before them. -/
def unslashed : Nat → Octets → List Marked
  | 0, _ => []
  | _, [] => []
  | n + 1, '\\' :: c :: cs =>
    let (v, k) := leadingValue 8 3 (c :: cs)
    if 0 < k then
      let (v, k) := if 255 < v then leadingValue 8 2 (c :: cs) else (v, k)
      (Char.ofNat v, true) :: unslashed n ((c :: cs).drop k)
    else
      let d := match c with
        | 'a' => Char.ofNat 7
        | 'b' => Char.ofNat 8
        | 'f' => Char.ofNat 12
        | 'n' => '\n'
        | 'r' => '\r'
        | 't' => '\t'
        | 'v' => Char.ofNat 11
        | c => c
      (d, true) :: unslashed n cs
  | n + 1, c :: cs => (c, false) :: unslashed n cs

/-- The text up to a character before a closing bracket, and what follows both. -/
def bracketed (mark : Char) : List Marked → Option (Octets × List Marked)
  | (c, isQuoted) :: (d, isQuoted') :: rest =>
    if c = mark && !isQuoted && d = ']' && !isQuoted' then some ([], rest)
    else (bracketed mark ((d, isQuoted') :: rest)).map fun (o, after) => (c :: o, after)
  | _ => none

/-- The number of a repetition up to its closing bracket, and what follows. -/
def repetition (ms : List Marked) : Option (Option Nat × List Marked) :=
  let digits := (ms.takeWhile fun m => m.1.isDigit && !m.2).map (·.1)
  match ms.drop digits.length with
  | (']', false) :: rest =>
    let base := if digits.head? = some '0' then 8 else 10
    let (v, k) := leadingValue base digits.length digits
    if k = digits.length then some (if v = 0 then none else some v, rest) else none
  | _ => none

def classNames : List String :=
  ["alnum", "alpha", "blank", "cntrl", "digit", "graph", "lower", "print", "punct", "space", "upper",
    "xdigit"]

/-- A bracketed element that is neither a range nor a plain character. -/
def special? : List Marked → Option (Except TranslateFault (TranslateItem × List Marked))
  | ('[', false) :: (':', false) :: rest =>
    (bracketed ':' rest).map fun (name, after) =>
      if classNames.contains (String.ofList name) then .ok (.class (String.ofList name), after)
      else .error (.unknownClass name)
  | ('[', false) :: ('=', false) :: rest =>
    (bracketed '=' rest).map fun (chars, after) =>
      match chars with
      | [c] => .ok (.range c c, after)
      | _ => .error (.notOne chars)
  | ('[', false) :: (c, _) :: ('*', false) :: rest =>
    (repetition rest).map fun (count, after) => .ok (.fill c count, after)
  | _ => none

def items : Nat → List Marked → Except TranslateFault (List TranslateItem)
  | 0, _ => .ok []
  | _, [] => .ok []
  | n + 1, m :: ms =>
    match special? (m :: ms) with
    | some (.error f) => .error f
    | some (.ok (i, rest)) => (items n rest).map (i :: ·)
    | none =>
      match ms with
      | ('-', false) :: (d, _) :: rest =>
        if d.toNat < m.1.toNat then .error (.reversed m.1 d)
        else (items n rest).map (.range m.1 d :: ·)
      | rest => (items n rest).map (.range m.1 m.1 :: ·)

/-- The elements that a text writes. -/
def itemsOf (o : Octets) : Except TranslateFault (List TranslateItem) :=
  items (o.length + 1) (unslashed (o.length + 1) o)

def allOctets : Octets := (List.range 256).map Char.ofNat

/-- The octets of an element; a repetition without a number is used `spare` times. -/
def TranslateItem.octets (spare : Nat) : TranslateItem → Octets
  | .range a b => allOctets.filter fun c => a.toNat ≤ c.toNat && c.toNat ≤ b.toNat
  | .class name => allOctets.filter fun c => inClass name [c]
  | .fill c count => List.replicate (count.getD spare) c

/-- The octets of elements, at least `size` of them if there is a repetition without a number. -/
def octetsOf (size : Nat) (is : List TranslateItem) : Octets :=
  let fixed := (is.flatMap (TranslateItem.octets 0)).length
  is.flatMap (TranslateItem.octets (size - fixed))

/-! ### Translating -/

/-- What is done to octets: some are deleted, others replaced, and of equal ones in a row that are
squeezed one is kept. -/
structure Translation where
  deleted : Octets := []
  replaced : List (Char × Char) := []
  squeezed : Octets := []

def squeeze (which : Octets) : Option Char → Octets → Octets
  | _, [] => []
  | last, c :: cs =>
    if last = some c && which.contains c then squeeze which last cs
    else c :: squeeze which (some c) cs

/-- The translation of octets.  Of two replacements of an octet the last counts. -/
def Translation.apply (t : Translation) (o : Octets) : Octets :=
  let kept := o.filter fun c => !t.deleted.contains c
  let table := t.replaced.reverse
  let changed := kept.map fun c => (table.lookup c).getD c
  if t.squeezed.isEmpty then changed else squeeze t.squeezed none changed

/-- The second list as long as the first, its last octet repeated. -/
def stretch (size : Nat) (o : Octets) : Octets :=
  match o.getLast? with
  | some c => o ++ List.replicate (size - o.length) c
  | none => []

/-- Whether an element is a class that says nothing about case. -/
def isPlainClass : TranslateItem → Bool
  | .class name => name ≠ "lower" && name ≠ "upper"
  | _ => false

def isFill : TranslateItem → Bool
  | .fill _ none => true
  | _ => false

/-- The translation that options and lists ask for, or why there is none. -/
def translation (g : Given) (first : List TranslateItem) (second : Option (List TranslateItem)) :
    Except Octets Translation :=
  let complemented := g.has 'c' || g.has 'C'
  let truncates := g.has 't'
  let a := octetsOf 0 first
  let a := if complemented then allOctets.filter fun c => !a.contains c else a
  if first.any isFill then .error (text "the [c*] repeat construct may not appear in string1")
  else match g.has 'd', second with
    | true, none => .ok { deleted := a }
    | true, some bs => .ok { deleted := a, squeezed := octetsOf 0 bs }
    | false, none => .ok { squeezed := a }
    | false, some bs =>
      if bs.any isPlainClass then
        .error (text ("when translating, the only character classes that may appear in\n"
          ++ "string2 are 'upper' and 'lower'"))
      else
        let b := octetsOf a.length bs
        if b.isEmpty && !truncates then
          .error (text "when not truncating set1, string2 must be non-empty")
        else
          let b := if truncates then b else stretch a.length b
          .ok { replaced := a.zip b, squeezed := if g.has 's' then b else [] }

/-- The report of a wrong number of lists. -/
def countFault (g : Given) (operands : List Octets) : Option (List Octets) :=
  let d := g.has 'd'
  let s := g.has 's'
  let least := if d = s then 2 else 1
  let most := if d && !s then 1 else 2
  match operands with
  | [] => some [text "missing operand"]
  | first :: _ =>
    if operands.length < least then
      some [text "missing operand after " ++ quoteMarks first,
        text (if s then "Two strings must be given when both deleting and squeezing repeats."
          else "Two strings must be given when translating.")]
    else match operands.drop most with
      | [] => none
      | extra :: _ =>
        some ((text "extra operand " ++ quoteMarks extra) :: (if operands.length = 2 then
          [text "Only one string may be given when deleting without squeezing repeats."] else []))

def tr : Program where
  name := "tr"
  letters := "cCdst"
  names := [("complement", 'c'), ("delete", 'd'), ("squeeze-repeats", 's'), ("truncate-set1", 't')]
  mixes := false
  run g operands := do
    match countFault g operands with
    | some message => misuse "tr" message 1
    | none =>
      let first := operands.headD []
      let read : Except Octets Translation := do
        let a ← (itemsOf first).mapError TranslateFault.message
        let b ← match operands[1]? with
          | some o => some <$> (itemsOf o).mapError TranslateFault.message
          | none => pure none
        translation g a b
      match read with
      | .error message =>
        remark "tr" message
        return 1
      | .ok t =>
        let o := (← take 0).getD []
        say (t.apply o)
        return 0

end SecretForge.Script.Translate
