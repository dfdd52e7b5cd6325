import SecretForge.Script.Program.Arguments
import SecretForge.Script.Redirect

/-!
# The command language: parts of texts

These programs write what they read, whole or in part, as it is or line by line in another order.

* `cat` and `tee` write all of it, `head` and `tail` its start and its end.
* `tac` and `rev` turn the lines or the characters of each line around.
* `cut` writes parts of each line, `paste` joins lines.
-/

namespace SecretForge.Script.Excerpt

open SecretForge.Text

/-! ### Whole texts -/

structure CatForm where
  numbers : Bool
  skipsBlank : Bool
  squeezes : Bool
  ends : Bool
  tabs : Bool
  controls : Bool

structure CatState where
  line : Nat := 1
  atStart : Bool := true
  /-- The number of empty lines in a row. -/
  empty : Nat := 0

def CatForm.shown (f : CatForm) (c : Char) : Octets :=
  let n := c.toNat
  if c = '\t' then (if f.tabs then ['^', 'I'] else [c])
  else if !f.controls then [c]
  else if n < 32 then ['^', Char.ofNat (n + 64)]
  else if n < 127 then [c]
  else if n = 127 then ['^', '?']
  else
    let m := n - 128
    ['M', '-'] ++ (if m < 32 then ['^', Char.ofNat (m + 64)] else if m = 127 then ['^', '?']
      else [Char.ofNat m])

def CatForm.render (f : CatForm) : CatState → Octets → Octets × CatState
  | s, [] => ([], s)
  | s, c :: cs =>
    if s.atStart && c = '\n' then
      if f.squeezes && 1 ≤ s.empty then f.render { s with empty := s.empty + 1 } cs
      else
        let numbered := f.numbers && !f.skipsBlank
        let lead := if numbered then paddedLeft 6 (decimalDigits s.line) ++ ['\t'] else []
        let (o, t) := f.render
          { s with line := if numbered then s.line + 1 else s.line, empty := s.empty + 1 } cs
        (lead ++ (if f.ends then ['$'] else []) ++ '\n' :: o, t)
    else
      let lead := if s.atStart && f.numbers then paddedLeft 6 (decimalDigits s.line) ++ ['\t'] else []
      let line := if s.atStart && f.numbers then s.line + 1 else s.line
      if c = '\n' then
        let (o, t) := f.render { line, atStart := true } cs
        (lead ++ (if f.ends then ['$'] else []) ++ '\n' :: o, t)
      else
        let (o, t) := f.render { line, atStart := false } cs
        (lead ++ f.shown c ++ o, t)

def cat : Program where
  name := "cat"
  letters := "AbeEnstTuv"
  names := [("show-all", 'A'), ("number-nonblank", 'b'), ("show-ends", 'E'), ("number", 'n'),
    ("squeeze-blank", 's'), ("show-tabs", 'T'), ("show-nonprinting", 'v')]
  run g operands := do
    let any (letters : List Char) : Bool := letters.any g.has
    let form : CatForm := {
      numbers := any ['n', 'b'], skipsBlank := g.has 'b', squeezes := g.has 's'
      ends := any ['A', 'e', 'E'], tabs := any ['A', 't', 'T'], controls := any ['A', 'e', 't', 'v'] }
    let (_, status) ← withInputs (reportFile "cat") (fun s _ content => do
      if g.isEmpty then
        say content
        return s
      else
        let (o, s) := form.render s content
        say o
        return s) ({} : CatState) (orInput operands)
    return status

def tee : Program where
  name := "tee"
  letters := "aip"
  names := [("append", 'a')]
  run g operands := do
    let opened ← operands.mapM fun o => do
      match ← openOutput o (g.has 'a') false with
      | .ok n => return some n
      | .error f =>
        reportFile "tee" o f
        return none
    let content := (← take 0).getD []
    say content
    opened.forM fun n? => do
      match n? with
      | none => return
      | some n =>
        match (← get).world.streams[n]? with
        | some st => putStream n st content
        | none => return
    return if opened.any (·.isNone) then 1 else 0

/-! ### Starts and ends -/

/-- A number of lines or octets with a suffix that multiplies it. -/
def amount? (o : Octets) : Option Nat :=
  let (v, k) := leadingValue 10 o.length o
  if k = 0 then none
  else match String.ofList (o.drop k) with
    | "" => some v
    | "b" => some (v * 512)
    | "kB" => some (v * 1000)
    | "K" | "k" | "KiB" => some (v * 1024)
    | "MB" => some (v * 1000000)
    | "M" | "m" | "MiB" => some (v * 1048576)
    | _ => none

/-- A number of lines as an option of its own, in the older way to write it. -/
def newerForm : List Octets → List Octets
  | ('-' :: c :: cs) :: rest => if c.isDigit then ['-', 'n'] :: (c :: cs) :: rest else ('-' :: c :: cs) :: rest
  | args => args

/-- How much of a text is meant. -/
structure Portion where
  /-- Whether octets are counted and not lines. -/
  octets : Bool
  /-- The sign in front of the number, if any. -/
  mark : Option Char
  count : Nat

/-- The portion that options ask for, ten lines if they ask for none. -/
def portion (g : Given) : Except Octets Portion :=
  match g.reverse.find? fun o => o.1 = 'n' || o.1 = 'c' with
  | none => .ok ⟨false, none, 10⟩
  | some (c, o) =>
    let (mark, digits) : Option Char × Octets := match o with
      | '-' :: rest => (some '-', rest)
      | '+' :: rest => (some '+', rest)
      | rest => (none, rest)
    match amount? digits with
    | some n => .ok ⟨c = 'c', mark, n⟩
    | none =>
      .error (text (if c = 'c' then "invalid number of bytes: " else "invalid number of lines: ")
        ++ quoteMarks o)

/-- The length of the start of a text that a portion takes. -/
def Portion.headLength (p : Portion) (o : Octets) : Nat :=
  if p.octets then (if p.mark = some '-' then o.length - p.count else min p.count o.length)
  else
    let ls := endedLines o
    let n := if p.mark = some '-' then ls.length - p.count else p.count
    ((ls.take n).map List.length).foldl (· + ·) 0

/-- The end of a text that a portion takes. -/
def Portion.tailOf (p : Portion) (o : Octets) : Octets :=
  let drops (size : Nat) : Nat := if p.mark = some '+' then p.count - 1 else size - p.count
  if p.octets then o.drop (drops o.length)
  else
    let ls := endedLines o
    (ls.drop (drops ls.length)).flatten

/-- Texts each under its name, if there are several or names are asked for. -/
def withNames (g : Given) (operands : List Octets) (part : Octets → Octets → Run Octets)
    (report : Octets → FileFault → Run Unit) : Run Nat := do
  let named := (1 < operands.length || g.has 'v') && !g.has 'q'
  let (_, status) ← withInputs report (fun isFirst o content => do
    if named then
      say ((if isFirst then [] else ['\n']) ++ text "==> " ++ inputName o ++ text " <==\n")
    say (← part o content)
    return false) true (orInput operands)
  return status

/-- What was taken too much of the input is put back, if the input can be read again. -/
def putBack (n : Nat) : Run Unit := do
  match ← stream? 0 with
  | some (k, st) =>
    match st.target with
    | .file _ => setStream k { st with position := st.position - n }
    | _ => return
  | none => return

def head : Program where
  name := "head"
  letters := "c:n:qvz"
  names := [("bytes", 'c'), ("lines", 'n'), ("quiet", 'q'), ("silent", 'q'), ("verbose", 'v')]
  run g operands := do
    match portion g with
    | .error message =>
      remark "head" message
      return 1
    | .ok p =>
      withNames g operands (fun o content => do
        let k := p.headLength content
        if o = ['-'] then putBack (content.length - k)
        return content.take k) (reportOpening "head")

def tail : Program where
  name := "tail"
  letters := "c:n:qvzfF"
  names := [("bytes", 'c'), ("lines", 'n'), ("quiet", 'q'), ("silent", 'q'), ("verbose", 'v')]
  run g operands := do
    match portion g with
    | .error message =>
      remark "tail" message
      return 1
    | .ok p => withNames g operands (fun _ content => return p.tailOf content) (reportOpening "tail")

/-! ### Other orders -/

def tac : Program where
  name := "tac"
  run _ operands := do
    let (_, status) ← withInputs (fun o f => match f with
      | .isADirectory => remark "tac" (o ++ text ": read error: Invalid argument")
      | _ => remark "tac" (text "failed to open '" ++ o ++ text s!"' for reading: {f.text}"))
      (fun _ _ content => say (endedLines content).reverse.flatten) () (orInput operands)
    return status

def rev : Program where
  name := "rev"
  run _ operands := do
    let (_, status) ← withInputs (fun o f => remark "rev" (text "cannot open " ++ o ++ text s!": {f.text}"))
      (fun _ _ content => say ((endedLines content).flatMap fun l =>
        if l.getLast? = some '\n' then (Octets.characters l.dropLast).reverse.flatten ++ ['\n']
        else (Octets.characters l).reverse.flatten)) () (orInput operands)
    return status

/-! ### Parts of lines -/

/-- Places from a first to a last one, which may be missing. -/
abbrev Places := List (Nat × Option Nat)

/-- A list of places, or what is wrong with it. -/
def placesOf (fields : Bool) (o : Octets) : Except Octets Places :=
  let subject := if fields then "field" else "byte/character position"
  let zero := text (if fields then "fields are numbered from 1"
    else "byte/character positions are numbered from 1")
  let number (part o : Octets) : Except Octets Nat :=
    match naturalOf? o with
    | some 0 => .error zero
    | some n => .ok n
    | none => .error (text (if fields then "invalid field value " else s!"invalid {subject} ")
        ++ quoteMarks part)
  ((splitOnChar ',' (o.map fun c => if c = ' ' || c = '\t' then ',' else c))).mapM fun part =>
    let first := part.takeWhile (· ≠ '-')
    match first, part.drop first.length with
    | _, [] => if part.isEmpty then .error zero else (number part first).map fun n => (n, some n)
    | [], ['-'] => .error (text "invalid range with no endpoint: -")
    | [], _ :: last => (number part last).map fun n => (1, some n)
    | _, ['-'] => (number part first).map fun n => (n, none)
    | _, _ :: last => do
      let a ← number part first
      let b ← number part last
      if b < a then .error (text "invalid decreasing range") else .ok (a, some b)

def isAmong (ps : Places) (n : Nat) : Bool := ps.any fun (a, b) => a ≤ n && b.all (n ≤ ·)

def atPlaces {α : Type} (keeps : Nat → Bool) (as : List α) : List α :=
  ((List.range as.length).zip as).filterMap fun (i, a) => if keeps (i + 1) then some a else none

def cut : Program where
  name := "cut"
  letters := "b:c:d:f:nsz%O:"
  names := [("bytes", 'b'), ("characters", 'c'), ("delimiter", 'd'), ("fields", 'f'),
    ("only-delimited", 's'), ("complement", '%'), ("output-delimiter", 'O')]
  run g operands := do
    let lists := g.filter fun o => o.1 = 'b' || o.1 = 'c' || o.1 = 'f'
    let fields := g.has 'f'
    let between := (g.value? 'd').getD ['\t']
    match lists with
    | [] => misuse "cut" [text "you must specify a list of bytes, characters, or fields"] 1
    | (_, list) :: more =>
      if !more.isEmpty then misuse "cut" [text "only one list may be specified"] 1
      else if 1 < between.length then
        misuse "cut" [text "the delimiter must be a single character"] 1
      else match placesOf fields list with
        | .error message => misuse "cut" [message] 1
        | .ok ps =>
          if !fields && g.has 'd' then
            misuse "cut" [text "an input delimiter may be specified only when operating on fields"] 1
          else if !fields && g.has 's' then
            misuse "cut" [text ("suppressing non-delimited lines makes sense\n\t"
              ++ "only when operating on fields")] 1
          else
            let keeps (n : Nat) : Bool := isAmong ps n != g.has '%'
            let mark := between.headD (Char.ofNat 0)
            let joint := (g.value? 'O').getD [mark]
            let line (l : Octets) : Option Octets :=
              if !fields then some (atPlaces keeps l)
              else if l.contains mark then
                some (List.intercalate joint (atPlaces keeps (splitOnChar mark l)))
              else if g.has 's' then none
              else some l
            let (_, status) ← withInputs (reportFile "cut") (fun _ _ content =>
              sayLines ((endedLines content).filterMap fun l =>
                if l.isEmpty then none
                else line (if l.getLast? = some '\n' then l.dropLast else l)))
              () (orInput operands)
            return status

def sideBySide (marks : Octets) : Nat → List (List Octets) → List Octets
  | 0, _ => []
  | n + 1, texts =>
    if texts.all List.isEmpty then []
    else joined 0 (texts.map (·.headD [])) :: sideBySide marks n (texts.map (·.drop 1))
where
  /-- Texts with marks between them. -/
  joined (k : Nat) : List Octets → Octets
    | [] => []
    | [o] => o
    | o :: os =>
      let mark := if marks.isEmpty then [] else [marks.getD (k % marks.length) '\t']
      o ++ mark ++ joined (k + 1) os

def paste : Program where
  name := "paste"
  letters := "d:sz"
  names := [("delimiters", 'd'), ("serial", 's')]
  run g operands := do
    let marks := escaped (((g.value? 'd').getD []).length + 1) ((g.value? 'd').getD ['\t'])
    let (texts, status) ← withInputs (reportFile "paste") (fun texts _ content =>
      return texts ++ [(Octets.lines content).1]) [] (orInput operands)
    if status ≠ 0 then return status
    let count := (operands.filter (· = ['-'])).length
    let texts := if count = texts.length && 1 < count then turns count (texts.headD []) else texts
    if g.has 's' then
      sayLines (texts.map fun ls => sideBySide.joined marks 0 ls)
    else sayLines (sideBySide marks ((texts.map List.length).foldl (· + ·) 1) texts)
    return 0
where
  /-- Lines dealt out in turn. -/
  turns (count : Nat) (ls : List Octets) : List (List Octets) :=
    (List.range count).map fun k =>
      ((List.range ls.length).zip ls).filterMap fun (i, l) => if i % count = k then some l else none

end SecretForge.Script.Excerpt
