import SecretForge.Script.Program.Pattern

/-!
# The command language: editing lines

`sed` runs a list of instructions on each line; an instruction is done only on the lines that it
selects.

* `Instruction` is an instruction, `readScript` reads a list of them.
* `Editor` is the state of a run, `Editor.step` one instruction, `Editor.lines` the whole run.
* `sed` is the program.
-/

namespace SecretForge.Script.Edit

open SecretForge.Text
open SecretForge.Script.Pattern (LinePattern)

/-! ### Instructions -/

inductive Address where
  | line (n : Nat)
  | last
  | pattern (p : LinePattern)
  | every (first step : Nat)
  /-- A number of lines after the one that began a range. -/
  | after (n : Nat)

/-- The lines that an instruction is done on. -/
inductive Selection where
  | all
  | one (a : Address)
  | range (start stop : Address)

inductive Replacement where
  | text (o : Octets)
  | group (k : Nat)
  /-- The case of what follows: all of it or the next character, or as it is. -/
  | recase (upper : Option Bool) (one : Bool)
  deriving DecidableEq, Repr

inductive Action where
  | substitute (p : LinePattern) (parts : List Replacement) (which : Nat) (all prints : Bool)
  | translate (table : List (Octets × Octets))
  | print
  | printFirst
  | delete
  | deleteFirst
  | quit (status : Nat) (prints : Bool)
  | number
  | next
  | nextAppended
  | hold (appends : Bool)
  | recall (appends : Bool)
  | exchange
  | append (o : Octets)
  | insert (o : Octets)
  | change (o : Octets)
  | opening
  | closing
  | label (name : Octets)
  | branch (name : Octets) (ifReplaced : Option Bool)
  | nothing

structure Instruction where
  selection : Selection := .all
  negated : Bool := false
  action : Action

/-! ### Reading -/

abbrev ScriptFault := String

/-- A step of reading a script: the text that is left, or what is wrong and where. -/
abbrev ScriptScan := StateT Octets (Except (ScriptFault × Octets))

def wrong {α : Type} (message : ScriptFault) : ScriptScan α := do throw (message, ← get)

def next? : ScriptScan (Option Char) := do
  match ← get with
  | [] => return none
  | c :: cs =>
    set cs
    return some c

def takeAll (kind : Char → Bool) : ScriptScan Octets := do
  let o ← get
  set (o.dropWhile kind)
  return o.takeWhile kind

/-- Where a reader of a regular expression is: outside of sets, inside of one, a number of octets
after its start, or inside of a class in one. -/
inductive SetPlace where
  | outside
  | inside (octets : Nat)
  | className
  deriving DecidableEq, Repr

def SetPlace.after (c : Char) (following : Octets) : SetPlace → SetPlace
  | .outside => if c = '[' then .inside 0 else .outside
  | .inside k =>
    if c = ']' && 0 < k then .outside
    else if c = '^' && k = 0 then .inside 0
    else if c = '[' && following.head? = some ':' then .className
    else .inside (k + 1)
  | .className => if c = ']' then .inside 1 else .className

/-- The text up to a mark that no backslash stands before, and what follows the mark.  In a regular
expression a mark inside of a set does not count. -/
def delimited (mark : Char) (inRegex : Bool) : Nat → SetPlace → Octets → Option (Octets × Octets)
  | 0, _, _ => none
  | _, _, [] => none
  | n + 1, place, '\\' :: c :: cs =>
    (delimited mark inRegex n place cs).map fun (o, rest) =>
      if c = mark then (c :: o, rest)
      else if inRegex && c = 'n' then ('\n' :: o, rest)
      else if inRegex && c = 't' then ('\t' :: o, rest)
      else ('\\' :: c :: o, rest)
  | n + 1, place, c :: cs =>
    if c = mark && place = .outside then some ([], cs)
    else
      let place := if inRegex then place.after c cs else place
      (delimited mark inRegex n place cs).map fun (o, rest) => (c :: o, rest)

def upTo (mark : Char) (inRegex : Bool) (fault : ScriptFault) : ScriptScan Octets := do
  let o ← get
  match delimited mark inRegex (o.length + 1) .outside o with
  | some (t, rest) =>
    set rest
    return t
  | none =>
    set ([] : Octets)
    wrong fault

/-- A pattern that a text writes. -/
def patternOf (extended ignoresCase : Bool) (o : Octets) : ScriptScan LinePattern := do
  match Pattern.regexOf extended false ignoresCase o with
  | some regex => return { regex, ignoresCase }
  | none => wrong "Invalid preceding regular expression"

def digits : ScriptScan Nat := do
  let ds ← takeAll Char.isDigit
  return (leadingValue 10 ds.length ds).1

def address? (extended : Bool) (isSecond : Bool) : ScriptScan (Option Address) := do
  match ← get with
  | '$' :: rest =>
    set rest
    return some .last
  | '/' :: rest =>
    set rest
    regex '/'
  | '\\' :: c :: rest =>
    set rest
    regex c
  | '+' :: rest =>
    if isSecond then
      set rest
      return some (.after (← digits))
    else return none
  | c :: _ =>
    if c.isDigit then
      let n ← digits
      match ← get with
      | '~' :: rest =>
        set rest
        return some (.every n (← digits))
      | _ => return some (.line n)
    else return none
  | [] => return none
where
  /-- A pattern as an address. -/
  regex (mark : Char) : ScriptScan (Option Address) := do
    let o ← upTo mark true "unterminated address regex"
    let flags ← takeAll fun c => c = 'I' || c = 'M'
    return some (.pattern (← patternOf extended (flags.contains 'I') o))

def replacementOf : Nat → Octets → List Replacement
  | 0, _ => []
  | _, [] => []
  | n + 1, '\\' :: c :: cs =>
    let part : Replacement := match c with
      | 'n' => .text ['\n']
      | 't' => .text ['\t']
      | 'U' => .recase (some true) false
      | 'L' => .recase (some false) false
      | 'u' => .recase (some true) true
      | 'l' => .recase (some false) true
      | 'E' => .recase none false
      | c => if c.isDigit then .group (c.toNat - 48) else .text [c]
    part :: replacementOf n cs
  | n + 1, '&' :: cs => .group 0 :: replacementOf n cs
  | n + 1, c :: cs => .text [c] :: replacementOf n cs

structure Flags where
  which : Nat := 1
  all : Bool := false
  prints : Bool := false
  ignoresCase : Bool := false

def flags : Nat → Flags → ScriptScan Flags
  | 0, f => return f
  | n + 1, f => do
    match ← get with
    | 'g' :: rest =>
      set rest
      flags n { f with all := true }
    | 'p' :: rest =>
      set rest
      flags n { f with prints := true }
    | 'i' :: rest | 'I' :: rest =>
      set rest
      flags n { f with ignoresCase := true }
    | 'm' :: rest | 'M' :: rest =>
      set rest
      flags n f
    | c :: rest =>
      if c.isDigit then
        let k ← digits
        if k = 0 then wrong "number option to \x60s' command may not be zero"
        else flags n { f with which := k }
      else if c = ';' || c = '\n' || c = '}' || c = ' ' || c = '#' then return f
      else
        set rest
        wrong "unknown option to \x60s'"
    | [] => return f

/-- The text of an instruction that adds lines. -/
def addedText : ScriptScan Octets := do
  let _ ← takeAll fun c => c = ' ' || c = '\t'
  let o : Octets := match ← get with
    | '\\' :: rest => (rest.dropWhile fun c => c = ' ' || c = '\t').dropWhile (· = '\n')
    | o => o
  let (line, rest) := cutLine (o.length + 1) o
  set rest
  if o.isEmpty then wrong "expected \\ after \x60a', \x60c' or \x60i'" else return line ++ ['\n']
where
  /-- A line, a backslash keeping the next octet as it is, and what follows. -/
  cutLine : Nat → Octets → Octets × Octets
    | 0, o => ([], o)
    | _, [] => ([], [])
    | n + 1, '\\' :: c :: cs =>
      let (l, rest) := cutLine n cs
      (c :: l, rest)
    | n + 1, c :: cs =>
      if c = '\n' then ([], cs)
      else
        let (l, rest) := cutLine n cs
        (c :: l, rest)

def translationTable (a b : Octets) : ScriptScan (List (Octets × Octets)) := do
  let plain (o : Octets) : List Octets := Octets.characters (unslash o)
  if (plain a).length = (plain b).length then return (plain a).zip (plain b)
  else wrong "strings for \x60y' command are different lengths"
where
  /-- A text without the backslashes before octets. -/
  unslash : Octets → Octets
    | '\\' :: 'n' :: cs => '\n' :: unslash cs
    | '\\' :: c :: cs => c :: unslash cs
    | c :: cs => c :: unslash cs
    | [] => []

def labelName : ScriptScan Octets := do
  let _ ← takeAll (· = ' ')
  takeAll fun c => c ≠ '\n' && c ≠ ';' && c ≠ ' '

def actionOf (extended : Bool) (c : Char) : ScriptScan Action := do
  match c with
  | 's' => do
    match ← next? with
    | none => wrong "unterminated \x60s' command"
    | some mark =>
      let pattern ← upTo mark true "unterminated \x60s' command"
      let new ← upTo mark false "unterminated \x60s' command"
      let f ← flags 100 {}
      let p ← patternOf extended f.ignoresCase pattern
      return .substitute p (replacementOf (new.length + 1) new) f.which f.all f.prints
  | 'y' => do
    match ← next? with
    | none => wrong "unterminated \x60y' command"
    | some mark =>
      let a ← upTo mark false "unterminated \x60y' command"
      let b ← upTo mark false "unterminated \x60y' command"
      return .translate (← translationTable a b)
  | 'p' => return .print
  | 'P' => return .printFirst
  | 'd' => return .delete
  | 'D' => return .deleteFirst
  | 'q' => return .quit (← status) true
  | 'Q' => return .quit (← status) false
  | '=' => return .number
  | 'n' => return .next
  | 'N' => return .nextAppended
  | 'h' => return .hold false
  | 'H' => return .hold true
  | 'g' => return .recall false
  | 'G' => return .recall true
  | 'x' => return .exchange
  | 'a' => return .append (← addedText)
  | 'i' => return .insert (← addedText)
  | 'c' => return .change (← addedText)
  | '{' => return .opening
  | '}' => return .closing
  | ':' => return .label (← labelName)
  | 'b' => return .branch (← labelName) none
  | 't' => return .branch (← labelName) (some true)
  | 'T' => return .branch (← labelName) (some false)
  | c => wrong s!"unknown command: \x60{c}'"
where
  /-- A status after blanks. -/
  status : ScriptScan Nat := do
    let _ ← takeAll (· = ' ')
    digits

def instructions (extended : Bool) : Nat → ScriptScan (List Instruction)
  | 0 => return []
  | n + 1 => do
    let _ ← takeAll fun c => c = ' ' || c = '\n' || c = ';' || c = '\t'
    match ← get with
    | [] => return []
    | '#' :: _ =>
      let _ ← takeAll (· ≠ '\n')
      instructions extended n
    | _ =>
      let first ← address? extended false
      let selection : Selection ← match first, ← get with
        | some a, ',' :: rest => do
          set rest
          let _ ← takeAll (· = ' ')
          match ← address? extended true with
          | some b => pure (.range a b)
          | none => wrong "unexpected \x60,'"
        | some a, _ => pure (.one a)
        | none, _ => pure .all
      let _ ← takeAll (· = ' ')
      let marks ← takeAll fun c => c = '!' || c = ' '
      match ← next? with
      | none => wrong "missing command"
      | some c =>
        let action ← actionOf extended c
        let _ ← takeAll (· = ' ')
        match action, ← get with
        | .opening, _ | .append _, _ | .insert _, _ | .change _, _ => pure ()
        | _, [] => pure ()
        | _, d :: rest =>
          if d = ';' || d = '\n' || d = '}' || d = '#' then pure ()
          else
            set rest
            wrong "extra characters after command"
        return { selection, negated := marks.contains '!', action } :: (← instructions extended n)

/-- The instructions of a script, or the report of what is wrong with it. -/
def readScript (extended : Bool) (o : Octets) : Except String (Array Instruction) :=
  match (instructions extended (o.length + 1)).run o with
  | .ok (is, _) => .ok is.toArray
  | .error (message, rest) =>
    .error s!"-e expression #1, char {o.length - rest.length}: {message}"

/-! ### Running -/

structure Editor where
  space : Octets := []
  held : Octets := []
  line : Nat := 0
  /-- The lines that are left, with their line ends. -/
  rest : List Octets := []
  /-- Whether the current line had a line end. -/
  ended : Bool := true
  output : Octets := []
  /-- Whether the last line written lacks its line end. -/
  lacking : Bool := false
  /-- What is written after the current line. -/
  queue : Octets := []
  replaced : Bool := false
  /-- The ranges that the current line is in, by instruction, with the last line if it is known. -/
  ranges : List (Nat × Option Nat) := []

namespace Editor

def write (e : Editor) (o : Octets) : Editor :=
  { e with output := e.output ++ (if e.lacking then ['\n'] else []) ++ o, lacking := false }

/-- A line written; the last line lacks its line end if it had none. -/
def writeLine (e : Editor) (o : Octets) : Editor :=
  if e.ended then e.write (o ++ ['\n']) else { e.write o with lacking := true }

def read (e : Editor) (join : Bool) : Option Editor :=
  match e.rest with
  | [] => none
  | l :: ls =>
    let ended := l.getLast? = some '\n'
    let l := if ended then l.dropLast else l
    some { e with
      space := if join then e.space ++ '\n' :: l else l
      line := e.line + 1, rest := ls, ended }

/-- What waits to be written after the line. -/
def flush (e : Editor) : Editor := if e.queue.isEmpty then e else { e.write e.queue with queue := [] }

/-- Whether an address selects the current line. -/
def matches_ (e : Editor) : Address → Bool
  | .line n => e.line = n
  | .last => e.rest.isEmpty
  | .pattern p => (p.find? [] (Octets.characters e.space)).isSome
  | .every first step =>
    if step = 0 then e.line = first else first ≤ e.line && (e.line - first) % step = 0
  | .after _ => false

/-- Whether the instruction of a number is done on the current line, and the ranges after that. -/
def selects (e : Editor) (k : Nat) : Selection → Bool × Editor
  | .all => (true, e)
  | .one a => (e.matches_ a, e)
  | .range a b =>
    let leave : Editor := { e with ranges := e.ranges.filter (·.1 ≠ k) }
    match e.ranges.lookup k with
    | some known =>
      match known, b with
      | some n, _ =>
        if n < e.line then (e.matches_ a, leave) else (true, if e.line = n then leave else e)
      | none, b => (true, if e.matches_ b then leave else e)
    | none =>
      if e.matches_ a then
        let enter (last : Option Nat) : Editor := { e with ranges := (k, last) :: e.ranges }
        match b with
        | .line n => (true, if n ≤ e.line then e else enter (some n))
        | .after n => (true, if n = 0 then e else enter (some (e.line + n)))
        | _ => (true, if e.rest.isEmpty then e else enter none)
      else (false, e)

end Editor

def replacementText (m : Match) : Option Bool → Option Bool → List Replacement → Octets
  | _, _, [] => []
  | all, _, .recase upper true :: parts => replacementText m all upper parts
  | _, _, .recase upper false :: parts => replacementText m upper none parts
  | all, one, part :: parts =>
    let o := match part with
      | .text o => o
      | .group 0 => m.found.flatten
      | .group k => ((m.groups.lookup k).getD []).flatten
      | .recase _ _ => []
    let change (upper : Option Bool) (o : Octets) : Octets := match upper with
      | some true => Octets.mapAscii Char.toUpper o
      | some false => Octets.mapAscii Char.toLower o
      | none => o
    match one, o with
    | some _, c :: cs => change one [c] ++ change all cs ++ replacementText m all none parts
    | _, o => change all o ++ replacementText m all one parts

/-- A text with matches replaced from a number on, and whether there were any.  An empty match right
after another one does not count. -/
def substitute (p : LinePattern) (parts : List Replacement) (all : Bool) :
    Nat → Nat → Bool → List Octets → List Octets → Octets × Bool
  | 0, _, _, _, rest => (rest.flatten, false)
  | n + 1, which, fresh, seen, rest =>
    match p.find? seen rest with
    | none => (rest.flatten, false)
    | some m =>
      let skipped := (m.before.drop seen.length).flatten
      let seen' := m.found.reverse ++ m.before.reverse
      if m.found.isEmpty && !fresh && skipped.isEmpty then
        match m.after with
        | [] => ([], false)
        | c :: after =>
          let (o, done) := substitute p parts all n which true (c :: seen') after
          (c ++ o, done)
      else
        let isMeant := which ≤ 1
        let new := if isMeant then replacementText m none none parts else m.found.flatten
        if isMeant && !all then (skipped ++ new ++ m.after.flatten, true)
        else
          match m.found, m.after with
          | [], [] => (skipped ++ new, isMeant)
          | [], c :: after =>
            let (o, done) := substitute p parts all n (which - 1) true (c :: seen') after
            (skipped ++ new ++ c ++ o, done || isMeant)
          | _, after =>
            let (o, done) := substitute p parts all n (which - 1) false seen' after
            (skipped ++ new ++ o, done || isMeant)

/-- What follows an instruction. -/
inductive After where
  | goOn (place : Nat)
  /-- The turn ends, and the line is written unless that is not wanted. -/
  | finish (prints : Bool)
  /-- The turn ends, and the next one begins with what is left of the line. -/
  | again
  | stop (status : Nat) (prints : Bool)

/-- The place after the closing brace that belongs to an opening one. -/
def placeAfterBlock (is : Array Instruction) : Nat → Nat → Nat → Nat
  | 0, _, k => k
  | n + 1, depth, k =>
    match (is[k]?).map Instruction.action with
    | none => k
    | some .opening => placeAfterBlock is n (depth + 1) (k + 1)
    | some .closing => if depth ≤ 1 then k + 1 else placeAfterBlock is n (depth - 1) (k + 1)
    | some _ => placeAfterBlock is n depth (k + 1)

/-- The place of a label, the end if it has no name. -/
def placeOfLabel (is : Array Instruction) (name : Octets) : Nat :=
  if name.isEmpty then is.size
  else (is.findIdx? fun i => match i.action with
    | .label n => n = name
    | _ => false).getD is.size

def firstLine (o : Octets) : Octets × Option Octets :=
  let l := o.takeWhile (· ≠ '\n')
  match o.drop l.length with
  | _ :: rest => (l, some rest)
  | [] => (l, none)

def Editor.step (is : Array Instruction) (silent : Bool) (k : Nat) (i : Instruction) (e : Editor) :
    Editor × After :=
  let (selected, e) := e.selects k i.selection
  let onward := After.goOn (k + 1)
  if selected = i.negated then
    match i.action with
    | .opening => (e, .goOn (placeAfterBlock is is.size 0 k))
    | _ => (e, onward)
  else match i.action with
    | .substitute p parts which all prints =>
      let (o, done) := substitute p parts all (2 * e.space.length + 2) which true [] (Octets.characters e.space)
      if done then
        let e := { e with space := o, replaced := true }
        (if prints then e.writeLine o else e, onward)
      else (e, onward)
    | .translate table =>
      ({ e with space := (Octets.characters e.space).flatMap fun c => (table.lookup c).getD c }, onward)
    | .print => (e.writeLine e.space, onward)
    | .printFirst => (e.write ((firstLine e.space).1 ++ ['\n']), onward)
    | .delete => (e, .finish false)
    | .deleteFirst =>
      match (firstLine e.space).2 with
      | some rest => ({ e with space := rest }, .again)
      | none => (e, .finish false)
    | .quit status prints => (e, .stop status prints)
    | .number => (e.write (decimalDigits e.line ++ ['\n']), onward)
    | .next =>
      if e.rest.isEmpty then (e, .stop 0 true)
      else
        let e := (if silent then e else e.writeLine e.space).flush
        ((e.read false).getD e, onward)
    | .nextAppended =>
      match e.read true with
      | some e => (e, onward)
      | none => (e, .stop 0 true)
    | .hold appends =>
      ({ e with held := if appends then e.held ++ '\n' :: e.space else e.space }, onward)
    | .recall appends =>
      ({ e with space := if appends then e.space ++ '\n' :: e.held else e.held }, onward)
    | .exchange => ({ e with space := e.held, held := e.space }, onward)
    | .append o => ({ e with queue := e.queue ++ o }, onward)
    | .insert o => (e.write o, onward)
    | .change o =>
      let inRange := match i.selection with
        | .range _ _ => (e.ranges.any (·.1 = k))
        | _ => false
      (if inRange && !i.negated then e else e.write o, .finish false)
    | .branch name none => (e, .goOn (placeOfLabel is name))
    | .branch name (some wanted) =>
      if e.replaced = wanted then ({ e with replaced := false }, .goOn (placeOfLabel is name))
      else ({ e with replaced := false }, onward)
    | _ => (e, onward)

/-- A turn from a place on: the instructions done on the current line. -/
def Editor.turn (is : Array Instruction) (silent : Bool) : Nat → Nat → Editor → Editor × After
  | 0, _, e => (e, .finish true)
  | n + 1, k, e =>
    match is[k]? with
    | none => (e, .finish true)
    | some i =>
      match e.step is silent k i with
      | (e, .goOn place) => turn is silent n place e
      | ended => ended

/-- The number of instructions in one turn. -/
def turnLimit : Nat := 100000

/-- All lines edited: what is written, and the status. -/
def Editor.lines (is : Array Instruction) (silent : Bool) : Nat → Bool → Editor → Editor × Nat
  | 0, _, e => (e, 0)
  | n + 1, fresh, e =>
    match (if fresh then e.read false else some e) with
    | none => (e, 0)
    | some e =>
      let finish (prints : Bool) (e : Editor) : Editor :=
        (if prints && !silent then e.writeLine e.space else e).flush
      match ({ e with replaced := false } : Editor).turn is silent turnLimit 0 with
      | (e, .stop status prints) => (finish prints e, status)
      | (e, .finish prints) => lines is silent n true (finish prints e)
      | (e, .again) => lines is silent n false (finish false e)
      | (e, .goOn _) => lines is silent n true (finish true e)

def sed : Program where
  name := "sed"
  letters := "nEre:siuz"
  names := [("quiet", 'n'), ("silent", 'n'), ("regexp-extended", 'E'), ("expression", 'e'),
    ("separate", 's'), ("in-place", 'i')]
  run g operands := do
    let given := (g.filter (·.1 = 'e')).map (·.2)
    match (if given.isEmpty then operands.head? else some (List.intercalate ['\n'] given)) with
    | none =>
      warn (text "Usage: sed [OPTION]... \x7bscript-only-if-no-other-script\x7d [input-file]...")
      return 1
    | some script =>
      let files := if given.isEmpty then operands.drop 1 else operands
      match readScript (g.has 'E' || g.has 'r') script with
      | .error message =>
        remark "sed" (text message)
        return 1
      | .ok is =>
        let report (o : Octets) (f : FileFault) : Run Unit := match f with
          | .isADirectory => remark "sed" (text "couldn't edit " ++ o ++ text ": not a regular file")
          | _ => remark "sed" (text "can't read " ++ o ++ text s!": {f.text}")
        let edited (o : Octets) : Octets × Nat :=
          let ls := endedLines o
          let ls := if o.isEmpty then [] else ls
          let (e, status) := ({ rest := ls } : Editor).lines is (g.has 'n') (2 * o.length + 2) true
          (e.output, status)
        if g.has 'i' then
          let (_, status) ← withInputs report (fun _ o content => do
            match ← openOutput o false false with
            | .ok n =>
              match (← get).world.streams[n]? with
              | some st => putStream n st (edited content).1
              | none => return
            | .error _ => return) () files
          return if status = 0 then 0 else 4
        else
          let (content, status) ← takeInput report files
          let (o, code) := edited content
          say o
          return if status = 0 then code else 2

end SecretForge.Script.Edit
