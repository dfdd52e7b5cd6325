import SecretForge.Script.Brace
import SecretForge.Script.Evaluate
import SecretForge.Script.Glob
import SecretForge.Script.Quote
import SecretForge.Script.Word

/-!
# The command language: expanding words

A word is expanded part by part to characters that remember how they came about: a quoted character is
kept as it is, one that is written plainly can be part of a file pattern, and one that an expansion
made can separate words as well.  Then the characters are split to fields, and fields that are
patterns become the names of the files they match.

* `Piece` is a character of an expanded word.
* `expandParts` expands the parts of a word; `expandText` and `expandPattern` read the outcome as one
  text or as a pattern.
* `splitFields`, `expandFields` and `expandWords` make fields of words.
-/

namespace SecretForge.Script

open SecretForge.Text

/-- How commands inside words are run. -/
structure Hooks where
  /-- Commands. -/
  commands : Commands → Run Unit
  /-- The commands that a text writes; faults in it are reported under a name. -/
  script : String → Octets → Run Unit
  /-- A command given by its words; no function is meant. -/
  call : List Octets → Run Unit

/-- How a character of an expanded word came about. -/
inductive Provenance where
  | quoted
  | written
  | expanded
  deriving DecidableEq, Repr

inductive Piece where
  | char (c : Char) (making : Provenance)
  /-- Quotes with nothing between them. -/
  | nothing
  /-- The boundary between two values that stay apart. -/
  | gap
  deriving DecidableEq, Repr

def pieces (making : Provenance) (o : Octets) : List Piece := o.map (.char · making)

/-- The characters of pieces; values that were apart are joined by a space. -/
def pieceText : List Piece → Octets
  | [] => []
  | .char c _ :: ps => c :: pieceText ps
  | .nothing :: ps => pieceText ps
  | .gap :: ps => ' ' :: pieceText ps

/-- The characters of pieces with whether they are quoted. -/
def pieceMarks : List Piece → List Marked
  | [] => []
  | .char c making :: ps => (c, making = .quoted) :: pieceMarks ps
  | .nothing :: ps => pieceMarks ps
  | .gap :: ps => (' ', false) :: pieceMarks ps

def separators : Run Octets := return (← value? "IFS").getD [' ', '\t', '\n']

/-! ### The output of commands -/

/-- What commands wrote, without octets of value zero and without the line ends at the end. -/
def takeOutput (x : Run Unit) : Run Octets := do
  let (o, status) ← capture do
    change fun s => { s with flags := s.flags.filter (· ≠ 'e') }
    x
  change fun s => { s with status, outputStatus := some status }
  let kept := o.filter (·.toNat ≠ 0)
  if kept.length ≠ o.length then
    complain (text "warning: command substitution: ignored null byte in input")
  return (kept.reverse.dropWhile (· = '\n')).reverse

/-- A file that holds what commands write, by its name. -/
def outputFile (x : Run Unit) : Run Octets := do
  let (o, _) ← capture x
  let n ← openStream { target := .memory o.toArray, writes := false }
  let used := (← session).descriptors.map (·.1)
  let fd := (((List.range 64).reverse.find? fun k => !used.contains k)).getD 63
  change fun s => { s with descriptors := assign fd n s.descriptors }
  return text s!"/dev/fd/{fd}"

/-! ### Values of parameters -/

/-- The value of a parameter: one value or none, or several. -/
inductive Found where
  | one (value : Option Octets)
  | many (values : List Octets) (joined : Bool)

def Subject.name : Subject → Octets
  | .variable n => n.toList
  | .element n _ => n.toList
  | .elements n joined => n.toList ++ (if joined then ['[', '*', ']'] else ['[', '@', ']'])
  | .argument k => decimalDigits k
  | .arguments joined => if joined then ['*'] else ['@']
  | .special c => [c]
  | .indirect s => '!' :: s.name
  | .names s => s.toList
  | .indices n => n.toList

/-- The value of a parameter, given how to expand the text of an index. -/
def findValue (index : Word → Run Octets) : Subject → Run Found
  | .variable n => return .one (← value? n)
  | .element n w => do
    let i ← calculate (← index w)
    return .one (← element? n i)
  | .elements n joined => do
    let v := (← variableOf? n).getD {}
    return .many (v.elements.map (·.2)) joined
  | .argument k => do
    let s ← session
    if k = 0 then return .one (some s.name) else return .one s.arguments[k - 1]?
  | .arguments joined => return .many (← session).arguments joined
  | .special c => do
    let s ← session
    match c with
    | '?' => return .one (some (decimalDigits s.status))
    | '#' => return .one (some (decimalDigits s.arguments.length))
    | '$' => return .one (some (text "12345"))
    | '!' => return .one (s.background.map decimalDigits)
    | _ => return .one (some (s.flags.reverse ++ text "hBc"))
  | .names start => do
    let s ← session
    let names := (s.vars.map (·.1)).filter fun n => startsWith start.toList n.toList
    return .many ((names.map String.toList).mergeSort Octets.before) true
  | .indices n => do
    let v := (← variableOf? n).getD {}
    return .many (v.elements.map fun e => decimalDigits e.1) false
  | .indirect _ => return .one none

def namedSubject? (o : Octets) : Option Subject :=
  match subject? o with
  | some (s, []) => some s
  | some (.variable n, '[' :: rest) =>
    match rest.reverse with
    | ']' :: index =>
      if index = ['@'] then some (.elements n false)
      else if index = ['*'] then some (.elements n true)
      else some (.element n [.quoted index.reverse])
    | _ => none
  | _ => none

/-- The value of a parameter, found through another one if it is indirect. -/
def findThrough (index : Word → Run Octets) : Subject → Run Found
  | .indirect inner => do
    match ← findValue index inner with
    | .one (some o) =>
      match namedSubject? o with
      | some s => findValue index s
      | none =>
        complain (o ++ text ": invalid variable name")
        giveUp
    | .one none =>
      complain (inner.name ++ text ": invalid indirect expansion")
      giveUp
    | found => return found
  | s => findValue index s

def emitFound (double : Bool) : Found → Run (List Piece)
  | .one o => return pieces (if double then .quoted else .expanded) (o.getD [])
  | .many os joined => do
    if double && joined then
      let mark := (← value? "IFS").map (·.take 1)
      return pieces .quoted (List.intercalate (mark.getD [' ']) os)
    else
      let each (o : Octets) : List Piece :=
        if double then (if o.isEmpty then [.nothing] else pieces .quoted o) else pieces .expanded o
      return List.intercalate [.gap] (os.map each)

/-! ### Changes of values -/

def sliceList {α : Type} (start : Int) (length : Option Int) (as : List α) : Option (List α) :=
  let size : Int := as.length
  let first := if start < 0 then size + start else start
  if first < 0 || size < first then some []
  else match length with
    | none => some (as.drop first.toNat)
    | some l =>
      let last := if l < 0 then size + l else min size (first + l)
      if last < first then none else some ((as.drop first.toNat).take (last - first).toNat)

/-- A text with its letters in another case, all of them or the first, where they match a pattern. -/
def recaseText (kind : CaseChange) (all : Bool) (pattern : List Glob) (o : Octets) : Octets :=
  let change (c : Octets) : Octets :=
    if pattern.isEmpty || matchesAll pattern [c] then
      match c with
      | [_] => recased kind c
      | _ => wide c
    else c
  match Octets.characters o with
  | [] => []
  | c :: cs => change c ++ (if all then cs.flatMap change else cs.flatten)
where
  /-- A letter outside ASCII in the other case: the Latin, Greek and Cyrillic letters whose cases stand
  in two rows of the character table. -/
  wide (c : Octets) : Octets :=
    match (Octets.toString c).toList with
    | [d] =>
      let n := d.toNat
      let lowers := (0xE0 ≤ n && n ≤ 0xFE && n ≠ 0xF7) || (0x3B1 ≤ n && n ≤ 0x3C9 && n ≠ 0x3C2)
        || (0x430 ≤ n && n ≤ 0x44F)
      let uppers := (0xC0 ≤ n && n ≤ 0xDE && n ≠ 0xD7) || (0x391 ≤ n && n ≤ 0x3A9)
        || (0x410 ≤ n && n ≤ 0x42F)
      let other : Char :=
        if lowers && kind ≠ .lower then Char.ofNat (n - 32)
        else if uppers && kind ≠ .upper then Char.ofNat (n + 32)
        else d
      Octets.ofString (String.ofList [other])
    | _ => c

def transformText (operator : Char) (o : Octets) : Octets :=
  match operator with
  | 'Q' => if hasUnprintable o then escapeQuoted o else singleQuoted o
  | 'U' => recaseText .upper true [] o
  | 'L' => recaseText .lower true [] o
  | 'u' => recaseText .upper false [] o
  | 'E' => escaped (o.length + 1) o
  | _ => o

def Found.map (f : Octets → Octets) : Found → Found
  | .one o => .one (o.map f)
  | .many os joined => .many (os.map f) joined

/-- Whether there is a value, and one that is not empty if that is asked for. -/
def Found.isPresent (colon : Bool) : Found → Bool
  | .one none => false
  | .one (some o) => !(colon && o.isEmpty)
  | .many [] _ => false
  | .many [o] _ => !(colon && o.isEmpty)
  | .many _ _ => true

def expandParameter (expand : Bool → Word → Run (List Piece)) (double : Bool) (subject : Subject) :
    Change → Run (List Piece)
  | change => do
    let asText (w : Word) : Run Octets := pieceText <$> expand true w
    let asGlob (w : Word) : Run (List Glob) := (Glob.ofMarked ∘ pieceMarks) <$> expand false w
    let found ← findThrough asText subject
    let isUnset := match found with
      | .one none => true
      | _ => false
    let guarded : Run Unit := do
      if isUnset && (← hasFlag 'u') then
        complain (subject.name ++ text ": unbound variable")
        leaveUnset
    let operand (w : Word) : Run (List Piece) := do
      let ps ← expand double w
      return if double then ps else ps.map fun
        | .char c .written => .char c .expanded
        | p => p
    match change with
    | .keep =>
      guarded
      emitFound double found
    | .length =>
      guarded
      match subject, found with
      | .arguments _, .many os _ => emitFound double (.one (some (decimalDigits os.length)))
      | .elements _ _, .many os _ => emitFound double (.one (some (decimalDigits os.length)))
      | _, .one o =>
        emitFound double (.one (some (decimalDigits (Octets.characters (o.getD [])).length)))
      | _, _ => emitFound double found
    | .presence .replace colon w =>
      if found.isPresent colon then operand w else return []
    | .presence .default colon w =>
      if found.isPresent colon then emitFound double found else operand w
    | .presence .require colon w =>
      if found.isPresent colon then emitFound double found
      else
        let message ← asText w
        complain (subject.name ++ text ": " ++ (if message.isEmpty then
          text (if colon then "parameter null or not set" else "parameter not set") else message))
        leaveUnset
    | .presence .assign colon w =>
      if found.isPresent colon then emitFound double found
      else
        match subject with
        | .variable n =>
          let o ← asText w
          let _ ← store n o
          emitFound double (.one (← value? n))
        | .element n i =>
          let o ← asText w
          let k ← calculate (← asText i)
          let _ ← storeElement n k o
          emitFound double (.one (some o))
        | _ =>
          complain (text "$" ++ subject.name ++ text ": cannot assign in this way")
          giveUp
    | .dropStart longest w =>
      guarded
      let p ← asGlob w
      emitFound double (found.map (Script.dropStart longest p))
    | .dropEnd longest w =>
      guarded
      let p ← asGlob w
      emitFound double (found.map (Script.dropEnd longest p))
    | .slice start length => do
      guarded
      let first ← calculate (← asText start)
      let size ← match length with
        | none => pure none
        | some w => some <$> (do calculate (← asText w))
      let short {α : Type} : Run α := do
        let shown ← match length with
          | some w => asText w
          | none => pure []
        complain (shown ++ text ": substring expression < 0")
        giveUp
      match found with
      | .one none => return []
      | .one (some o) =>
        match sliceList first size (Octets.characters o) with
        | some cs => emitFound double (.one (some cs.flatten))
        | none => short
      | .many os joined =>
        let s ← session
        let whole := match subject with
          | .arguments _ => s.name :: os
          | _ => os
        match sliceList (if first = 0 then 0 else first) size whole with
        | some picked => emitFound double (.many picked joined)
        | none => short
    | .substitute which pattern replacement =>
      guarded
      let p ← asGlob pattern
      let r ← pieceText <$> expand double replacement
      emitFound double (found.map (substituteIn which p r))
    | .recase kind all w =>
      guarded
      let p ← asGlob w
      emitFound double (found.map (recaseText kind all p))
    | .transform c =>
      guarded
      emitFound double (found.map (transformText c))
where
  /-- A text with matches of a pattern replaced. -/
  substituteIn (which : Occurrence) (p : List Glob) (r o : Octets) : Octets :=
    let s := Octets.characters o
    match which with
    | .first => if p.isEmpty then o else replaceMatches false p r (s.length + 1) s
    | .all => if p.isEmpty then o else replaceMatches true p r (s.length + 1) s
    | .atStart =>
      match (matchLengths p s).getLast? with
      | some k => r ++ (s.drop k).flatten
      | none => o
    | .atEnd =>
      match (List.range (s.length + 1)).find? fun k => matchesAll p (s.drop k) with
      | some k => (s.take k).flatten ++ r
      | none => o

/-! ### Words -/

/-- Whether a part can stand for no field at all inside double quotes. -/
def vanishes : Part → Bool
  | .parameter (.arguments false) _ => true
  | .parameter (.elements _ false) _ => true
  | _ => false

def expandPart (h : Hooks) (expand : Bool → Word → Run (List Piece)) (double : Bool) :
    Part → Run (List Piece)
  | .plain t => return pieces (if double then .quoted else .written) t
  | .quoted t => return if t.isEmpty && !double then [.nothing] else pieces .quoted t
  | .enclosed ps => do
    let inner ← expand true ps
    return if inner.isEmpty && !ps.any vanishes then [.nothing] else inner
  | .parameter subject change => expandParameter expand double subject change
  | .output body => do
    let o ← takeOutput (h.commands body)
    return pieces (if double then .quoted else .expanded) o
  | .backquoted t => do
    let o ← takeOutput (h.script "command substitution" t)
    return pieces (if double then .quoted else .expanded) o
  | .arithmetic e => do
    let i ← calculate (pieceText (← expand true e))
    return pieces (if double then .quoted else .expanded) (decimal i)
  | .outputFile body => return pieces .quoted (← outputFile (h.commands body))
  | .malformed t => do
    complain (t ++ text ": bad substitution")
    giveUp

def expandParts (h : Hooks) : Nat → Bool → Word → Run (List Piece)
  | 0, _, _ => throw .exhausted
  | n + 1, double, w => List.flatten <$> w.mapM (expandPart h (expandParts h n) double)

def wordDepth : Nat := 200

/-- The home directory that a tilde at the start of a word stands for. -/
def expandTilde : Word → Run Word
  | .plain ('~' :: t) :: rest => do
    let user := t.takeWhile (· ≠ '/')
    let isWhole := rest.isEmpty || user.length < t.length
    match user with
    | [] =>
      if isWhole then
        return .quoted ((← value? "HOME").getD (text "/root")) :: Part.before (.plain t) rest
      else return .plain ('~' :: t) :: rest
    | ['+'] =>
      if isWhole then
        return .quoted ((← value? "PWD").getD []) :: Part.before (.plain (t.drop 1)) rest
      else return .plain ('~' :: t) :: rest
    | _ =>
      if isWhole && user = text "root" then
        return .quoted (text "/root") :: Part.before (.plain (t.drop 4)) rest
      else return .plain ('~' :: t) :: rest
  | w => return w

def expandWord (h : Hooks) (w : Word) : Run (List Piece) := do
  expandParts h wordDepth false (← expandTilde w)

def expandText (h : Hooks) (w : Word) : Run Octets := pieceText <$> expandWord h w

def expandPattern (h : Hooks) (w : Word) : Run (List Glob) :=
  (Glob.ofMarked ∘ pieceMarks) <$> expandWord h w

def expandExpression (h : Hooks) (w : Word) : Run Octets :=
  pieceText <$> expandParts h wordDepth true w

/-! ### Fields -/

/-- The fields of pieces.  Characters that expansions made and that separate fields are dropped; blanks
among them are taken together, another one ends a field even if the field is empty.  `current` is the
field being read, the last character first; `closed` tells that blanks have just ended one. -/
def splitFields (ifs : Octets) : Option (List Marked) → Bool → List Piece → List (List Marked)
  | none, _, [] => []
  | some f, _, [] => [f.reverse]
  | current, _, .nothing :: ps => splitFields ifs (some (current.getD [])) false ps
  | none, _, .gap :: ps => splitFields ifs none false ps
  | some f, _, .gap :: ps => f.reverse :: splitFields ifs none false ps
  | current, closed, .char c making :: ps =>
    if making = .expanded && ifs.contains c then
      let isBlank := c = ' ' || c = '\t' || c = '\n'
      match current, isBlank with
      | some f, true => f.reverse :: splitFields ifs none true ps
      | some f, false => f.reverse :: splitFields ifs none false ps
      | none, true => splitFields ifs none closed ps
      | none, false =>
        if closed then splitFields ifs none false ps else [] :: splitFields ifs none false ps
    else splitFields ifs (some ((c, making = .quoted) :: current.getD [])) false ps

/-- Whether a field is a file pattern. -/
def isPattern (f : List Marked) : Bool :=
  f.any fun m => !m.2 && (m.1 = '*' || m.1 = '?' || m.1 = '[')

def fieldParts : List Marked → List (List Marked)
  | [] => [[]]
  | m :: ms =>
    match fieldParts ms with
    | [] => [[m]]
    | p :: ps => if m.1 = '/' then [] :: p :: ps else (m :: p) :: ps

/-- The names of files that the parts of a pattern match below a directory. -/
def matchParts (fs : Files) (base : Path) (written : Octets) : List (List Marked) → List Octets
  | [] => []
  | part :: rest =>
    let pattern := Glob.ofMarked part
    let last := rest.isEmpty
    let names : List (Octets × FileEntry) :=
      if isPattern part then
        (fs.children base).filterMap fun (name, e) =>
          let o := Octets.ofString name
          let isHidden := o.head? = some '.' && (part.head?.map (·.1)) ≠ some '.'
          if !isHidden && matchesAll pattern (Octets.characters o) then some (o, e) else none
      else
        let o := part.map (·.1)
        if o.isEmpty then [(o, .directory)]
        else match fs.entry? (base ++ [Octets.toString o]) with
          | some e => [(o, e)]
          | none => []
    names.flatMap fun (o, e) =>
      if last then [written ++ o]
      else match e with
        | .directory =>
          let below := if o.isEmpty then base else base ++ [Octets.toString o]
          matchParts fs below (written ++ o ++ ['/']) rest
        | .file _ => []

/-- The texts of a field: the names of the files that it matches, or the field itself. -/
def expandField (f : List Marked) : Run (List Octets) := do
  let plain := f.map (·.1)
  if !isPattern f || (← hasFlag 'f') then return [plain]
  else
    let fs := { (← get).world.files with here := (← session).here }
    let parts := fieldParts f
    let found := match parts with
      | [] :: rest => matchParts fs [] ['/'] rest
      | _ => matchParts fs fs.here [] parts
    let sorted := found.mergeSort fun a b => !Octets.before b a
    match sorted with
    | [] =>
      if ← hasOption "nullglob" then return []
      else return [plain]
    | names => return names

def expandFields (h : Hooks) (w : Word) : Run (List Octets) := do
  let ps ← expandWord h w
  let fields := splitFields (← separators) none false ps
  return (← fields.mapM expandField).flatten

def expandWords (h : Hooks) (ws : List Word) : Run (List Octets) :=
  List.flatten <$> ws.mapM fun w => List.flatten <$> (expandBraces w).mapM (expandFields h)

end SecretForge.Script
