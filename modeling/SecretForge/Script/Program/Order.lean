import SecretForge.Script.Format
import SecretForge.Script.Program.Excerpt

/-!
# The command language: ordering and counting lines

These programs order lines, leave out lines that are there already, and count.

* `Key` is what lines are compared by, `sort` orders lines.
* `uniq` brings equal lines in a row together.
* `wc` counts lines, words and characters; `seq` writes numbers.
-/

namespace SecretForge.Script.Order

open SecretForge.Text

/-! ### Sorting -/

structure Comparison where
  numeric : Bool := false
  general : Bool := false
  ignoresCase : Bool := false
  ignoresBlanks : Bool := false
  dictionary : Bool := false
  printable : Bool := false
  human : Bool := false
  version : Bool := false
  reversed : Bool := false
  deriving DecidableEq, Repr

/-- The part of a line from a field and a character in it to another. -/
structure Key where
  startField : Nat
  startChar : Nat := 1
  /-- The last field, and the last character in it, zero being its end. -/
  stop : Option (Nat × Nat) := none
  order : Comparison := {}
  deriving DecidableEq, Repr

def Comparison.with (c : Comparison) (letters : List Char) : Comparison :=
  let has (l : Char) : Bool := letters.contains l
  { numeric := c.numeric || has 'n', general := c.general || has 'g'
    ignoresCase := c.ignoresCase || has 'f', ignoresBlanks := c.ignoresBlanks || has 'b'
    dictionary := c.dictionary || has 'd', printable := c.printable || has 'i'
    human := c.human || has 'h', version := c.version || has 'V', reversed := c.reversed || has 'r' }

/-- A number at the start of a text as a quotient: its sign, its digits without the point, and the
number of them after the point. -/
def leadingNumber (o : Octets) : Bool × Nat × Nat × Octets :=
  let o := o.dropWhile fun c => c = ' ' || c = '\t'
  let (negative, o) : Bool × Octets := match o with
    | '-' :: rest => (true, rest)
    | rest => (false, rest)
  let whole := o.takeWhile Char.isDigit
  let after := o.drop whole.length
  let (places, after) : Octets × Octets := match after with
    | '.' :: rest => (rest.takeWhile Char.isDigit, rest.dropWhile Char.isDigit)
    | rest => ([], rest)
  let digits := whole ++ places
  (negative, (leadingValue 10 digits.length digits).1, places.length, after)

def compareNumbers (a b : Octets) : Ordering :=
  let (na, ma, pa, _) := leadingNumber a
  let (nb, mb, pb, _) := leadingNumber b
  let x : Int := (if na then -1 else 1) * (ma * Nat.pow 10 pb : Nat)
  let y : Int := (if nb then -1 else 1) * (mb * Nat.pow 10 pa : Nat)
  compare x y

def unitRank (o : Octets) : Nat :=
  match (leadingNumber o).2.2.2 with
  | 'K' :: _ | 'k' :: _ => 1
  | 'M' :: _ => 2
  | 'G' :: _ => 3
  | 'T' :: _ => 4
  | 'P' :: _ => 5
  | 'E' :: _ => 6
  | _ => 0

def compareHuman (a b : Octets) : Ordering :=
  let rank (o : Octets) : Int :=
    let (negative, m, _, _) := leadingNumber o
    if m = 0 then 0 else (if negative then -1 else 1) * (unitRank o + 1 : Nat)
  (compare (rank a) (rank b)).then (compareNumbers a b)

def compareOctets (a b : Octets) : Ordering :=
  if a = b then .eq else if Octets.before a b then .lt else .gt

/-- The parts of a version: texts and numbers in turn. -/
def versionParts : Nat → Octets → List (Octets × Nat)
  | 0, _ => []
  | _, [] => []
  | n + 1, o =>
    let lead := o.takeWhile fun c => !c.isDigit
    let digits := (o.drop lead.length).takeWhile Char.isDigit
    (lead, (leadingValue 10 digits.length digits).1)
      :: versionParts n (o.drop (lead.length + digits.length))

def compareVersions : List (Octets × Nat) → List (Octets × Nat) → Ordering
  | [], [] => .eq
  | [], _ => .lt
  | _, [] => .gt
  | (s, m) :: as, (t, n) :: bs =>
    ((compareOctets s t).then (compare m n)).then (compareVersions as bs)

/-- The order of two texts without regard to the direction. -/
def Comparison.forwards (c : Comparison) (a b : Octets) : Ordering :=
  if c.numeric || c.general then compareNumbers a b
  else if c.human then compareHuman a b
  else if c.version then
    compareVersions (versionParts (a.length + 1) a) (versionParts (b.length + 1) b)
  else
    let shape (o : Octets) : Octets :=
      let o := if c.ignoresBlanks then o.dropWhile fun c => c = ' ' || c = '\t' else o
      let o := if c.dictionary then o.filter fun c => c.isAlphanum || c = ' ' || c = '\t' else o
      let o := if c.printable then o.filter fun c => 32 ≤ c.toNat && c.toNat < 127 else o
      if c.ignoresCase then Octets.mapAscii Char.toUpper o else o
    compareOctets (shape a) (shape b)

def Comparison.compare (c : Comparison) (a b : Octets) : Ordering :=
  if c.reversed then (c.forwards a b).swap else c.forwards a b

/-- The fields of a line: between separators, or each with the blanks in front of it. -/
def fieldsOf (mark : Option Char) (l : Octets) : List Octets :=
  match mark with
  | some c => splitOnChar c l
  | none => blankFields (l.length + 1) l
where
  /-- Fields with the blanks in front of them. -/
  blankFields : Nat → Octets → List Octets
    | 0, _ => []
    | _, [] => []
    | n + 1, o =>
      let isBlank (c : Char) : Bool := c = ' ' || c = '\t' || c = '\n'
      let lead := o.takeWhile isBlank
      let word := (o.drop lead.length).takeWhile fun c => !isBlank c
      (lead ++ word) :: blankFields n (o.drop (lead.length + word.length))

def Key.part (k : Key) (mark : Option Char) (l : Octets) : Octets :=
  let fs := fieldsOf mark l
  let gap := if mark.isSome then 1 else 0
  let offset (n : Nat) : Nat := (fs.take n).foldl (fun k f => k + f.length + gap) 0
  let skip (n : Nat) : Nat :=
    if k.order.ignoresBlanks then
      ((fs.getD n []).takeWhile fun c => c = ' ' || c = '\t').length
    else 0
  let start := offset (k.startField - 1) + skip (k.startField - 1) + (k.startChar - 1)
  let stop := match k.stop with
    | none => l.length
    | some (f, 0) => offset (f - 1) + (fs.getD (f - 1) []).length
    | some (f, c) => offset (f - 1) + skip (f - 1) + c
  (l.take stop).drop start

/-- The position that a key starts or stops at, its options, and what follows. -/
def keyPosition (o : Octets) : Option (Nat × Option Nat × List Char × Octets) :=
  let (field, k) := leadingValue 10 o.length o
  if k = 0 then none
  else
    let (char, rest) : Option Nat × Octets := match o.drop k with
      | '.' :: cs =>
        let (v, j) := leadingValue 10 cs.length cs
        (some v, cs.drop j)
      | cs => (none, cs)
    let letters := rest.takeWhile Char.isAlpha
    some (field, char, letters, rest.drop letters.length)

/-- A key as an option gives it; `letters` are its own options. -/
def keyOf (o : Octets) : Except Octets (Key × List Char) :=
  let invalid (what : String) : Except Octets (Key × List Char) := .error (text what ++ quoteMarks o)
  match keyPosition o with
  | none => .error (text "invalid number at field start: invalid count at start of " ++ quoteMarks o)
  | some (0, _, _, _) => invalid "-: invalid field specification "
  | some (f, c, letters, []) => .ok ({ startField := f, startChar := c.getD 1 }, letters)
  | some (f, c, letters, ',' :: rest) =>
    match keyPosition rest with
    | some (f', c', letters', []) =>
      .ok ({ startField := f, startChar := c.getD 1, stop := some (f', c'.getD 0) }, letters ++ letters')
    | _ => .error (text "invalid number after ',': invalid count at start of " ++ quoteMarks rest)
  | some _ => invalid "stray character in field spec: invalid field specification "

/-- The letters of options that say how to compare. -/
def comparing : List Char := ['b', 'd', 'f', 'g', 'h', 'i', 'n', 'r', 'V']

/-- The order of two lines by keys, and by the whole lines if the keys do not decide. -/
def compareLines (keys : List Key) (mark : Option Char) (last : Option Bool) (a b : Octets) : Ordering :=
  let byKeys := keys.foldl (fun acc k =>
    acc.then (k.order.compare (k.part mark a) (k.part mark b))) Ordering.eq
  match last with
  | none => byKeys
  | some reversed => byKeys.then (if reversed then (compareOctets a b).swap else compareOctets a b)

/-- Lines without those that equal the one before them. -/
def distinctLines (same : Octets → Octets → Bool) : List Octets → List Octets
  | a :: b :: ls =>
    if same a b then distinctLines same (a :: ls) else a :: distinctLines same (b :: ls)
  | ls => ls

/-- The first line that stands in the wrong place, with its number. -/
def firstMisplaced (wrong : Octets → Octets → Bool) : Nat → List Octets → Option (Nat × Octets)
  | n, a :: b :: ls => if wrong a b then some (n + 1, b) else firstMisplaced wrong (n + 1) (b :: ls)
  | _, _ => none

def sort : Program where
  name := "sort"
  letters := "bdfghinrVcCsuzmk:t:o:"
  names := [("ignore-leading-blanks", 'b'), ("dictionary-order", 'd'), ("ignore-case", 'f'),
    ("general-numeric-sort", 'g'), ("human-numeric-sort", 'h'), ("numeric-sort", 'n'),
    ("reverse", 'r'), ("version-sort", 'V'), ("check", 'c'), ("stable", 's'), ("unique", 'u'),
    ("key", 'k'), ("field-separator", 't'), ("output", 'o'), ("zero-terminated", 'z')]
  wrong := 2
  run g operands := do
    let letters := (g.map (·.1)).filter comparing.contains
    let overall : Comparison := Comparison.with {} letters
    let keys : Except Octets (List Key) := ((g.filter (·.1 = 'k')).map (·.2)).mapM fun o =>
      (keyOf o).map fun (k, own) =>
        { k with order := if own.isEmpty then overall else Comparison.with {} own }
    match keys with
    | .error message =>
      remark "sort" message
      return 2
    | .ok keys =>
      match g.value? 't' with
      | some [] =>
        remark "sort" (text "empty tab")
        return 2
      | some (c :: d :: cs) =>
        if c = '\\' && d = '0' && cs.isEmpty then order g operands overall keys (some (Char.ofNat 0))
        else
          remark "sort" (text "multi-character tab " ++ quoteMarks (c :: d :: cs))
          return 2
      | some [c] => order g operands overall keys (some c)
      | none => order g operands overall keys none
where
  /-- The lines of the inputs ordered, or checked to be so. -/
  order (g : Given) (operands : List Octets) (overall : Comparison) (keys : List Key)
      (mark : Option Char) : Run Nat := do
    let all := if keys.isEmpty then [{ startField := 1, order := overall }] else keys
    let last := if g.has 's' || g.has 'u' then none else some overall.reversed
    let end_ := if g.has 'z' then Char.ofNat 0 else '\n'
    let split (o : Octets) : List Octets :=
      let parts := splitOnChar end_ o
      if parts.getLast? = some [] then parts.dropLast else parts
    let (o, status) ← withInputs (fun o f => match f with
      | .isADirectory => remark "sort" (text "read failed: " ++ o ++ text s!": {f.text}")
      | _ => remark "sort" (text "cannot read: " ++ o ++ text s!": {f.text}"))
      (fun ls _ content => return ls ++ split content) [] (orInput operands)
    if status ≠ 0 then return 2
    if g.has 'c' || g.has 'C' then
      let wrong (a b : Octets) : Bool :=
        match compareLines all mark last a b with
        | .gt => true
        | .eq => g.has 'u'
        | .lt => false
      match firstMisplaced wrong 1 o with
      | none => return 0
      | some (n, l) =>
        if g.has 'c' then
          let name := operands.headD ['-']
          remark "sort" (name ++ ':' :: decimalDigits n ++ text ": disorder: " ++ l)
        return 1
    else
      let sorted := o.mergeSort fun a b => compareLines all mark last a b != .gt
      let kept := if g.has 'u' then
          distinctLines (fun a b => compareLines all mark none a b == .eq) sorted
        else sorted
      let out := kept.flatMap (· ++ [end_])
      match g.value? 'o' with
      | none =>
        say out
        return 0
      | some path =>
        match ← openOutput path false false with
        | .ok n =>
          match (← get).world.streams[n]? with
          | some st =>
            putStream n st out
            return 0
          | none => return 0
        | .error f =>
          remark "sort" (text "open failed: " ++ path ++ text s!": {f.text}")
          return 2

/-- Lines in a row that are the same, as the first of them with their number. -/
def runsOf (same : Octets → Octets → Bool) : List Octets → List (Octets × Nat)
  | [] => []
  | l :: ls =>
    match runsOf same ls with
    | (m, n) :: rest => if same l m then (l, n + 1) :: rest else (l, 1) :: (m, n) :: rest
    | [] => [(l, 1)]

def uniq : Program where
  name := "uniq"
  letters := "cduiDf:s:w:z"
  names := [("count", 'c'), ("repeated", 'd'), ("unique", 'u'), ("ignore-case", 'i'),
    ("skip-fields", 'f'), ("skip-chars", 's'), ("check-chars", 'w')]
  run g operands := do
    let number (c : Char) : Option Nat := (g.value? c).bind naturalOf?
    let subject (l : Octets) : Octets :=
      let rest := (((fieldsOf none l).drop ((number 'f').getD 0)).flatten).drop ((number 's').getD 0)
      let rest := match number 'w' with
        | some n => rest.take n
        | none => rest
      if g.has 'i' then Octets.mapAscii Char.toLower rest else rest
    let (o, status) ← takeInput (reportFile "uniq") (operands.take 1)
    if status ≠ 0 then return status
    let runs := runsOf (fun a b => subject a == subject b) (Octets.lines o).1
    let shown := runs.flatMap fun (l, n) =>
      if g.has 'D' then (if 1 < n then List.replicate n l else [])
      else if (g.has 'd' && n = 1) || (g.has 'u' && 1 < n) then []
      else if g.has 'c' then [paddedLeft 7 (decimalDigits n) ++ ' ' :: l]
      else [l]
    sayLines shown
    return 0

/-! ### Counting -/

/-- What a text has of lines, words, characters and octets, and the length of its longest line. -/
structure Counts where
  lines : Nat := 0
  words : Nat := 0
  chars : Nat := 0
  octets : Nat := 0
  longest : Nat := 0

def wordCount : Bool → Octets → Nat
  | _, [] => 0
  | inWord, c :: cs =>
    if isSpace c then wordCount false cs
    else if inWord then wordCount true cs
    else wordCount true cs + 1

def countsOf (o : Octets) : Counts where
  lines := o.count '\n'
  words := wordCount false o
  chars := (Utf8.pieces (Octets.toBytes o)).countP fun p => match p with
    | .char _ => true
    | .fault _ _ => false
  octets := o.length
  longest := (((Octets.lines o).1.map fun l => (Octets.characters l).length).max?).getD 0

/-- The counts of two texts together. -/
def Counts.add (a b : Counts) : Counts where
  lines := a.lines + b.lines
  words := a.words + b.words
  chars := a.chars + b.chars
  octets := a.octets + b.octets
  longest := max a.longest b.longest

def wc : Program where
  name := "wc"
  letters := "lwcmL"
  names := [("lines", 'l'), ("words", 'w'), ("bytes", 'c'), ("chars", 'm'), ("max-line-length", 'L')]
  run g operands := do
    let has (c : Char) : Bool := if g.isEmpty then c = 'l' || c = 'w' || c = 'c' else g.has c
    let picked : List (Counts → Nat) :=
      ([('l', Counts.lines), ('w', Counts.words), ('m', Counts.chars), ('c', Counts.octets),
        ('L', Counts.longest)].filter fun p => has p.1).map (·.2)
    let found ← (orInput operands).mapM fun o => do
      let regular ← isRegular o
      return (o, regular, ← contentAt o)
    let width :=
      if operands.length ≤ 1 && picked.length = 1 then 1
      else if found.any fun (_, regular, r) => match r with
          | .ok _ => !regular
          | .error f => f = .isADirectory
        then 7
      else
        let total := found.foldl (fun k (_, _, r) => match r with
          | .ok content => k + content.length
          | .error _ => k) 0
        (decimalDigits total).length
    let line (c : Counts) (name : Octets) : Octets :=
      List.intercalate [' '] (picked.map fun f => paddedLeft width (decimalDigits (f c)))
        ++ (if name.isEmpty then [] else ' ' :: name) ++ ['\n']
    let counts ← found.mapM fun (o, _, r) => do
      match r with
      | .ok content =>
        let c := countsOf content
        say (line c (if operands.isEmpty then [] else o))
        return some c
      | .error f =>
        remark "wc" (o ++ text s!": {f.text}")
        if f = .isADirectory then say (line {} o)
        return none
    if 1 < operands.length then
      say (line ((counts.filterMap id).foldl Counts.add {}) (text "total"))
    return if counts.any (·.isNone) then 1 else 0
where
  /-- Whether an operand is a file that has a size. -/
  isRegular (o : Octets) : Run Bool := do
    if o = ['-'] then
      match ← stream? 0 with
      | some (_, { target := .file _, .. }) => return true
      | _ => return false
    else match ← fileAt o with
      | .ok (_, .file _) => return true
      | _ => return false

/-! ### Numbers in a row -/

/-- A decimal number: its digits without the point as a whole number, and the digits after the point. -/
structure Scaled where
  value : Int
  places : Nat
  /-- The number of characters in front of the point. -/
  width : Nat
  deriving DecidableEq, Repr

/-- The number that an operand writes. -/
def scaledOf? (o : Octets) : Option Scaled :=
  let (negative, cs) := takeSign o
  let whole := cs.takeWhile Char.isDigit
  let after := cs.drop whole.length
  let (places, after) : Octets × Octets := match after with
    | '.' :: rest => (rest.takeWhile Char.isDigit, rest.dropWhile Char.isDigit)
    | rest => ([], rest)
  let digits := whole ++ places
  if digits.isEmpty then none
  else
    let v := (leadingValue 10 digits.length digits).1
    let sign : Int := if negative then -1 else 1
    let width := (if negative then 1 else 0) + max 1 whole.length
    match after with
    | [] => some ⟨sign * v, places.length, width⟩
    | 'e' :: rest | 'E' :: rest =>
      let (minus, ds) := takeSign rest
      match naturalOf? ds with
      | some k =>
        let p : Int := (places.length : Int) + (if minus then (k : Int) else -(k : Int))
        if 0 ≤ p then some ⟨sign * v, p.toNat, width⟩
        else some ⟨sign * v * Nat.pow 10 (-p).toNat, 0, width + (-p).toNat⟩
      | none => none
    | _ => none

def Scaled.at (s : Scaled) (places : Nat) : Int := s.value * Nat.pow 10 (places - s.places)

/-- A number in decimal with its places, brought to a width with zeros. -/
def scaledText (places width : Nat) (v : Int) : Octets :=
  let digits := decimalDigits v.natAbs
  let digits := List.replicate (places + 1 - digits.length) '0' ++ digits
  let whole := digits.take (digits.length - places)
  let point : Octets := if places = 0 then [] else '.' :: digits.drop (digits.length - places)
  let sign : Octets := if v < 0 then ['-'] else []
  let size := sign.length + whole.length + point.length
  sign ++ List.replicate (width - size) '0' ++ whole ++ point

def progression (step last : Int) : Nat → Int → List Int
  | 0, _ => []
  | n + 1, v =>
    if (0 < step && last < v) || (step < 0 && v < last) then []
    else v :: progression step last n (v + step)

def seq : Program where
  name := "seq"
  letters := "f:s:w"
  names := [("format", 'f'), ("separator", 's'), ("equal-width", 'w')]
  mixes := false
  run g operands := do
    match operands with
    | [] => misuse "seq" [text "missing operand"] 1
    | _ :: _ :: _ :: extra :: _ => misuse "seq" [text "extra operand " ++ quoteMarks extra] 1
    | _ =>
      match operands.find? fun o => (scaledOf? o).isNone with
      | some o => misuse "seq" [text "invalid floating point argument: " ++ quoteMarks o] 1
      | none =>
        let one : Scaled := ⟨1, 0, 1⟩
        let numbers := operands.filterMap scaledOf?
        let (first, step, last) : Scaled × Scaled × Scaled := match numbers with
          | [a, b, c] => (a, b, c)
          | [a, c] => (a, one, c)
          | [c] => (one, one, c)
          | _ => (one, one, one)
        if step.value = 0 then
          misuse "seq" [text "invalid Zero increment value: " ++ quoteMarks (operands.getD 1 [])] 1
        else
          let places := max first.places step.places
          let scale := max places last.places
          let vs := progression (step.at scale) (last.at scale)
            (((last.at scale - first.at scale).natAbs / (step.at scale).natAbs) + 1) (first.at scale)
          let vs := vs.map fun (v : Int) => v / Nat.pow 10 (scale - places)
          let point := if places = 0 then 0 else places + 1
          let width := if g.has 'w' then max first.width last.width + point else 0
          let texts := match g.value? 'f' with
            | none => vs.map (scaledText places width)
            | some format => vs.map fun v => (printed format [scaledText places 0 v]).text
          let between := (g.value? 's').getD ['\n']
          if texts.isEmpty then return 0
          say (List.intercalate between texts ++ ['\n'])
          return 0

end SecretForge.Script.Order
