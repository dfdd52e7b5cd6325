import SecretForge.Number.Places
import SecretForge.Value

/-!
# Messages with arguments

A message may hold directives, each of which starts with a percent sign and is replaced by an
argument: the next of a sequence, or the one that the directive names.  A message without arguments
is taken as it stands, percent signs and all.

* `Piece.ofText` takes a message apart, `Message.fill` puts the arguments in.
* A directive that cannot be filled is a fault, and so is an argument that is left over.
-/

namespace SecretForge

open SecretForge.Number SecretForge.Text

/-- Why a message cannot be filled in. -/
inductive MessageFault where
  | incomplete
  | incompleteKey
  | needsMapping
  | missingKey (key : String)
  | notEnough
  | leftOver
  | widthNotInt
  /-- A width that is written out is beyond a machine word. -/
  | widthTooBig
  /-- A precision that is written out is beyond half a machine word. -/
  | precisionTooBig
  /-- A width that an argument gives is beyond a machine word. -/
  | widthOverflow
  /-- A precision that an argument gives is beyond half a machine word. -/
  | precisionOverflow
  /-- The digits of a whole number at this precision have no length. -/
  | precisionTooLarge
  /-- The message would not fit the memory. -/
  | outOfMemory
  | unsupported (conversion : Char) (offset : Nat)
  | notInteger (conversion : Char) (kind : String)
  | notNumber (conversion : Char) (kind : String)
  | notReal (kind : String)
  | notChar
  | charRange
  | tooLarge
  | infinite
  | notANumber
  | digits (fault : IntegerFault)
  deriving DecidableEq, Repr

def MessageFault.message : MessageFault → String
  | .incomplete => "incomplete format"
  | .incompleteKey => "incomplete format key"
  | .needsMapping => "format requires a mapping"
  | .missingKey key => Quoted.text key
  | .notEnough => "not enough arguments for format string"
  | .leftOver => "not all arguments converted during string formatting"
  | .widthNotInt => "* wants int"
  | .widthTooBig => "width too big"
  | .precisionTooBig => "precision too big"
  | .widthOverflow => "Python int too large to convert to C ssize_t"
  | .precisionOverflow => "Python int too large to convert to C int"
  | .precisionTooLarge => "precision too large"
  | .outOfMemory => ""
  | .unsupported c offset =>
    let shown := if 31 ≤ c.toNat && c.toNat ≤ 126 then c else '?'
    let code := String.ofList (Nat.toDigits 16 c.toNat)
    s!"unsupported format character '{shown}' (0x{code}) at index {offset}"
  | .notInteger c kind => s!"%{c} format: an integer is required, not {kind}"
  | .notNumber c kind => s!"%{c} format: a real number is required, not {kind}"
  | .notReal kind => s!"must be real number, not {kind}"
  | .notChar => "%c requires int or char"
  | .charRange => "%c arg not in range(0x110000)"
  | .tooLarge => "int too large to convert to float"
  | .infinite => "cannot convert float infinity to integer"
  | .notANumber => "cannot convert float NaN to integer"
  | .digits fault => fault.message

/-- A number in a directive: written out, or the next argument. -/
inductive Extent where
  | given (n : Nat)
  | next
  deriving DecidableEq, Repr

/-- The name of an argument in a directive. -/
inductive ArgumentKey where
  | named (key : String)
  | unclosed
  deriving DecidableEq, Repr

/-- A directive.  One that the end of the message cuts off has no conversion. -/
structure Directive where
  key : Option ArgumentKey := none
  left : Bool := false
  plus : Bool := false
  blank : Bool := false
  alternate : Bool := false
  zero : Bool := false
  width : Option Extent := none
  precision : Option Extent := none
  /-- The letter that says how the argument is written, and its place in the message. -/
  conversion : Option (Char × Nat) := none
  deriving DecidableEq, Repr

inductive Piece where
  | text (c : Char)
  | directive (d : Directive)
  deriving DecidableEq, Repr

namespace Piece

/-- The name up to the bracket that closes it, at a depth of open brackets, and what follows. -/
def keyFrom : Nat → List Char → Option (List Char × List Char)
  | _, [] => none
  | depth, c :: cs =>
    if c = ')' then
      match depth with
      | 0 => some ([], cs)
      | depth + 1 => (keyFrom depth cs).map fun (k, rest) => (c :: k, rest)
    else
      (keyFrom (if c = '(' then depth + 1 else depth) cs).map fun (k, rest) => (c :: k, rest)

/-- A number or an asterisk, and what follows. -/
def extentFrom : List Char → Option Extent × List Char
  | '*' :: cs => (some .next, cs)
  | cs =>
    let ds := cs.takeWhile Char.isDigit
    (if ds.isEmpty then none else some (.given (ofDigits 10 (ds.map fun c => c.toNat - 48))),
      cs.drop ds.length)

/-- The directive after its percent sign and its name, and what follows; `total` is the length of the
whole message. -/
def directiveFrom (total : Nat) (key : Option ArgumentKey) (cs : List Char) :
    Directive × List Char :=
  let flags := cs.takeWhile fun c => "-+ #0".toList.contains c
  let (width, cs) := extentFrom (cs.drop flags.length)
  let (precision, cs) := match cs with
    | '.' :: cs =>
      let (p, cs) := extentFrom cs
      (some (p.getD (.given 0)), cs)
    | cs => (none, cs)
  let cs := match cs with
    | c :: rest => if c = 'h' || c = 'l' || c = 'L' then rest else cs
    | [] => []
  let d : Directive :=
    { key, width, precision
      left := flags.contains '-'
      plus := flags.contains '+'
      blank := flags.contains ' '
      alternate := flags.contains '#'
      zero := flags.contains '0' }
  match cs with
  | [] => (d, [])
  | c :: rest => ({ d with conversion := some (c, total - cs.length) }, rest)

/-- The pieces of the rest of a message, read in at most `fuel` pieces. -/
def fromChars (total : Nat) : Nat → List Char → List Piece
  | 0, _ => []
  | _, [] => []
  | fuel + 1, '%' :: '%' :: cs => .text '%' :: fromChars total fuel cs
  | fuel + 1, '%' :: '(' :: cs =>
    match keyFrom 0 cs with
    | none => [.directive { key := some .unclosed }]
    | some (k, cs) =>
      let (d, rest) := directiveFrom total (some (.named (String.ofList k))) cs
      .directive d :: fromChars total fuel rest
  | fuel + 1, '%' :: cs =>
    let (d, rest) := directiveFrom total none cs
    .directive d :: fromChars total fuel rest
  | fuel + 1, c :: cs => .text c :: fromChars total fuel cs

def ofText (msg : String) : List Piece :=
  let cs := msg.toList
  fromChars cs.length cs.length cs

end Piece

/-- The arguments of a message: a sequence, or one mapping. -/
inductive Arguments where
  | positional (values : List Value)
  | mapping (entries : List (Value × Value))

namespace Message

/-- The arguments that are still to come, and the mapping that names are looked up in. -/
structure Supply where
  rest : List Value
  /-- Whether an argument may be left over. -/
  loose : Bool
  names : Option (List (Value × Value))

/-- The supply at the start of a message.  A mapping as a whole is also its one argument. -/
def Supply.ofArguments : Arguments → Supply
  | .positional values => ⟨values, false, none⟩
  | .mapping entries => ⟨[.map entries], true, some entries⟩

def Supply.next (s : Supply) : Except MessageFault (Value × Supply) :=
  match s.rest with
  | [] => .error .notEnough
  | v :: rest => .ok (v, { s with rest })

/-- The argument that a directive names becomes the only one to come. -/
def Supply.select (s : Supply) : Option ArgumentKey → Except MessageFault Supply
  | none => .ok s
  | some key =>
    match s.names, key with
    | none, _ => .error .needsMapping
    | some _, .unclosed => .error .incompleteKey
    | some entries, .named k =>
      match Layered.under? k entries with
      | none => .error (.missingKey k)
      | some v => .ok { s with rest := [v] }

/-- A number of a directive that the next argument gives. -/
def Supply.nextInt (s : Supply) : Except MessageFault (Int × Supply) := do
  let (v, s) ← s.next
  match v with
  | .scalar (.int i) => return (i, s)
  | .scalar (.bool b) => return (if b then 1 else 0, s)
  | _ => throw .widthNotInt

/-- The bound of a machine word: a width lies below it. -/
def widthBound : Nat := 0x8000000000000000

/-- The bound of half a machine word: a precision lies below it. -/
def precisionBound : Nat := 0x80000000

/-- The width of a directive.  A negative one aligns to the left; the least one, which has no opposite
among machine words, counts as none. -/
def Supply.width (s : Supply) : Option Extent → Except MessageFault (Int × Supply)
  | none => .ok (0, s)
  | some (.given n) => if n < widthBound then .ok (n, s) else .error .widthTooBig
  | some .next => do
    let (i, s) ← s.nextInt
    if i < -(widthBound : Int) || (widthBound : Int) ≤ i then throw .widthOverflow
    return (if i = -(widthBound : Int) then 0 else i, s)

/-- The precision of a directive; a negative one is zero. -/
def Supply.precision (s : Supply) : Option Extent → Except MessageFault (Option Nat × Supply)
  | none => .ok (none, s)
  | some (.given n) => if n < precisionBound then .ok (some n, s) else .error .precisionTooBig
  | some .next => do
    let (i, s) ← s.nextInt
    if i < -(precisionBound : Int) || (precisionBound : Int) ≤ i then throw .precisionOverflow
    return (some i.toNat, s)

/-- A text with every character outside ASCII escaped. -/
def ascii (s : String) : List Char :=
  s.toList.flatMap fun c => if c.toNat < 128 then [c] else Quoted.escapeCode c.toNat

/-- The whole number that an argument stands for; with `truncates` a double counts as its whole
part. -/
def wholeNumber (c : Char) (truncates : Bool) (v : Value) : Except MessageFault Int :=
  match v with
  | .scalar (.int i) => .ok i
  | .scalar (.bool b) => .ok (if b then 1 else 0)
  | .scalar (.float x) =>
    if !truncates then .error (.notInteger c "float")
    else match x.toQuotient, x with
      | some (s, n, d), _ => .ok (Double.signed s (n / d))
      | none, .nan => .error .notANumber
      | none, _ => .error .infinite
  | v => .error (if truncates then .notNumber c v.kind else .notInteger c v.kind)

def realNumber (v : Value) : Except MessageFault Double :=
  match v with
  | .scalar (.float x) => .ok x
  | .scalar (.bool b) => .ok (Double.ofInt (if b then 1 else 0))
  | .scalar (.int i) =>
    match Double.ofInt i with
    | .infinite _ => .error .tooLarge
    | x => .ok x
  | v => .error (.notReal v.kind)

/-- What a directive puts in, before it is brought to its width: the text, the mark in front of the
digits, and whether it is a number. -/
structure Written where
  body : List Char
  mark : List Char := []
  number : Bool := false

/-- A whole number by its digits to a base, with at least so many of them. -/
def writtenWhole (i : Int) (ds : List Char) (least : Nat) (mark : List Char) : Written :=
  let ds := List.replicate (least - ds.length) '0' ++ ds
  ⟨(if i < 0 then ['-'] else []) ++ ds, mark, true⟩

/-- The least number of digits of a whole number, which a precision within three of its bound exceeds. -/
def leastDigits (precision : Option Nat) : Except MessageFault Nat :=
  let least := precision.getD 0
  if precisionBound ≤ least + 3 then .error .precisionTooLarge else .ok least

/-- The argument as a conversion writes it. -/
def convert (d : Directive) (precision : Option Nat) (c : Char) (offset : Nat) (v : Value) :
    Except MessageFault Written := do
  let cut (s : String) : Written :=
    ⟨match precision with
      | some p => s.toList.take p
      | none => s.toList, [], false⟩
  let real (rule : Places.Form → Nat → Nat → List Char) (places : Nat) :
      Except MessageFault Written := do
    let cs := Places.write rule ⟨places, d.alternate⟩ (← realNumber v)
    return ⟨if c.isUpper then cs.map Char.toUpper else cs, [], true⟩
  let places := precision.getD 6
  match c with
  | 's' => return cut (← v.plain.mapError .digits)
  | 'r' => return cut (← v.quoted.mapError .digits)
  | 'a' => return cut (String.ofList (ascii (← v.quoted.mapError .digits)))
  | 'c' =>
    match v with
    | .text s => if s.length = 1 then return ⟨s.toList, [], false⟩ else throw .notChar
    | .scalar (.int i) =>
      if 0 ≤ i && i < 0x110000 then return ⟨[Char.ofNat i.toNat], [], false⟩
      else throw .charRange
    | .scalar (.bool b) => return ⟨[Char.ofNat (if b then 1 else 0)], [], false⟩
    | _ => throw .notChar
  | 'e' | 'E' =>
    -- The digit before the point counts too, so that the greatest precision has room for no place.
    real Places.scientific (if places + 1 = precisionBound then 0 else places)
  | 'f' | 'F' => real Places.fixed places
  | 'g' | 'G' => real Places.general places
  | 'd' | 'i' | 'u' =>
    let i ← wholeNumber c true v
    let least ← leastDigits precision
    let ds ← (writeInteger i.natAbs).mapError .digits
    return writtenWhole i ds.toList least []
  | 'o' =>
    let i ← wholeNumber c false v
    let mark := if d.alternate then ['0', 'o'] else []
    return writtenWhole i (Nat.toDigits 8 i.natAbs) (← leastDigits precision) mark
  | 'x' | 'X' =>
    let i ← wholeNumber c false v
    let mark := if d.alternate then ['0', c] else []
    let ds := Nat.toDigits 16 i.natAbs
    let ds := if c.isUpper then ds.map Char.toUpper else ds
    return writtenWhole i ds (← leastDigits precision) mark
  | c => throw (.unsupported c offset)

/-- A written argument at its width: the sign of a number and its mark come before the zeros that fill
it up, and after the blanks. -/
def aligned (d : Directive) (width : Int) (w : Written) : List Char :=
  let (sign, body) := match w.number, w.body with
    | true, '-' :: rest => (['-'], rest)
    | true, body => (if d.plus then ['+'] else if d.blank then [' '] else [], body)
    | false, body => ([], body)
  let missing := width.natAbs - (sign.length + w.mark.length + body.length)
  if d.left || width < 0 then sign ++ w.mark ++ body ++ List.replicate missing ' '
  else if d.zero && w.number then sign ++ w.mark ++ List.replicate missing '0' ++ body
  else List.replicate missing ' ' ++ sign ++ w.mark ++ body

/-- The width from which on a message is taken not to fit the memory. -/
def memoryBound : Nat := 0x4000000000

/-- A directive filled in, and the arguments that remain. -/
def fillDirective (d : Directive) (s : Supply) : Except MessageFault (List Char × Supply) := do
  let s ← s.select d.key
  let (width, s) ← s.width d.width
  let (precision, s) ← s.precision d.precision
  match d.conversion with
  | none => throw .incomplete
  | some (c, offset) =>
    let (v, s) ← s.next
    let written ← convert d precision c offset v
    if memoryBound < width.natAbs then throw .outOfMemory
    return (aligned d width written, s)

def fillPieces : List Piece → Supply → Except MessageFault (List Char)
  | [], s => if s.rest.isEmpty || s.loose then .ok [] else .error .leftOver
  | .text c :: ps, s => (fillPieces ps s).map (c :: ·)
  | .directive d :: ps, s => do
    let (cs, s) ← fillDirective d s
    return cs ++ (← fillPieces ps s)

def fill (msg : String) (args : Arguments) : Except MessageFault String :=
  (fillPieces (Piece.ofText msg) (.ofArguments args)).map String.ofList

/-- The arguments of a record: none, one mapping that names them, or a sequence. -/
def arguments? : List Value → Option Arguments
  | [] => none
  | [.map entries] => some (if entries.isEmpty then .positional [.map []] else .mapping entries)
  | values => some (.positional values)

def ofRecord (msg : String) (args : List Value) : Except MessageFault String :=
  match arguments? args with
  | none => .ok msg
  | some args => fill msg args

end Message

end SecretForge
