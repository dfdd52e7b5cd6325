import SecretForge.Text.Blank
import SecretForge.Text.Quoted

/-!
# Reading and writing whole numbers

A whole number is written to a base as an optional sign and digits of any script, with single
underscores between digits and blanks around it; the bases 2, 8 and 16 admit their usual marker.
Conversion between text and number is bounded: a decimal text of more than 4300 digits is refused in
both directions.
-/

namespace SecretForge.Number

open SecretForge.Text

/-- The longest decimal text that is converted. -/
def digitLimit : Nat := 4300

/-- Why a text is no whole number, or a number has no text. -/
inductive IntegerFault where
  /-- The text is not a numeral of the base. -/
  | notANumeral (base : Nat) (text : String)
  /-- The numeral has too many digits. -/
  | numeralTooLong (digits : Nat)
  /-- The number has too many digits to be written. -/
  | numberTooLong
  deriving DecidableEq, Repr

/-- The report of a fault.  A text is shown quoted, cut to 200 characters. -/
def IntegerFault.message : IntegerFault → String
  | .notANumeral base text =>
    let shown := String.ofList ((Quoted.text text).toList.take 200)
    s!"invalid literal for int() with base {base}: {shown}"
  | .numeralTooLong digits =>
    s!"Exceeds the limit ({digitLimit} digits) for integer string conversion: value has {digits} digits; "
      ++ "use sys.set_int_max_str_digits() to increase the limit"
  | .numberTooLong =>
    s!"Exceeds the limit ({digitLimit} digits) for integer string conversion; "
      ++ "use sys.set_int_max_str_digits() to increase the limit"

/-- The blanks allowed around a numeral: the ASCII spaces and every blank outside ASCII. -/
def isNumberBlank (c : Char) : Bool :=
  let n := c.toNat
  (9 ≤ n && n ≤ 13) || n == 32 || (128 ≤ n && isBlank c)

/-- The text without the blanks that are allowed around a numeral. -/
def trimNumeral (cs : List Char) : List Char :=
  ((cs.dropWhile isNumberBlank).reverse.dropWhile isNumberBlank).reverse

/-- The value of a character as a digit of a base: an ASCII digit or letter, or a decimal digit of
another script. -/
def digitOf? (base : Nat) (c : Char) : Option Nat :=
  ((asciiDigit? c).or (if c.toNat < 128 then none else decimalDigit? c)).filter (· < base)

/-- The digits of a numeral in which an underscore stands only between two digits.  `after` says
whether a digit came just before. -/
def digitsOf? (base : Nat) (after : Bool) : List Char → Option (List Nat)
  | [] => if after then some [] else none
  | c :: cs =>
    if c = '_' then if after then digitsOf? base false cs else none
    else (digitOf? base c).bind fun d => (digitsOf? base true cs).map (d :: ·)

/-- The number of digits at the start of a text, underscores not counted. -/
def leadingDigits (base : Nat) (cs : List Char) : Nat :=
  ((cs.takeWhile fun c => c = '_' || (digitOf? base c).isSome).filter (· ≠ '_')).length

/-- The value of digits to a base, most significant first. -/
def ofDigits (base : Nat) (ds : List Nat) : Nat := ds.foldl (fun acc d => acc * base + d) 0

/-- Whether a pair of characters marks a numeral of the base. -/
def isMarker (base : Nat) (c d : Char) : Bool :=
  c = '0' && ((base == 2 && (d = 'b' || d = 'B')) || (base == 8 && (d = 'o' || d = 'O'))
    || (base == 16 && (d = 'x' || d = 'X')))

/-- The digits that follow an optional marker of the base; one underscore may follow the marker. -/
def dropMarker (base : Nat) : List Char → List Char
  | c :: d :: rest =>
    if isMarker base c d then
      match rest with
      | '_' :: rest' => rest'
      | _ => rest
    else c :: d :: rest
  | cs => cs

/-- A leading sign, and the rest. -/
def takeSign : List Char → Bool × List Char
  | '-' :: cs => (true, cs)
  | '+' :: cs => (false, cs)
  | cs => (false, cs)

/-- The whole number that a text writes to a base. -/
def readInteger (base : Nat) (text : String) : Except IntegerFault Int :=
  let (negative, cs) := takeSign (trimNumeral text.toList)
  let ds := dropMarker base cs
  let count := leadingDigits base ds
  if digitLimit < count && !(base == 2 || base == 8 || base == 16) then
    .error (.numeralTooLong count)
  else match digitsOf? base false ds with
    | none => .error (.notANumeral base text)
    | some ns =>
      let n := ofDigits base ns
      .ok (if negative then -(n : Int) else n)

def writeInteger (i : Int) : Except IntegerFault String :=
  let ds := decimalDigits i.natAbs
  if digitLimit < ds.length then .error .numberTooLong
  else .ok (String.ofList (if i < 0 then '-' :: ds else ds))

end SecretForge.Number
