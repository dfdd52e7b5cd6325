import SecretForge.Text.Digit

/-!
# Dates and timestamps

Days of the Gregorian calendar from year 1 to 9999, times of day to the microsecond, and offsets from
universal time of less than a day.  A date or timestamp outside these bounds is refused with the first
bound that it breaks, in the order offset, year, month, day, hour, minute, second.
-/

namespace SecretForge.Calendar

open SecretForge.Text

structure Date where
  year : Nat
  month : Nat
  day : Nat
  deriving DecidableEq, Repr

/-- A day with a time of day, and an offset from universal time in minutes if one is known. -/
structure Timestamp where
  date : Date
  hour : Nat
  minute : Nat
  second : Nat
  microsecond : Nat
  offset : Option Int
  deriving DecidableEq, Repr

/-- The bound that a date or timestamp breaks. -/
inductive OutOfRange where
  | offset (minutes : Int)
  | year (y : Nat)
  | month
  | day
  | hour
  | minute
  | second
  deriving DecidableEq, Repr

def isLeap (y : Nat) : Bool := y % 4 == 0 && (y % 100 != 0 || y % 400 == 0)

def daysIn (y m : Nat) : Nat :=
  if m == 2 then if isLeap y then 29 else 28
  else if m == 4 || m == 6 || m == 9 || m == 11 then 30 else 31

/-- A day, if there is one of that number. -/
def Date.make (y m d : Nat) : Except OutOfRange Date :=
  if y < 1 || 9999 < y then .error (.year y)
  else if m < 1 || 12 < m then .error .month
  else if d < 1 || daysIn y m < d then .error .day
  else .ok ⟨y, m, d⟩

/-- A timestamp, if all its parts are in range. -/
def Timestamp.make (y m d h min s micro : Nat) (offset : Option Int) :
    Except OutOfRange Timestamp := do
  match offset with
  | some o => if 1440 ≤ o.natAbs then throw (.offset o)
  | none => pure ()
  let date ← Date.make y m d
  if 23 < h then throw .hour
  if 59 < min then throw .minute
  if 59 < s then throw .second
  return ⟨date, h, min, s, micro, offset⟩

/-- A span of minutes as days and seconds, the seconds never negative. -/
def spanText (minutes : Int) : String :=
  let days := minutes.fdiv 1440
  let seconds := minutes.fmod 1440 * 60
  let parts := (if days == 0 then [] else [s!"days={days}"])
    ++ (if seconds == 0 then [] else [s!"seconds={seconds}"])
  let inner := if parts.isEmpty then "0" else String.intercalate ", " parts
  s!"datetime.timedelta({inner})"

def OutOfRange.message : OutOfRange → String
  | .offset minutes =>
    "offset must be a timedelta strictly between -timedelta(hours=24) and timedelta(hours=24), not "
      ++ spanText minutes ++ "."
  | .year y => s!"year {y} is out of range"
  | .month => "month must be in 1..12"
  | .day => "day is out of range for month"
  | .hour => "hour must be in 0..23"
  | .minute => "minute must be in 0..59"
  | .second => "second must be in 0..59"

def Date.render (d : Date) : String :=
  s!"{padded 4 d.year}-{padded 2 d.month}-{padded 2 d.day}"

/-- A date as the expression that builds it. -/
def Date.literal (d : Date) : String := s!"datetime.date({d.year}, {d.month}, {d.day})"

/-- An offset as sign, hours and minutes. -/
def offsetText (minutes : Int) : String :=
  let n := minutes.natAbs
  (if minutes < 0 then "-" else "+") ++ s!"{padded 2 (n / 60)}:{padded 2 (n % 60)}"

/-- A timestamp as date, time and offset; a whole second has no fraction. -/
def Timestamp.render (t : Timestamp) : String :=
  s!"{t.date.render} {padded 2 t.hour}:{padded 2 t.minute}:{padded 2 t.second}"
    ++ (if t.microsecond == 0 then "" else "." ++ padded 6 t.microsecond)
    ++ (match t.offset with | some o => offsetText o | none => "")

/-- An offset as the expression that builds it. -/
def zoneLiteral (minutes : Int) : String :=
  if minutes == 0 then "datetime.timezone.utc" else s!"datetime.timezone({spanText minutes})"

/-- A timestamp as the expression that builds it; trailing zero parts from the seconds on are left
out. -/
def Timestamp.literal (t : Timestamp) : String :=
  let d := t.date
  let parts := [d.year, d.month, d.day, t.hour, t.minute]
    ++ (if t.second == 0 && t.microsecond == 0 then [] else [t.second])
    ++ (if t.microsecond == 0 then [] else [t.microsecond])
  let zone := match t.offset with | some o => [s!"tzinfo={zoneLiteral o}"] | none => []
  let inner := String.intercalate ", " (parts.map toString ++ zone)
  s!"datetime.datetime({inner})"

/-- The number of days before a day, counted from the start of year 1. -/
def Date.ordinal (d : Date) : Nat :=
  let y := d.year - 1
  y * 365 + y / 4 - y / 100 + y / 400
    + (List.range (d.month - 1)).foldl (fun k i => k + daysIn d.year (i + 1)) 0 + d.day

/-- The seconds of a timestamp since the start of year 1, less its offset. -/
def Timestamp.seconds (t : Timestamp) : Int :=
  ((t.date.ordinal * 86400 + t.hour * 3600 + t.minute * 60 + t.second : Nat) : Int)
    - t.offset.getD 0 * 60

/-- Whether two timestamps name the same moment.  One with an offset and one without never do. -/
def Timestamp.same (s t : Timestamp) : Bool :=
  s.offset.isSome == t.offset.isSome && s.seconds == t.seconds && s.microsecond == t.microsecond

end SecretForge.Calendar
