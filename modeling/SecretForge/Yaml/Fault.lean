import SecretForge.Calendar
import SecretForge.Number.Integer

/-!
# Faults of a YAML text

Why a text has no value: it is no well-formed document, or a scalar of it cannot be converted to the
type that its form or its tag gives it.
-/

namespace SecretForge.Yaml

open SecretForge.Calendar SecretForge.Number SecretForge.Text

/-- Why a text has no value. -/
inductive Fault where
  /-- The text is no single well-formed document of known types. -/
  | malformed
  /-- An escape names a code point beyond the last one. -/
  | codePointTooLarge
  /-- An escape names a code point that does not even fit a machine integer. -/
  | codePointOverflow
  /-- A number without any character. -/
  | emptyNumber
  /-- A whole number that cannot be read. -/
  | integer (fault : IntegerFault)
  /-- A decimal number that cannot be read. -/
  | double (text : String)
  /-- A truth value with an unknown name. -/
  | unknownTruthValue (text : String)
  /-- The weight of a part of a sexagesimal number is beyond every double. -/
  | weightTooLarge
  /-- A timestamp that has no date in it. -/
  | notATimestamp
  /-- A timestamp that a mapping stands for. -/
  | timestampOfMapping
  /-- A date or time out of range. -/
  | outOfRange (bound : OutOfRange)
  deriving DecidableEq, Repr

def Fault.message : Fault → String
  | .malformed => "<yaml error>"
  | .codePointTooLarge => "chr() arg not in range(0x110000)"
  | .codePointOverflow => "Python int too large to convert to C int"
  | .emptyNumber => "string index out of range"
  | .integer f => f.message
  | .double text => "could not convert string to float: " ++ Quoted.text text
  | .unknownTruthValue text => Quoted.text text
  | .weightTooLarge => "int too large to convert to float"
  | .timestampOfMapping => "expected string or bytes-like object, got 'list'"
  | .notATimestamp => "'NoneType' object has no attribute 'groupdict'"
  | .outOfRange b => b.message

end SecretForge.Yaml
