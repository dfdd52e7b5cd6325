import SecretForge.Yaml.Fault

/-!
# YAML tokens

What a YAML text consists of once layout has been turned into brackets: indentation opens and closes
block collections, and the key of a mapping entry is announced before it.
-/

namespace SecretForge.Yaml

inductive Token where
  /-- A version directive. -/
  | version (major : Nat)
  /-- A directive that abbreviates a tag. -/
  | handle (name target : String)
  /-- A directive of another kind. -/
  | reserved
  | documentStart
  | documentEnd
  | blockSequenceStart
  | blockMappingStart
  | blockEnd
  | flowSequenceStart
  | flowSequenceEnd
  | flowMappingStart
  | flowMappingEnd
  | blockEntry
  | flowEntry
  | key
  | value
  | alias (name : String)
  | anchor (name : String)
  | tag (handle : Option String) (suffix : String)
  /-- A scalar, and whether it is written without quotes. -/
  | scalar (text : String) (plain : Bool)
  | streamEnd
  /-- The text cannot be split into tokens from here on. -/
  | fault (f : Fault)
  deriving DecidableEq, Repr

end SecretForge.Yaml
