import SecretForge.Text.Utf8
import SecretForge.Yaml.Token.Scalar
import SecretForge.Yaml.Token

/-!
# Directives, anchors and tags in a YAML text

The tokens that say something about the document or about the node that follows them.
-/

namespace SecretForge.Yaml

open SecretForge.Text

/-- The longest run of word characters, which must not be empty. -/
def word (c : Cursor) : Except Fault (String × Cursor) :=
  match c.span isWordChar with
  | ([], _) => .error .malformed
  | (cs, c) => .ok (String.ofList cs, c)

/-- A part of a version number, which is read like any whole number. -/
def versionNumber (c : Cursor) : Except Fault (Nat × Cursor) :=
  match c.span Char.isDigit with
  | ([], _) => .error .malformed
  | (cs, c) => do
    let n ← (Number.readInteger 10 (String.ofList cs)).mapError .integer
    return (n.toNat, c)

def isTagChar (c : Char) : Bool :=
  isWordChar c || [';', '/', '?', ':', '@', '&', '=', '+', '$', ',', '.', '!', '~', '*', '\'', '(',
    ')', '[', ']'].contains c

/-- The bytes of the percent escapes here, and the place after them. -/
def percentBytes : Nat → Cursor → Except Fault (List UInt8 × Cursor)
  | 0, c => .ok ([], c)
  | fuel + 1, c =>
    if c.head ≠ '%' then .ok ([], c)
    else match hexDigit? (c.peek 1), hexDigit? (c.peek 2) with
      | some a, some b =>
        (percentBytes fuel (c.skip 3)).map fun (bs, c) => ((a * 16 + b).toUInt8 :: bs, c)
      | _, _ => .error .malformed

/-- The characters of a tag here, with percent escapes decoded. -/
def tagChars : Nat → Cursor → Except Fault (List Char × Cursor)
  | 0, c => .ok ([], c)
  | fuel + 1, c => do
    let (part, next) := c.span isTagChar
    if next.head = '%' then
      let (bs, next) ← percentBytes (next.rest.length + 1) next
      match Utf8.decode bs with
      | .error _ => throw .malformed
      | .ok s =>
        let (more, last) ← tagChars fuel next
        return (part ++ s.toList ++ more, last)
    else return (part, next)

/-- A tag or the start of one, which must not be empty. -/
def tagText (c : Cursor) : Except Fault (String × Cursor) := do
  if !(isTagChar c.head || c.head = '%') then throw .malformed
  let (cs, c) ← tagChars (c.rest.length + 1) c
  return (String.ofList cs, c)

/-- A tag handle: an exclamation mark, or a word between two. -/
def tagHandle (c : Cursor) : Except Fault (String × Cursor) :=
  if c.head ≠ '!' then .error .malformed
  else if c.peek 1 = ' ' then .ok ("!", c.advance)
  else
    let (cs, next) := c.advance.span isWordChar
    if next.head ≠ '!' then .error .malformed
    else .ok (String.ofList ('!' :: cs ++ ['!']), next.advance)

/-- A directive, from its percent sign. -/
def directive (c : Cursor) : Except Fault (Token × Cursor) := do
  let (name, c) ← word c.advance
  if !isSpaceOrEnd c.head then throw .malformed
  let (token, c) ←
    if name = "YAML" then do
      let (major, c) ← versionNumber c.skipSpaces
      if c.head ≠ '.' then throw .malformed
      let (_, c) ← versionNumber c.advance
      if !isSpaceOrEnd c.head then throw .malformed
      pure (Token.version major, c)
    else if name = "TAG" then do
      let (handle, c) ← tagHandle c.skipSpaces
      if c.head ≠ ' ' then throw .malformed
      let (target, c) ← tagText c.skipSpaces
      if !isSpaceOrEnd c.head then throw .malformed
      pure (Token.handle handle target, c)
    else pure (Token.reserved, (c.span (!isBreak ·)).2)
  let c ← ignoredLine c
  return (token, c)

/-- The name after the indicator of an anchor or an alias. -/
def anchorName (c : Cursor) : Except Fault (String × Cursor) := do
  let (name, c) ← word c.advance
  if isBlankOrEnd c.head || ['?', ':', ',', ']', '\x7d', '%', '@', '\x60'].contains c.head then
    return (name, c)
  else throw .malformed

/-- A tag, from its exclamation mark: written in full between angle brackets, alone, or as a handle
and a suffix. -/
def tagToken (c : Cursor) : Except Fault (Token × Cursor) := do
  let next := c.peek 1
  let (token, c) ←
    if next = '<' then do
      let (suffix, c) ← tagText (c.skip 2)
      if c.head ≠ '>' then throw .malformed
      pure (Token.tag none suffix, c.advance)
    else if isBlankOrEnd next then pure (Token.tag none "!", c.advance)
    else do
      let body := (c.rest.drop 1).takeWhile (!isSpaceOrEnd ·)
      let (handle, c) ← if body.contains '!' then tagHandle c else pure ("!", c.advance)
      let (suffix, c) ← tagText c
      pure (Token.tag (some handle) suffix, c)
  if isSpaceOrEnd c.head then return (token, c) else throw .malformed

end SecretForge.Yaml
