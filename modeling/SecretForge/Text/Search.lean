/-!
# Searching and replacing

Leftmost, non-overlapping replacement of one text inside another, read in a single pass from left to
right: a replacement is never searched again.  Substitution of placeholders and the redaction of
secrets are both built on it.
-/

namespace SecretForge.Text

/-- What follows `p` in `s`, when `s` starts with `p`. -/
def stripStart? : List Char → List Char → Option (List Char)
  | [], s => some s
  | _ :: _, [] => none
  | p :: ps, c :: cs => if p = c then stripStart? ps cs else none

def startsWith (p s : List Char) : Bool := (stripStart? p s).isSome

def occursIn (p : List Char) : List Char → Bool
  | [] => p.isEmpty
  | c :: cs => startsWith p (c :: cs) || occursIn p cs

/-- `replaceFrom p r k s` drops the next `k` characters, the rest of an occurrence already replaced,
and then replaces every occurrence of `p` by `r`. -/
def replaceFrom (p r : List Char) : Nat → List Char → List Char
  | _, [] => []
  | k + 1, _ :: cs => replaceFrom p r k cs
  | 0, c :: cs =>
    if startsWith p (c :: cs) then r ++ replaceFrom p r (p.length - 1) cs
    else c :: replaceFrom p r 0 cs

/-- Every occurrence of the non-empty `p` replaced by `r`, from left to right.  An empty `p` has no
occurrence to replace. -/
def replaceAll (p r s : List Char) : List Char :=
  if p.isEmpty then s else replaceFrom p r 0 s

def replace (p r s : String) : String :=
  String.ofList (replaceAll p.toList r.toList s.toList)

/-- The parts of `s` between the occurrences of the character `c`. -/
def splitOnChar (c : Char) : List Char → List (List Char)
  | [] => [[]]
  | d :: ds =>
    if d = c then [] :: splitOnChar c ds
    else match splitOnChar c ds with
      | [] => [[d]]
      | p :: ps => (d :: p) :: ps

end SecretForge.Text
