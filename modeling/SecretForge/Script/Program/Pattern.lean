import SecretForge.Script.Program.Excerpt
import SecretForge.Script.Regex

/-!
# The command language: looking for patterns

`grep` writes the lines that a pattern occurs in.

* `LinePattern` is what is looked for, `LinePattern.find?` finds it in a line.
* `grep` is the program.
-/

namespace SecretForge.Script.Pattern

open SecretForge.Text

structure LinePattern where
  regex : Regex
  ignoresCase : Bool := false

/-- A text as patterns see it. -/
def lowered (o : Octets) : Octets := Octets.mapAscii Char.toLower o

/-- A pattern in lower case; what follows a backslash stays as it is. -/
def loweredPattern : Octets → Octets
  | '\\' :: c :: cs => '\\' :: c :: loweredPattern cs
  | c :: cs => (if c.toNat < 128 then c.toLower else c) :: loweredPattern cs
  | [] => []

/-- The regular expression that a text writes: in the extended syntax or not, or the text itself. -/
def regexOf (extended fixed ignoresCase : Bool) (o : Octets) : Option Regex :=
  let o := if ignoresCase then (if fixed then lowered o else loweredPattern o) else o
  Regex.read extended ((Octets.characters o).map fun c => (c, fixed))

/-- The first match in a line, looked for after what was seen of it. -/
def LinePattern.find? (p : LinePattern) (seen rest : List Octets) : Option Match :=
  if p.ignoresCase then
    (searchFrom p.regex (seen.map lowered) (rest.map lowered)).map fun m =>
      let start := m.before.length - seen.length
      let tail := rest.drop start
      { m with
        before := seen.reverse ++ rest.take start, found := tail.take m.found.length
        after := tail.drop m.found.length }
  else searchFrom p.regex seen rest

/-- The matches in a line one after the other, each with at least one character. -/
def LinePattern.all (p : LinePattern) : Nat → List Octets → List Octets → List Octets
  | 0, _, _ => []
  | n + 1, seen, rest =>
    match p.find? seen rest with
    | none => []
    | some m =>
      if m.found.isEmpty then
        match m.after with
        | [] => []
        | c :: after => p.all n (c :: m.before.reverse) after
      else m.found.flatten :: p.all n (m.found.reverse ++ m.before.reverse) m.after

def usage : Run Nat := do
  warn (text "Usage: grep [OPTION]... PATTERNS [FILE]...")
  warn (text "Try 'grep --help' for more information.")
  return 2

/-- The lines of a file with their numbers that are shown. -/
def selected (g : Given) (p : LinePattern) (ls : List Octets) : List (Nat × Octets) :=
  let found := ((List.range ls.length).zip ls).filter fun (_, l) =>
    (p.find? [] (Octets.characters l)).isSome != g.has 'v'
  let found := match (g.value? 'm').bind naturalOf? with
    | some n => found.take n
    | none => found
  found.map fun (i, l) => (i + 1, l)

/-- What `grep` writes for a file. -/
def shown (g : Given) (p : LinePattern) (named : Bool) (name : Octets) (ls : List Octets) : List Octets :=
  let found := selected g p ls
  let lead (mark : Char) (n : Nat) : Octets :=
    (if named then name ++ [mark] else []) ++ (if g.has 'n' then decimalDigits n ++ [mark] else [])
  if g.has 'L' then (if found.isEmpty then [name] else [])
  else if g.has 'l' then (if found.isEmpty then [] else [name])
  else if g.has 'c' then
    [(if named then name ++ [':'] else []) ++ decimalDigits found.length]
  else if g.has 'o' then
    if g.has 'v' then []
    else found.flatMap fun (n, l) =>
      (p.all (l.length + 1) [] (Octets.characters l)).map (lead ':' n ++ ·)
  else found.map fun (n, l) => lead ':' n ++ l

def grep : Program where
  name := "grep"
  letters := "EFGPivcnoqwxe:lLshHm:azrRy"
  names := [("extended-regexp", 'E'), ("fixed-strings", 'F'), ("basic-regexp", 'G'),
    ("ignore-case", 'i'), ("invert-match", 'v'), ("count", 'c'), ("line-number", 'n'),
    ("only-matching", 'o'), ("quiet", 'q'), ("silent", 'q'), ("word-regexp", 'w'),
    ("line-regexp", 'x'), ("regexp", 'e'), ("files-with-matches", 'l'), ("no-messages", 's'),
    ("max-count", 'm'), ("no-filename", 'h'), ("with-filename", 'H')]
  wrong := 2
  run g operands := do
    let given := (g.filter (·.1 = 'e')).map (·.2)
    match (if given.isEmpty then operands.head? else some (List.intercalate ['\n'] given)) with
    | none => usage
    | some pattern =>
      let files := if given.isEmpty then operands.drop 1 else operands
      let ignoresCase := g.has 'i' || g.has 'y'
      let extended := g.has 'E' || g.has 'P'
      let parts := ((splitOnChar '\n' pattern).map (regexOf extended (g.has 'F') ignoresCase))
      match parts.mapM id with
      | none =>
        remark "grep" (text (if pattern.contains '[' then "Invalid regular expression"
          else if extended then "Unmatched ( or \\(" else "Unmatched ( or \\("))
        return 2
      | some regexes =>
        let any := (regexes.drop 1).foldl Regex.either (regexes.headD .empty)
        let regex := if g.has 'x' then .sequence .atStart (.sequence any .atEnd)
          else if g.has 'w' then .sequence .wordEdge (.sequence any .wordEdge)
          else any
        let p : LinePattern := { regex, ignoresCase }
        let named := (1 < files.length || g.has 'H') && !g.has 'h'
        let report (o : Octets) (f : FileFault) : Run Unit :=
          if g.has 's' then return else reportFile "grep" o f
        let (found, status) ← withInputs report (fun found o content => do
          let ls := (Octets.lines content).1
          let ls := if content.isEmpty then [] else ls
          let name := if o = ['-'] then text "(standard input)" else o
          if !g.has 'q' then sayLines (shown g p named name ls)
          return found || !(selected g p ls).isEmpty) false (orInput files)
        if found && g.has 'q' then return 0
        return if status ≠ 0 then 2 else if found then 0 else 1

end SecretForge.Script.Pattern
