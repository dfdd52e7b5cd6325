import SecretForge.Script.Program.Excerpt

/-!
# The command language: files and directories

These programs show, make, copy, move and remove files and directories, and take paths apart.

* `ls` shows, `mkdir`, `touch`, `cp` and `mv` make, `rm` and `rmdir` remove.
* `basename` and `dirname` are the end and the start of a path.
-/

namespace SecretForge.Script.Place

open SecretForge.Text

/-- The files as the session sees them. -/
def filesHere : Run Files := do
  let m ← get
  return { m.world.files with here := m.session.here }

def changeFiles (f : Files → Files) : Run Unit := changeWorld fun w => { w with files := f w.files }

def existing? (o : Octets) : Run (Except FileFault (Path × FileEntry)) := fileAt o

/-- Where something new at a path would stand: in a directory that exists. -/
def newPath? (o : Octets) : Run (Except FileFault Path) := do
  let fs ← filesHere
  let o := (o.reverse.dropWhile (· = '/')).reverse
  match fs.resolve (Octets.toString o) with
  | .error f => return .error f
  | .ok p => return if fs.entry? p.dropLast = some .directory then .ok p else .error .missing

/-- The statuses of operands together: one if any of them failed. -/
def anyFailed (codes : List Bool) : Nat := if codes.all id then 0 else 1

def shellQuoted (o : Octets) : Octets := '\'' :: o ++ ['\'']

/-! ### Showing -/

def namesIn (fs : Files) (g : Given) (p : Path) : List Octets :=
  let all := (fs.children p).map fun c => text c.1
  let visible := if g.has 'a' || g.has 'A' then all else all.filter fun o => o.head? ≠ some '.'
  let dots := if g.has 'a' then [['.'], ['.', '.']] else []
  let sorted := (dots ++ visible).mergeSort fun a b => !Octets.before b a
  if g.has 'r' then sorted.reverse else sorted

def ls : Program where
  name := "ls"
  letters := "1aAdFhlmnprRstSuUX"
  names := [("all", 'a'), ("almost-all", 'A'), ("directory", 'd'), ("reverse", 'r')]
  wrong := 2
  run g operands := do
    let asked := if operands.isEmpty then [['.']] else operands
    let found ← asked.mapM fun o => do
      match ← existing? o with
      | .ok (p, e) => return some (o, p, e)
      | .error f =>
        remark "ls" (text "cannot access " ++ shellQuoted o ++ text s!": {f.text}")
        return none
    let there := (found.filterMap id).mergeSort fun a b => !Octets.before b.1 a.1
    let isShown (e : FileEntry) : Bool := e = .directory && !g.has 'd'
    let fs ← filesHere
    let plain := there.filter fun t => !isShown t.2.2
    let directories := there.filter fun t => isShown t.2.2
    let write (names : List Octets) : Run Unit := do
      if g.has 'm' then (if names.isEmpty then return else sayLines [List.intercalate (text ", ") names])
      else sayLines names
    write (plain.map (·.1))
    let named := 1 < asked.length
    let mut isFirst := plain.isEmpty
    for (o, p, _) in directories do
      if named then say ((if isFirst then [] else ['\n']) ++ o ++ [':', '\n'])
      write (namesIn fs g p)
      isFirst := false
    return if found.any (·.isNone) then 2 else 0

/-! ### Making -/

/-- A directory made with those above it. -/
def makeAll (o : Octets) : Nat → Path → Path → Run Bool
  | 0, _, _ => return true
  | n + 1, made, rest => do
    match rest with
    | [] => return true
    | name :: rest =>
      let p := made ++ [name]
      match Files.entry? (← filesHere) p with
      | some .directory => makeAll o n p rest
      | some (.file _) =>
        remark "mkdir" (text "cannot create directory " ++ quoteMarks o ++ text ": File exists")
        return false
      | none =>
        changeFiles (·.put p .directory)
        makeAll o n p rest

def mkdir : Program where
  name := "mkdir"
  letters := "pvm:"
  names := [("parents", 'p'), ("mode", 'm'), ("verbose", 'v')]
  run g operands := do
    if operands.isEmpty then misuse "mkdir" [text "missing operand"] 1
    else
      let refuse_ (o : Octets) (reason : String) : Run Bool := do
        remark "mkdir" (text "cannot create directory " ++ quoteMarks o ++ text s!": {reason}")
        return false
      return anyFailed (← operands.mapM fun o => do
        if g.has 'p' then
          let fs ← filesHere
          let names := Files.names (Octets.toString o)
          let names := names.filter (· ≠ ".")
          let base := if o.head? = some '/' then [] else fs.here
          makeAll o (names.length + 1) base names
        else match ← existing? o with
          | .ok _ => refuse_ o "File exists"
          | .error .notADirectory => refuse_ o "Not a directory"
          | .error _ =>
            match ← newPath? o with
            | .error f => refuse_ o f.text
            | .ok p =>
              changeFiles (·.put p .directory)
              return true)

def touch : Program where
  name := "touch"
  letters := "acmd:r:t:"
  names := [("no-create", 'c')]
  run g operands := do
    if operands.isEmpty then misuse "touch" [text "missing file operand"] 1
    else
      return anyFailed (← operands.mapM fun o => do
        match ← existing? o with
        | .ok _ => return true
        | .error _ =>
          if g.has 'c' then return true
          else match ← openOutput o true false with
            | .ok _ => return true
            | .error f =>
              remark "touch" (text "cannot touch " ++ shellQuoted o ++ text s!": {f.text}")
              return false)

/-- A file or a whole directory put at another path. -/
def copyTree (fs : Files) (source target : Path) : Files → Files := fun to_ =>
  (fs.entries.filter fun e => source.isPrefixOf e.1).foldl
    (fun acc e => acc.put (target ++ e.1.drop source.length) e.2) to_

/-- Where a source goes: to the target, or into it if that is a directory. -/
def destination (name : String) (target source : Octets) : Run (Except Unit Path) := do
  match ← existing? target with
  | .ok (p, .directory) =>
    let own := (Files.names (Octets.toString source)).filter (· ≠ ".")
    return .ok (p ++ [own.getLastD ""])
  | .ok (p, _) => return .ok p
  | .error _ =>
    match ← newPath? target with
    | .ok p => return .ok p
    | .error f =>
      remark name (text (if name = "cp" then "cannot create regular file " else "cannot move ")
        ++ (if name = "cp" then shellQuoted target
          else shellQuoted source ++ text " to " ++ shellQuoted target) ++ text s!": {f.text}")
      return .error ()

/-- A program that puts files at another place, and takes them from the old one if it `moves` them. -/
def transfer (name : String) (moves : Bool) : Program where
  name := name
  letters := "afinprRTuv"
  names := [("force", 'f'), ("recursive", 'r'), ("archive", 'a')]
  run g operands := do
    match operands with
    | [] => misuse name [text "missing file operand"] 1
    | [o] => misuse name [text "missing destination file operand after " ++ shellQuoted o] 1
    | _ =>
      let target := operands.getLastD []
      let sources := operands.dropLast
      if 1 < sources.length && !(← isDirectory target) then
        remark name (text "target " ++ shellQuoted target ++ text ": No such file or directory")
        return 1
      return anyFailed (← sources.mapM fun o => do
        match ← existing? o with
        | .error f =>
          remark name (text "cannot stat " ++ shellQuoted o ++ text s!": {f.text}")
          return false
        | .ok (p, e) =>
          if e = .directory && !moves && !(g.has 'r' || g.has 'R' || g.has 'a') then
            remark name (text "-r not specified; omitting directory " ++ shellQuoted o)
            return false
          else match ← destination name target o with
            | .error () => return false
            | .ok to_ =>
              if to_ = p then
                remark name (shellQuoted o ++ text " and " ++ shellQuoted target
                  ++ text " are the same file")
                return false
              else
                let fs ← filesHere
                changeFiles fun w => copyTree fs p to_ w
                if moves then changeFiles (·.remove p)
                return true)
where
  /-- Whether a path leads to a directory. -/
  isDirectory (o : Octets) : Run Bool := do
    match ← existing? o with
    | .ok (_, .directory) => return true
    | _ => return false

def cp : Program := transfer "cp" false

def mv : Program := transfer "mv" true

/-! ### Removing -/

def rm : Program where
  name := "rm"
  letters := "fiIrRdv"
  names := [("force", 'f'), ("recursive", 'r'), ("dir", 'd')]
  run g operands := do
    if operands.isEmpty then
      if g.has 'f' then return 0 else misuse "rm" [text "missing operand"] 1
    else
      return anyFailed (← operands.mapM fun o => do
        let refuse_ (reason : String) : Run Bool := do
          remark "rm" (text "cannot remove " ++ shellQuoted o ++ text s!": {reason}")
          return false
        match ← existing? o with
        | .error f =>
          if g.has 'f' then return true else refuse_ f.text
        | .ok (p, e) =>
          if e = .directory && !(g.has 'r' || g.has 'R') then refuse_ "Is a directory"
          else
            changeFiles (·.remove p)
            return true)

def rmdir : Program where
  name := "rmdir"
  letters := "pv"
  run _ operands := do
    if operands.isEmpty then misuse "rmdir" [text "missing operand"] 1
    else
      return anyFailed (← operands.mapM fun o => do
        let refuse_ (reason : String) : Run Bool := do
          remark "rmdir" (text "failed to remove " ++ shellQuoted o ++ text s!": {reason}")
          return false
        match ← existing? o with
        | .error f => refuse_ f.text
        | .ok (_, .file _) => refuse_ "Not a directory"
        | .ok (p, .directory) =>
          if ((← filesHere).children p).isEmpty then
            changeFiles (·.remove p)
            return true
          else refuse_ "Directory not empty")

/-! ### Paths -/

/-- A path without slashes at its end, the root itself excepted. -/
def trimSlashes (o : Octets) : Octets :=
  let bare := (o.reverse.dropWhile (· = '/')).reverse
  if bare.isEmpty && !o.isEmpty then ['/'] else bare

def lastName (o : Octets) : Octets :=
  let bare := trimSlashes o
  if bare = ['/'] then bare else (bare.reverse.takeWhile (· ≠ '/')).reverse

/-- A path without its last name. -/
def parentOf (o : Octets) : Octets :=
  let bare := trimSlashes o
  if bare = ['/'] then bare
  else
    let front := (bare.reverse.dropWhile (· ≠ '/')).reverse
    if front.isEmpty then ['.'] else trimSlashes front

/-- A text without an end, unless that is all of it. -/
def withoutEnd (suffix o : Octets) : Octets :=
  if suffix.isSuffixOf o && suffix ≠ o then o.take (o.length - suffix.length) else o

def basename : Program where
  name := "basename"
  letters := "as:z"
  names := [("multiple", 'a'), ("suffix", 's')]
  mixes := false
  run g operands := do
    if operands.isEmpty then misuse "basename" [text "missing operand"] 1
    else if g.has 'a' || g.has 's' then
      sayLines (operands.map fun o => withoutEnd ((g.value? 's').getD []) (lastName o))
      return 0
    else match operands with
      | _ :: _ :: extra :: _ => misuse "basename" [text "extra operand " ++ quoteMarks extra] 1
      | _ =>
        sayLines [withoutEnd (operands.getD 1 []) (lastName (operands.headD []))]
        return 0

def dirname : Program where
  name := "dirname"
  letters := "z"
  run _ operands := do
    if operands.isEmpty then misuse "dirname" [text "missing operand"] 1
    else
      sayLines (operands.map parentOf)
      return 0

end SecretForge.Script.Place
