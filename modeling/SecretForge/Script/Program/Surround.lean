import SecretForge.Script.Program.Excerpt
import SecretForge.Script.Builtin.Control

/-!
# The command language: programs about the surroundings

These programs show or change what a command finds around it, its variables, its user, its time, and
run other commands.

* `env` and `printenv` are about variables, `xargs` makes operands of its input.
* `runShellProgram` is the shell as a program of its own.
-/

namespace SecretForge.Script.Surround

open SecretForge.Text

def exported : Run (List (Octets × Octets)) := do
  return (← session).vars.filterMap fun (n, v) =>
    if v.isExported then v.value?.map fun o => (n.toList, o) else none

/-- The variables that a program of a name sees; the shell tells it its path, and nothing else does. -/
def seenBy (name : String) : Run (List (Octets × Octets)) := do
  let all ← exported
  return if (← variableOf? "_").isSome then all else all ++ [(['_'], programPath name)]
where
  /-- A name that a program is known by, as a path to it. -/
  programPath (name : String) : Octets := text s!"/usr/bin/{name}"

def assignmentText (v : Octets × Octets) : Octets := v.1 ++ '=' :: v.2

/-- A command run as a program would run it; a status if there is none of its name. -/
def callExternal (h : Hooks) (words : List Octets) : Run (Option Nat) := do
  match words with
  | [] => return some 0
  | o :: _ =>
    if o.contains '/' || (← search (Octets.toString o)) matches .found _ then
      h.call words
      return some (← session).status
    else return none

def env (h : Hooks) : Program where
  name := "env"
  letters := "iu:0"
  names := [("ignore-environment", 'i'), ("unset", 'u'), ("null", '0')]
  mixes := false
  wrong := 125
  run g operands := do
    let isAssignment (o : Octets) : Bool := o.contains '=' && o.head? ≠ some '='
    let clears := g.has 'i' || operands.head? = some ['-']
    let operands := if operands.head? = some ['-'] then operands.drop 1 else operands
    let given := (operands.takeWhile isAssignment).map fun o =>
      let name := o.takeWhile (· ≠ '=')
      (name, o.drop (name.length + 1))
    let words := operands.dropWhile isAssignment
    let gone := (g.filter (·.1 = 'u')).map (·.2)
    let kept := (← session).vars.filter fun v =>
      !(v.2.isExported && (clears || gone.contains v.1.toList))
    restoring (·.vars) (fun vs s => { s with vars := vs }) do
      change fun s => { s with vars := kept }
      if clears then setVariable "_" {}
      if (← variableOf? "PATH").isNone then setVariable "PATH" { contents := .scalar (text "/bin:/usr/bin") }
      given.forM fun (n, o) =>
        setVariable (String.ofList n) { contents := .scalar o, isExported := true }
      match words with
      | [] =>
        sayLines ((← seenBy "env").map assignmentText)
        return 0
      | o :: _ =>
        match ← callExternal h words with
        | some status => return status
        | none =>
          remark "env" (quoteMarks o ++ text ": No such file or directory")
          return 127

def printenv : Program where
  name := "printenv"
  letters := "0"
  wrong := 2
  run _ operands := do
    let all ← seenBy "printenv"
    if operands.isEmpty then
      sayLines (all.map assignmentText)
      return 0
    else
      let found := operands.map fun o => all.lookup o
      sayLines (found.filterMap id)
      return if found.all Option.isSome then 0 else 1

/-- Whether a text is a span of time. -/
def isSpan (o : Octets) : Bool :=
  let o := if (o.getLast?).any fun c => c = 's' || c = 'm' || c = 'h' || c = 'd' then o.dropLast else o
  let whole := o.takeWhile Char.isDigit
  match o.drop whole.length with
  | [] => !whole.isEmpty
  | '.' :: places => places.all Char.isDigit && !(whole.isEmpty && places.isEmpty)
  | _ => o = text "infinity"

def sleep : Program where
  name := "sleep"
  run _ operands := do
    if operands.isEmpty then misuse "sleep" [text "missing operand"] 1
    else
      let bad := operands.filter fun o => !isSpan o
      if bad.isEmpty then return 0
      else misuse "sleep" (bad.map fun o => text "invalid time interval " ++ quoteMarks o) 1

/-- The program `yes`, which is ended by the reader of its output. -/
def yes : Program where
  name := "yes"
  mixes := false
  run _ operands := do
    let line := (if operands.isEmpty then ['y'] else List.intercalate [' '] operands) ++ ['\n']
    say (List.replicate (endlessSize / line.length) line).flatten
    return 141

def id_ : Program where
  name := "id"
  letters := "ugGnr"
  run g _ := do
    let one := g.has 'u' || g.has 'g' || g.has 'G'
    sayLines [text (if one then (if g.has 'n' then "root" else "0")
      else "uid=0(root) gid=0(root) groups=0(root)")]
    return 0

def uname : Program where
  name := "uname"
  letters := "smo"
  run g _ := do
    let parts := (if g.has 's' || g.isEmpty then ["Linux"] else [])
      ++ (if g.has 'm' then ["x86_64"] else []) ++ (if g.has 'o' then ["GNU/Linux"] else [])
    sayLines [text (String.intercalate " " parts)]
    return 0

def which : Program where
  name := "which"
  letters := "as"
  run _ operands := do
    let found ← operands.mapM fun o => do
      match ← search (Octets.toString o) with
      | .found path => return some (text path)
      | _ => return none
    sayLines (found.filterMap id)
    return if found.all Option.isSome then 0 else 1

/-! ### Operands from the input -/

/-- The words of a text as `xargs` reads them: blanks part words, quotes and backslashes keep what
they enclose.  No value if a quote is left open. -/
def inputWords : Nat → Option Octets → Octets → Except Char (List Octets)
  | 0, _, _ => .ok []
  | _, current, [] => .ok (current.toList)
  | n + 1, current, c :: cs =>
    let word := current.getD []
    if c = '\'' || c = '"' then
      let inner := cs.takeWhile fun d => d ≠ c && d ≠ '\n'
      match cs.drop inner.length with
      | d :: rest => if d = c then inputWords n (some (word ++ inner)) rest else .error c
      | [] => .error c
    else if c = '\\' then
      match cs with
      | d :: rest => inputWords n (some (word ++ [d])) rest
      | [] => .ok (current.toList)
    else if isSpace c then (inputWords n none cs).map (current.toList ++ ·)
    else inputWords n (some (word ++ [c])) cs

/-- Words in parts of a size. -/
def wordParts (size : Nat) : Nat → List Octets → List (List Octets)
  | 0, _ => []
  | _, [] => []
  | n + 1, ws => ws.take (max 1 size) :: wordParts size n (ws.drop (max 1 size))

def xargsCommands (g : Given) (command : List Octets) (o : Octets) : Except Octets (List (List Octets)) :=
  let split (mark : Char) : List Octets :=
    let parts := splitOnChar mark o
    if parts.getLast? = some [] then parts.dropLast else parts
  let words : Except Octets (List Octets) :=
    if g.has '0' then .ok (split (Char.ofNat 0))
    else match g.value? 'd' with
      | some d => .ok (split ((escaped (d.length + 1) d).headD (Char.ofNat 0)))
      | none =>
        (inputWords (o.length + 1) none o).mapError fun mark =>
          text ("unmatched " ++ (if mark = '"' then "double" else "single")
            ++ " quote; by default quotes are special to xargs unless you use the -0 option")
  match g.value? 'I' with
  | some mark =>
    let ls := ((Octets.lines o).1.map fun l => l.dropWhile fun c => c = ' ' || c = '\t').filter (!·.isEmpty)
    .ok (ls.map fun l => command.map fun w => replaceAll mark l w)
  | none =>
    words.map fun ws =>
      if ws.isEmpty then (if g.has 'r' then [] else [command])
      else
        let size := ((g.value? 'n').bind naturalOf?).getD ws.length
        (wordParts size (ws.length + 1) ws).map (command ++ ·)

/-- Commands run one after the other, with the status that `xargs` ends with. -/
def runEach (h : Hooks) : Nat → List (List Octets) → Run Nat
  | status, [] => return status
  | status, words :: rest => do
    match ← callExternal h words with
    | none =>
      remark "xargs" (words.headD [] ++ text ": No such file or directory")
      return 127
    | some 0 => runEach h status rest
    | some 255 =>
      remark "xargs" (words.headD [] ++ text ": exited with status 255; aborting")
      return 124
    | some _ => runEach h 123 rest

def xargs (h : Hooks) : Program where
  name := "xargs"
  letters := "0rtn:I:d:P:L:"
  names := [("null", '0'), ("no-run-if-empty", 'r'), ("max-args", 'n'), ("delimiter", 'd')]
  mixes := false
  run g operands := do
    let command := if operands.isEmpty then [text "echo"] else operands
    let content := (← take 0).getD []
    match xargsCommands g command content with
    | .error message =>
      remark "xargs" message
      return 1
    | .ok commands =>
      restoring (·.descriptors) (fun ds s => { s with descriptors := ds }) do
        bindDescriptor 0 (← openStream { target := .null })
        runEach h 0 commands

/-! ### The shell -/

structure ShellCall where
  flags : List Char := []
  options : List String := []
  /-- Whether the first operand is the script itself. -/
  isText : Bool := false
  /-- Whether it is called as the plain shell. -/
  isTerse : Bool := false
  operands : List Octets := []

def shellCall : Nat → ShellCall → List Octets → ShellCall
  | 0, c, _ => c
  | _, c, [] => c
  | n + 1, c, o :: rest =>
    match o with
    | ['-', '-'] => { c with operands := rest }
    | '-' :: '-' :: _ => shellCall n c rest
    | '-' :: letter :: letters =>
      let letters := letter :: letters
      let own := letters.filter fun l => ['e', 'u', 'x', 'n', 'f', 'v', 'a', 'C'].contains l
      let c := { c with flags := c.flags ++ own, isText := c.isText || letters.contains 'c' }
      if letters.contains 'o' then
        match rest with
        | name :: rest =>
          let name := Octets.toString name
          match flagNames.lookup name with
          | some flag => shellCall n { c with flags := c.flags ++ [flag] } rest
          | none => shellCall n { c with options := c.options ++ [name] } rest
        | [] => c
      else shellCall n c rest
    | o => { c with operands := o :: rest }

/-- A script run by a shell of its own, which has only the variables that programs see. -/
def runApart (h : Hooks) (call : ShellCall) (name source : Octets) (arguments : List Octets)
    (title : String) : Run Nat := do
  let kept ← session
  let vars := initialVariables (kept.vars.filter fun v => v.2.isExported)
  let apart : Run Nat := subshell do
    change fun s => { s with
      isTerse := s.isTerse || call.isTerse
      vars, name, arguments, flags := call.flags, options := call.options, functions := []
      scopes := [], status := 0, isSubshell := false, isTest := false, sources := 0, jobs := [], line := 1 }
    tryCatch (h.script title source) fun
      | .killed signal => throw (.killed signal)
      | .exhausted => throw .exhausted
      | _ => return
    match (← session).traps.lookup "EXIT" with
    | none => return
    | some action =>
      let status := (← session).status
      change fun s => { s with traps := s.traps.filter (·.1 ≠ "EXIT") }
      h.script "exit trap" action
      setStatus status
  tryCatch apart fun
    | .killed signal => do
      set { (← get) with session := kept }
      return 128 + signal
    | jump => throw jump

def runShellProgram (h : Hooks) (name : String) (args : List Octets) : Run Nat := do
  let call := shellCall (args.length + 1) { isTerse := name = "sh" } args
  let bare := text name
  if call.isText then
    match call.operands with
    | [] =>
      remark name (text "-c: option requires an argument")
      return 2
    | source :: [] => runApart h call bare source [] "-c"
    | source :: own :: arguments => runApart h call own source arguments "-c"
  else match call.operands with
    | [] => runApart h call bare ((← take 0).getD []) [] ""
    | file :: arguments =>
      if args.any (· = text "-s") then runApart h call bare ((← take 0).getD []) call.operands ""
      else match ← contentAt file with
        | .ok source => runApart h call file source arguments ""
        | .error f =>
          remark name (file ++ text s!": {f.text}")
          return if f = .isADirectory then 126 else 127

end SecretForge.Script.Surround
