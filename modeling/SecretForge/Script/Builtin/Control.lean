import SecretForge.Script.Builtin.Directory
import SecretForge.Signal

/-!
# The command language: commands about control

These commands end loops, functions and the session, run other commands, and send and await signals.

* `runExit`, `runReturn` and `runBreak` take control away.
* `runEval`, `runSource`, `runExec` and `runWordsOf` run what their operands name.
* `runTrap`, `runKill` and `runWait` are about signals and background commands.
* `builtin?` is every command of the shell by name.
-/

namespace SecretForge.Script

open SecretForge.Text

/-- The number of the process that the shell is. -/
def processNumber : Nat := 12345

/-- A whole number among blanks. -/
def integer? (o : Octets) : Option Int := testNumber? o

/-! ### Leaving -/

def runExit (args : List Octets) : Run Nat := do
  match args with
  | [] => leave (← session).status
  | o :: rest =>
    match integer? o with
    | none =>
      let _ ← fault "exit" (o ++ text ": numeric argument required")
      leave 2
    | some i =>
      if rest.isEmpty then leave (i % 256).toNat else tooMany "exit"

def runReturn (args : List Octets) : Run Nat := do
  let s ← session
  if s.frames.isEmpty && s.sources = 0 then
    let _ ← fault "return" (text "can only \x60return' from a function or sourced script")
    return 2
  else
    match args with
    | [] => throw .returned
    | o :: rest =>
      match integer? o with
      | none =>
        let _ ← fault "return" (o ++ text ": numeric argument required")
        setStatus 2
        throw .returned
      | some i =>
        if rest.isEmpty then
          setStatus (i % 256).toNat
          throw .returned
        else tooMany "return"

def runBreak (name : String) (jump : Nat → Jump) (args : List Octets) : Run Nat := do
  let loops := (← session).loops
  if loops = 0 then
    let _ ← fault name (text "only meaningful in a \x60for', \x60while', or \x60until' loop")
    return 0
  else
    match args with
    | [] =>
      setStatus 0
      throw (jump 1)
    | _ :: _ :: _ => tooMany name
    | [o] =>
      match integer? o with
      | none =>
        let _ ← fault name (o ++ text ": numeric argument required")
        leave 128
      | some i =>
        if i ≤ 0 then
          let _ ← fault name (o ++ text ": loop count out of range")
          setStatus 1
          throw (.broken loops)
        else
          setStatus 0
          throw (jump (min i.toNat loops))

/-! ### Other names for commands -/

/-- The text of an alias, written so that it can be read back. -/
def aliasText (a : String × Octets) : Octets :=
  text s!"alias {a.1}=" ++ singleQuoted a.2 ++ ['\n']

def runAlias (args : List Octets) : Run Nat := do
  let args := args.filter fun o => o ≠ text "-p"
  if args.isEmpty then
    let known := (← session).aliases.mergeSort fun a b => !Octets.before b.1.toList a.1.toList
    known.forM fun a => say (aliasText a)
    return 0
  else
    return worst (← args.mapM fun o => do
      let name := Octets.toString (o.takeWhile (· ≠ '='))
      match o.dropWhile (· ≠ '=') with
      | _ :: value =>
        change fun s => { s with aliases := assign name value s.aliases }
        return 0
      | [] =>
        match (← session).aliases.lookup name with
        | some value =>
          say (aliasText (name, value))
          return 0
        | none => fault "alias" (o ++ text ": not found"))

def runUnalias (args : List Octets) : Run Nat := do
  if args.isEmpty then
    warn (text "unalias: usage: unalias [-a] name [name ...]")
    return 2
  else if args = [text "-a"] then
    change fun s => { s with aliases := [] }
    return 0
  else
    return worst (← args.mapM fun o => do
      let name := Octets.toString o
      if (← session).aliases.any (·.1 = name) then
        change fun s => { s with aliases := s.aliases.filter (·.1 ≠ name) }
        return 0
      else fault "unalias" (o ++ text ": not found"))

/-! ### Permissions -/

def runUmask (args : List Octets) : Run Nat := do
  let (os, operands) := takeOptions args
  match operands with
  | [] =>
    let mask := (← session).mask
    let digits := (Nat.toDigits 8 (mask + 512)).drop 1
    if os.any (·.1 = 'S') then
      let granted (k : Nat) : String :=
        let bits := 7 - mask / Nat.pow 8 k % 8
        (if bits / 4 % 2 = 1 then "r" else "") ++ (if bits / 2 % 2 = 1 then "w" else "")
          ++ (if bits % 2 = 1 then "x" else "")
      say (text s!"u={granted 2},g={granted 1},o={granted 0}\n")
    else say ((if os.any (·.1 = 'p') then text "umask " else []) ++ '0' :: digits ++ ['\n'])
    return 0
  | o :: _ =>
    let (v, k) := leadingValue 8 o.length o
    if k = o.length && v < 512 then
      change fun s => { s with mask := v }
      return 0
    else if o.all Char.isDigit then fault "umask" (o ++ text ": octal number out of range")
    else fault "umask" (ticked (o.take 1) ++ text ": invalid symbolic mode operator")

/-! ### Running commands -/

def keywords : List String :=
  ["if", "then", "else", "elif", "fi", "case", "esac", "for", "select", "while", "until", "do", "done",
    "in", "function", "time", "\x7b", "\x7d", "!", "[[", "]]", "coproc"]

def builtinNames : List String :=
  [":", ".", "[", "alias", "bg", "break", "builtin", "caller", "cd", "command", "continue", "declare",
    "dirs", "disown", "echo", "eval", "exec", "exit", "export", "false", "fc", "fg", "getopts", "hash",
    "history", "jobs", "kill", "let", "local", "logout", "mapfile", "popd", "printf", "pushd", "pwd",
    "read", "readarray", "readonly", "return", "set", "shift", "shopt", "source", "suspend", "test",
    "times", "trap", "true", "type", "typeset", "ulimit", "umask", "unalias", "unset", "wait"]

def programNames : List String :=
  ["base64", "basename", "bash", "cat", "cp", "cut", "date", "dirname", "env", "expr", "false", "grep",
    "head", "id", "ls", "md5sum", "mkdir", "mv", "od", "paste", "printenv", "rev", "rm", "rmdir", "sed",
    "seq", "sh", "sha1sum", "sha256sum", "sha512sum", "sleep", "sort", "tac", "tail", "tee", "touch", "tr",
    "true", "uname", "uniq", "wc", "which", "whoami", "xargs", "yes"]

/-- The names of the programs, those among them that the shell has commands for included. -/
def externalNames : List String := programNames ++ ["echo", "printf", "test", "[", "pwd", "kill"]

def programDirectories : List String := ["/bin", "/usr/bin", "/usr/local/bin", "/sbin", "/usr/sbin"]

inductive Search where
  /-- The program stands in a directory of the search path. -/
  | found (path : String)
  | notFound
  /-- There is no search path, and only the directory of the session is looked in. -/
  | notHere
  deriving DecidableEq, Repr

def search (name : String) : Run Search := do
  match ← value? "PATH" with
  | none | some [] => return .notHere
  | some path =>
    if externalNames.contains name then
      let places := (splitOnChar ':' path).map fun o => Octets.toString o
      let known := places.filter fun place => place = "/usr/bin" || place = "/bin"
      return match known.head? with
        | some place => .found s!"{place}/{name}"
        | none => .notFound
    else return .notFound

inductive CommandKind where
  | keyword
  | function
  | builtin
  | program (path : String)
  deriving DecidableEq, Repr

def commandKind? (o : Octets) : Run (Option CommandKind) := do
  let name := Octets.toString o
  if keywords.contains name then return some .keyword
  else if (← session).functions.any (·.1 = name) then return some .function
  else if builtinNames.contains name then return some .builtin
  else match ← search name with
    | .found path => return some (.program path)
    | _ => return none

def describeKind (o : Octets) : CommandKind → Octets
  | .keyword => o ++ text " is a shell keyword"
  | .function => o ++ text " is a function"
  | .builtin => o ++ text " is a shell builtin"
  | .program path => o ++ text s!" is {path}"

def runType (args : List Octets) : Run Nat := do
  let (os, operands) := takeOptions args
  return worst (← operands.mapM fun o => do
    match ← commandKind? o with
    | none =>
      if os.isEmpty then fault "type" (o ++ text ": not found") else return 1
    | some p =>
      if os.any (·.1 = 't') then
        say (text (match p with
          | .keyword => "keyword\n"
          | .function => "function\n"
          | .builtin => "builtin\n"
          | .program _ => "file\n"))
      else if os.any (·.1 = 'p') then
        match p with
        | .program path => say (text s!"{path}\n")
        | _ => pure ()
      else say (describeKind o p ++ ['\n'])
      return 0)

/-- The `command` command. -/
def runWordsOf (h : Hooks) (args : List Octets) : Run Nat := do
  let shows (describes : Bool) (operands : List Octets) : Run Nat := do
    return worst (← operands.mapM fun o => do
      match ← commandKind? o with
      | none =>
        if describes then fault "command" (o ++ text ": not found") else return 1
      | some (.program path) =>
        say ((if describes then describeKind o (.program path) else text path) ++ ['\n'])
        return 0
      | some p =>
        say ((if describes then describeKind o p else o) ++ ['\n'])
        return 0)
  match args with
  | [] => return 0
  | ['-', 'v'] :: operands => shows false operands
  | ['-', 'V'] :: operands => shows true operands
  | ['-', 'p'] :: words =>
    h.call words
    return (← session).status
  | ['-', '-'] :: words =>
    h.call words
    return (← session).status
  | words =>
    h.call words
    return (← session).status

def runBuiltin (h : Hooks) (args : List Octets) : Run Nat := do
  match args with
  | [] => return 0
  | o :: _ =>
    if builtinNames.contains (Octets.toString o) then
      h.call args
      return (← session).status
    else fault "builtin" (o ++ text ": not a shell builtin")

def runEval (h : Hooks) (args : List Octets) : Run Nat := do
  setStatus 0
  h.script "eval" (List.intercalate [' '] args)
  return (← session).status

def runSource (h : Hooks) (name : String) (args : List Octets) : Run Nat := do
  match args with
  | [] =>
    let _ ← fault name (text "filename argument required")
    warn (text s!"{name}: usage: {name} filename [arguments]")
    return 2
  | o :: operands =>
    let run (content : Octets) : Run Nat := do
      let kept := (← session).arguments
      if !operands.isEmpty then change fun s => { s with arguments := operands }
      change fun s => { s with sources := s.sources + 1, status := 0 }
      let leave : Run Unit := change fun s => { s with
        sources := s.sources - 1
        arguments := if operands.isEmpty then s.arguments else kept }
      tryCatch (h.script (Octets.toString o) content) fun
        | .returned => return
        | jump => do
          leave
          throw jump
      leave
      return (← session).status
    match descriptorPath? o with
    | some k => run ((← take k).getD [])
    | none =>
      if o = text "/dev/null" then run []
      else match ← fileAt o with
        | .error f =>
          complain (o ++ text s!": {f.text}")
          return 1
        | .ok (_, .directory) => fault name (o ++ text ": is a directory")
        | .ok (_, .file content) => run (Octets.ofBytes content)

/-- The `exec` command with operands. -/
def runExec (h : Hooks) (args : List Octets) : Run Nat := do
  match args with
  | [] => return 0
  | o :: _ =>
    let name := Octets.toString o
    if o.contains '/' || (← search name) matches .found _ then
      h.call args
      leave (← session).status
    else
      let _ ← fault "exec" (o ++ text ": not found")
      leave 127

/-- The value of an option of `getopts`, its variable and where the next option stands. -/
def runGetopts (args : List Octets) : Run Nat := do
  match args with
  | letters :: name :: rest => do
    let s ← session
    let words := if rest.isEmpty then s.arguments else rest
    let silent := letters.head? = some ':'
    let index := (((← value? "OPTIND").bind signed?).getD 1).toNat
    let within := (((← value? "OPTCOL").bind signed?).getD 1).toNat
    let set (n : String) (o : Octets) : Run Unit := do
      let _ ← store n o
    let finish : Run Nat := do
      set (String.ofList name) ['?']
      set "OPTIND" (decimalDigits index)
      return 1
    match words[index - 1]? with
    | some ('-' :: c :: cs) =>
      if c = '-' && cs.isEmpty then
        set (String.ofList name) ['?']
        set "OPTIND" (decimalDigits (index + 1))
        return 1
      else
        let word := c :: cs
        let letter := word.getD (within - 1) '?'
        let left := word.drop within
        let next (index within : Nat) : Run Unit := do
          set "OPTIND" (decimalDigits index)
          set "OPTCOL" (decimalDigits within)
        match (letters.dropWhile (· ≠ letter)) with
        | _ :: ':' :: _ =>
          if letter = ':' then finish
          else if !left.isEmpty then
            set (String.ofList name) [letter]
            set "OPTARG" left
            next (index + 1) 1
            return 0
          else match words[index]? with
            | some value =>
              set (String.ofList name) [letter]
              set "OPTARG" value
              next (index + 2) 1
              return 0
            | none =>
              next (index + 1) 1
              if silent then
                set (String.ofList name) [':']
                set "OPTARG" [letter]
              else
                set (String.ofList name) ['?']
                warn ((← session).name ++ text ": option requires an argument -- " ++ [letter])
              return 0
        | _ :: _ =>
          set (String.ofList name) [letter]
          if left.isEmpty then next (index + 1) 1 else next index (within + 1)
          return 0
        | [] =>
          set (String.ofList name) ['?']
          if left.isEmpty then next (index + 1) 1 else next index (within + 1)
          if silent then set "OPTARG" [letter]
          else warn ((← session).name ++ text ": illegal option -- " ++ [letter])
          return 0
    | _ => finish
  | _ =>
    warn (text "getopts: usage: getopts optstring name [arg ...]")
    return 2

/-! ### Signals -/

/-- The name of a signal in the list of traps, from its number or name. -/
def signalName? (o : Octets) : Option String :=
  let s := (Octets.toString o).toUpper
  let bare := if s.startsWith "SIG" then String.ofList (s.toList.drop 3) else s
  if bare = "EXIT" || bare = "0" then some "EXIT"
  else if ["ERR", "DEBUG", "RETURN"].contains bare then some bare
  else match signed? o with
    | some i => (Signal.name? i.toNat).map fun n => n
    | none => (Signal.number? bare).map fun _ => bare

/-- A trap, written so that it can be read back. -/
def trapText (name : String) (action : Octets) : Octets :=
  let full := if ["EXIT", "ERR", "DEBUG", "RETURN"].contains name then name else s!"SIG{name}"
  text "trap -- " ++ singleQuoted action ++ text s!" {full}\n"

def runTrap (args : List Octets) : Run Nat := do
  let args := match args with
    | ['-', '-'] :: rest => rest
    | _ => args
  let setAll (action : Option Octets) (names : List Octets) : Run Nat := do
    return worst (← names.mapM fun o => do
      match signalName? o with
      | none => fault "trap" (o ++ text ": invalid signal specification")
      | some name =>
        change fun s => { s with
          traps := match action with
            | some a => assign name a s.traps
            | none => s.traps.filter (·.1 ≠ name) }
        return 0)
  let order (name : String) : Nat := (Signal.number? name).getD 0
  let show_ (keep : String → Bool) : Run Nat := do
    let traps := ((← session).traps.filter fun t => keep t.1).mergeSort fun a b => order a.1 ≤ order b.1
    traps.forM fun (n, a) => say (trapText n a)
    return 0
  match args with
  | [] => show_ fun _ => true
  | ['-', 'p'] :: names =>
    let wanted := names.filterMap signalName?
    show_ fun n => names.isEmpty || wanted.contains n
  | ['-'] :: names => setAll none names
  | [o] =>
    match signalName? o with
    | some _ => setAll none [o]
    | none =>
      warn (text "trap: usage: trap [-lp] [[arg] signal_spec ...]")
      return 2
  | action :: names => if (signed? action).isSome then setAll none args else setAll (some action) names

/-- The signals that do nothing if nothing was said about them. -/
def harmless : List Nat := [3, 17, 18, 19, 20, 21, 22, 23, 28]

/-- A signal arrives at the shell. -/
def receive (h : Hooks) (signal : Nat) : Run Unit := do
  if signal = 0 then return
  else
    let name := (Signal.name? signal).getD ""
    match (← session).traps.lookup name with
    | some [] => if signal = 9 then throw (.killed signal)
    | some action =>
      if signal = 9 then throw (.killed signal)
      else
        let status := (← session).status
        h.script "trap" action
        setStatus status
    | none => if !harmless.contains signal then throw (.killed signal)

/-- The names of the signals in rows, as `kill` lists them. -/
def signalRows : Octets :=
  let realTime (n : Nat) : String :=
    if n = 34 then "RTMIN"
    else if n ≤ 49 then s!"RTMIN+{n - 34}"
    else if n < 64 then s!"RTMAX-{64 - n}"
    else "RTMAX"
  let numbers := (List.range 65).filter fun n => n ≠ 0 && n ≠ 32 && n ≠ 33
  let cell (n : Nat) : Octets :=
    List.replicate (2 - (decimalDigits n).length) ' ' ++ decimalDigits n ++ text ") SIG"
      ++ text (if n < 34 then (Signal.name? n).getD "" else realTime n)
  rows 0 (numbers.map cell)
where
  /-- Cells five to a row. -/
  rows : Nat → List Octets → Octets
    | _, [] => ['\n']
    | k, c :: cs =>
      c ++ (if k = 4 then '\n' :: (if cs.isEmpty then [] else rows 0 cs) else '\t' :: rows (k + 1) cs)

def runKill (h : Hooks) (args : List Octets) : Run Nat := do
  let usage : Run Nat := do
    warn (text ("kill: usage: kill [-s sigspec | -n signum | -sigspec] pid | jobspec ... "
      ++ "or kill -l [sigspec]"))
    return 2
  let number? (o : Octets) : Option Nat :=
    match signed? o with
    | some i => if 0 ≤ i && i ≤ 64 then some i.toNat else none
    | none => (signalName? o).bind fun n => if n = "EXIT" then some 0 else Signal.number? n
  let send (spec : Octets) (targets : List Octets) : Run Nat := do
    match number? spec with
    | none => fault "kill" (spec ++ text ": invalid signal specification")
    | some signal =>
      if targets.isEmpty then usage
      else
        return worst (← targets.mapM fun o => do
          match signed? o with
          | none => fault "kill" (o ++ text ": arguments must be process or job IDs")
          | some pid =>
            if pid = processNumber || pid = 0 then
              receive h signal
              return 0
            else fault "kill" (text s!"({pid}) - No such process"))
  match args with
  | [] => usage
  | ['-', 'l'] :: [] | ['-', 'L'] :: [] =>
    say signalRows
    return 0
  | ['-', 'l'] :: specs =>
    return worst (← specs.mapM fun o => do
      let o := match signed? o with
        | some i => if 128 < i then decimal (i - 128) else o
        | none => o
      match signed? o, signalName? o with
      | some _, some name =>
        say (text s!"{name}\n")
        return 0
      | none, some name =>
        say (decimalDigits ((Signal.number? name).getD 0) ++ ['\n'])
        return 0
      | _, none => fault "kill" (o ++ text ": invalid signal specification"))
  | ['-', 's'] :: spec :: targets => send spec targets
  | ['-', 'n'] :: spec :: targets => send spec targets
  | ['-', '-'] :: targets => send (text "TERM") targets
  | ('-' :: c :: cs) :: targets => send (c :: cs) targets
  | targets => send (text "TERM") targets

def runWait (args : List Octets) : Run Nat := do
  let operands := (takeOptions args).2
  let codes ← operands.mapM fun o => do
    match (← session).jobs.lookup ((signed? o).getD 0).toNat with
    | some status => return status
    | none =>
      if (signed? o).isSome then
        let _ ← fault "wait" (text "pid " ++ o ++ text " is not a child of this shell")
        return 127
      else
        let _ ← fault "wait" (ticked o ++ text ": not a pid or valid job spec")
        return 1
  return (codes.getLast?).getD 0

/-! ### Commands by name -/

def builtin? (h : Hooks) : String → Option (List Octets → Run Nat)
  | ":" | "true" => some fun _ => return 0
  | "false" => some fun _ => return 1
  | "echo" => some runEcho
  | "printf" => some runPrintf
  | "read" => some runRead
  | "mapfile" | "readarray" => some runMapfile
  | "test" => some (runTest "test")
  | "[" => some fun args => do
    match args.reverse with
    | [']'] :: rest => runTest "[" rest.reverse
    | _ =>
      let _ ← fault "[" (text "missing \x60]'")
      return 2
  | "declare" => some (runDeclare "declare")
  | "typeset" => some (runDeclare "typeset")
  | "local" => some runLocal
  | "export" => some runExport
  | "readonly" => some runReadonly
  | "unset" => some runUnset
  | "set" => some fun args => runSet (args.length + 1) args
  | "shift" => some runShift
  | "shopt" => some runShopt
  | "let" => some runLet
  | "exit" => some runExit
  | "return" => some runReturn
  | "break" => some (runBreak "break" .broken)
  | "continue" => some (runBreak "continue" .continued)
  | "cd" => some runCd
  | "pwd" => some runPwd
  | "type" => some runType
  | "command" => some (runWordsOf h)
  | "builtin" => some (runBuiltin h)
  | "eval" => some (runEval h)
  | "." => some (runSource h ".")
  | "source" => some (runSource h "source")
  | "exec" => some (runExec h)
  | "getopts" => some runGetopts
  | "trap" => some runTrap
  | "kill" => some (runKill h)
  | "wait" => some runWait
  | "umask" => some runUmask
  | "ulimit" => some fun _ => do
    say (text "unlimited\n")
    return 0
  | "hash" => some fun _ => do
    say (text "hash: hash table empty\n")
    return 0
  | "times" => some fun _ => do
    say (text "0m0.000s 0m0.000s\n0m0.000s 0m0.000s\n")
    return 0
  | "jobs" => some fun _ => return 0
  | "alias" => some runAlias
  | "unalias" => some runUnalias
  | "dirs" => some runDirs
  | "pushd" => some runPushd
  | "popd" => some fun _ => runPopd
  | "bg" => some fun _ => fault "bg" (text "no job control")
  | "fg" => some fun _ => fault "fg" (text "no job control")
  | "disown" => some fun _ => fault "disown" (text "current: no such job")
  | "suspend" => some fun _ => fault "suspend" (text "cannot suspend: no job control")
  | "logout" => some fun _ => fault "logout" (text "not login shell: use \x60exit'")
  | "history" | "fc" => some fun _ => return 0
  | "caller" => some fun _ => return 1
  | _ => none

end SecretForge.Script
