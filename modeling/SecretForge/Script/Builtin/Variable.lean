import SecretForge.Script.Redirect
import SecretForge.Script.Simple

/-!
# The command language: commands about variables

`declare` and its relatives set variables and what holds for them; `set` and `shopt` set what holds for
the session.  A name that is none is reported and the next operand is taken.

* `runDeclare`, `runExport`, `runReadonly`, `runLocal` and `runUnset` are about variables.
* `runSet`, `runShift` and `runShopt` are about the session; `runLet` evaluates expressions.
-/

namespace SecretForge.Script

open SecretForge.Text

/-- A report of a command of the shell. -/
def fault (name : String) (message : Octets) : Run Nat := do
  complain (text s!"{name}: " ++ message)
  return 1

/-- A command is given too many arguments: the session ends. -/
def tooMany (name : String) : Run Nat := do
  let _ ← fault name (text "too many arguments")
  leave 1

/-- An option that a command does not have: a report and how the command is used. -/
def badOption (name : String) (option : Octets) (usage : String) : Run Nat := do
  complain (text s!"{name}: " ++ option ++ text ": invalid option")
  warn (text s!"{name}: usage: {usage}")
  return 2

/-- The texts of statuses, the last that is not zero standing for all. -/
def worst (codes : List Nat) : Nat := codes.foldl (fun acc n => if n = 0 then acc else n) 0

/-- The letters of the options in front of the operands, with whether they are set or taken back, and
the operands. -/
def takeOptions : List Octets → List (Char × Bool) × List Octets
  | [] => ([], [])
  | ['-', '-'] :: rest => ([], rest)
  | ('-' :: c :: cs) :: rest =>
    let (os, operands) := takeOptions rest
    ((c :: cs).map (·, true) ++ os, operands)
  | ('+' :: c :: cs) :: rest =>
    let (os, operands) := takeOptions rest
    ((c :: cs).map (·, false) ++ os, operands)
  | operands => ([], operands)

/-- A value as it can be read back, in double quotes if it can be printed. -/
def declaredValue (o : Octets) : Octets :=
  if hasUnprintable o then escapeQuoted o
  else '"' :: (o.flatMap fun c =>
    if c = '"' || c = '\\' || c = '$' || c = '\x60' then ['\\', c] else [c]) ++ ['"']

def attributes (v : Variable) : Octets :=
  let letters : Octets := (match v.contents with
      | .list _ => ['a']
      | _ => [])
    ++ (if v.isInteger then ['i'] else []) ++ (if v.isFixed then ['r'] else [])
    ++ (if v.isExported then ['x'] else [])
    ++ (match v.recase with
      | some .lower => ['l']
      | some .upper => ['u']
      | _ => [])
  if letters.isEmpty then ['-'] else letters

/-- A declaration that makes a variable what it is. -/
def declaration (name : String) (v : Variable) : Octets :=
  let value : Octets := match v.contents with
    | .nothing => []
    | .scalar o => '=' :: declaredValue o
    | .list es =>
      text "=(" ++ List.intercalate [' '] (es.map fun (i, o) =>
        '[' :: decimalDigits i ++ text "]=" ++ declaredValue o) ++ [')']
  text "declare -" ++ attributes v ++ ' ' :: name.toList ++ value

def sortedVariables : Run (List (String × Variable)) := do
  return (← session).vars.mergeSort fun a b => !Octets.before b.1.toList a.1.toList

/-- What an operand declares: a name, and a value that may be appended. -/
def declared? (o : Octets) : Option (String × Option (Bool × Octets)) :=
  match binding? o with
  | some (name, none, append, length) => some (name, some (append, o.drop length))
  | some _ => none
  | none => if isName o then some (String.ofList o, none) else none

def setDeclared (name : String) : Option (Bool × Octets) → Run Bool
  | none => return true
  | some (append, o) => do
    if append then
      let old := (← value? name).getD []
      match ← variableOf? name with
      | some { isInteger := true, .. } => store name (old ++ '+' :: o)
      | _ => store name (old ++ o)
    else store name o

/-- A name that is none. -/
def badName (command : String) (o : Octets) : Run Nat :=
  fault command (ticked o ++ text ": not a valid identifier")

def declareWith (command : String) (change : Variable → Variable) (o : Octets) : Run Nat := do
  match declared? o with
  | none => badName command o
  | some (name, value) =>
    let v := (← variableOf? name).getD {}
    if v.isFixed && value.isSome then
      let _ ← refuse name
      return 1
    else
      setVariable name { change v with isFixed := v.isFixed }
      let done ← setDeclared name value
      setVariable name (change ((← variableOf? name).getD {}))
      return if done then 0 else 1

/-- A variable hidden until the function being run ends. -/
def hide (name : String) : Run Unit := do
  let s ← session
  match s.scopes with
  | [] => return
  | scope :: scopes =>
    if scope.any (·.1 == name) then return
    else
      let old := s.vars.lookup name
      let kept : Variable := match old with
        | some v => { isExported := v.isExported }
        | none => {}
      change fun s => { s with
        scopes := ((name, old) :: scope) :: scopes
        vars := assign name kept s.vars }

/-- What the letters of options make of a variable. -/
def withAttributes (os : List (Char × Bool)) (v : Variable) : Variable :=
  os.foldl (fun v (c, on) =>
    match c with
    | 'i' => { v with isInteger := on }
    | 'r' => { v with isFixed := v.isFixed || on }
    | 'x' => { v with isExported := on }
    | 'u' => { v with recase := if on then some .upper else none }
    | 'l' => { v with recase := if on then some .lower else none }
    | 'a' =>
      match v.contents with
      | .list _ => v
      | .nothing => { v with contents := .list [] }
      | .scalar o => { v with contents := .list [(0, o)] }
    | _ => v) v

def showDeclared (command : String) (o : Octets) : Run Nat := do
  match ← variableOf? (String.ofList o) with
  | some v =>
    say (declaration (String.ofList o) v ++ ['\n'])
    return 0
  | none => fault command (o ++ text ": not found")

def runDeclare (command : String) (args : List Octets) : Run Nat := do
  let (os, operands) := takeOptions args
  let known : List Char := "aAfFgiIlnrtuxp".toList
  match os.find? fun o => !known.contains o.1 with
  | some (c, _) =>
    badOption command ['-', c]
      s!"{command} [-aAfFgiIlnrtux] [name[=value] ...] or {command} -p [-aAfFilnrtux] [name ...]"
  | none =>
    let has (c : Char) := os.any (·.1 = c)
    if has 'f' || has 'F' then
      let codes ← operands.mapM fun o => do
        let isKnown := (← session).functions.any (·.1.toList == o)
        if isKnown && has 'F' then say (o ++ ['\n'])
        return truthOf isKnown
      return worst codes
    else if has 'p' && !operands.isEmpty then return worst (← operands.mapM (showDeclared command))
    else if operands.isEmpty then
      (← sortedVariables).forM fun (name, v) => say (declaration name v ++ ['\n'])
      return 0
    else
      let isLocal := !(← session).scopes.isEmpty && !has 'g'
      return worst (← operands.mapM fun o => do
        if isLocal then
          match declared? o with
          | some (name, _) => hide name
          | none => pure ()
        declareWith command (withAttributes os) o)
where
  /-- The status of a truth value. -/
  truthOf (b : Bool) : Nat := if b then 0 else 1

def runLocal (args : List Octets) : Run Nat := do
  if (← session).frames.isEmpty then fault "local" (text "can only be used in a function")
  else
    let (os, operands) := takeOptions args
    return worst (← operands.mapM fun o => do
      match declared? o with
      | some (name, _) =>
        hide name
        declareWith "local" (withAttributes os) o
      | none => badName "local" o)

def runExport (args : List Octets) : Run Nat := do
  let (os, operands) := takeOptions args
  match os.find? fun o => !(o.1 = 'f' || o.1 = 'n' || o.1 = 'p') with
  | some (c, _) =>
    badOption "export" ['-', c] "export [-fn] [name[=value] ...] or export -p"
  | none =>
    if operands.isEmpty then
      (← sortedVariables).forM fun (name, v) => do
        if v.isExported then say (declaration name v ++ ['\n'])
      return 0
    else
      let on := !os.any (·.1 = 'n')
      return worst (← operands.mapM (declareWith "export" fun v => { v with isExported := on }))

def runReadonly (args : List Octets) : Run Nat := do
  let (os, operands) := takeOptions args
  if operands.isEmpty then
    (← sortedVariables).forM fun (name, v) => do
      if v.isFixed then say (declaration name v ++ ['\n'])
    return 0
  else
    return worst (← operands.mapM (declareWith "readonly" fun v => withAttributes (os ++ [('r', true)]) v))

def runUnset (args : List Octets) : Run Nat := do
  let (os, operands) := takeOptions args
  match os.find? fun o => !(o.1 = 'f' || o.1 = 'v' || o.1 = 'n') with
  | some (c, _) => badOption "unset" ['-', c] "unset [-f] [-v] [-n] [name ...]"
  | none =>
    return worst (← operands.mapM fun o => do
      let name := String.ofList o
      if os.any (·.1 = 'f') then forget name
      else match namedSubject? o with
        | some (.element base [.quoted i]) =>
          let k ← calculate i
          let es := ((← variableOf? base).getD {}).elements
          setVariable base { ((← variableOf? base).getD {}) with
            contents := .list (es.filter fun e => (e.1 : Int) ≠ k) }
          return 0
        | _ =>
          match ← variableOf? name with
          | some v =>
            if v.isFixed then fault "unset" (o ++ text ": cannot unset: readonly variable")
            else
              change fun s => { s with vars := s.vars.filter (·.1 ≠ name) }
              return 0
          | none => if os.isEmpty then forget name else return 0)
where
  /-- A function that is no longer known. -/
  forget (name : String) : Run Nat := do
    change fun s => { s with functions := s.functions.filter (·.1 ≠ name) }
    return 0

/-! ### The session -/

def namedOptions : List String :=
  ["emacs", "errtrace", "functrace", "histexpand", "history", "ignoreeof", "interactive-comments",
    "keyword", "monitor", "nolog", "notify", "onecmd", "physical", "pipefail", "posix", "privileged", "vi"]

def flagLetters : List Char := "abefhkmnptuvxBCEHPT".toList

/-- A flag set or taken back. -/
def setFlag (c : Char) (on : Bool) : Run Unit :=
  change fun s => { s with flags := (if on then [c] else []) ++ s.flags.filter (· ≠ c) }

def setOption (name : String) (on : Bool) : Run Unit :=
  change fun s => { s with
    options := (if on then [name] else []) ++ s.options.filter (· ≠ name) }

/-- Every option of `set` with whether it is set, in order. -/
def listOptions : Run (List (String × Bool)) := do
  let s ← session
  let all := (flagNames.map (·.1) ++ namedOptions).mergeSort fun a b => !Octets.before b.toList a.toList
  let always := ["braceexpand", "hashall", "interactive-comments"]
  return all.map fun name =>
    (name, always.contains name || (match flagNames.lookup name with
      | some c => s.flags.contains c
      | none => s.options.contains name))

/-- A named option of `set` set or taken back; false if there is none of the name. -/
def setNamed (name : String) (on : Bool) : Run Bool := do
  match flagNames.lookup name with
  | some c =>
    setFlag c on
    return true
  | none =>
    if namedOptions.contains name then
      setOption name on
      return true
    else return false

/-- The letters of an operand of `set`, set or taken back.  The answer is what is left of the operands,
or a status if something is wrong. -/
def setLetters (on : Bool) : List Char → List Octets → Run (Except Nat (List Octets))
  | [], rest => return .ok rest
  | 'o' :: cs, rest => do
    match rest with
    | [] =>
      (← listOptions).forM fun (name, isOn) =>
        if on then
          say (name.toList ++ List.replicate (15 - name.length) ' ' ++ text (if isOn then "\ton\n" else "\toff\n"))
        else say (text (if isOn then "set -o " else "set +o ") ++ name.toList ++ ['\n'])
      setLetters on cs []
    | name :: rest =>
      if ← setNamed (Octets.toString name) on then setLetters on cs rest
      else
        complain (text "set: " ++ name ++ text ": invalid option name")
        return .error 2
  | c :: cs, rest => do
    if flagLetters.contains c then
      setFlag c on
      setLetters on cs rest
    else
      return .error (← badOption "set" [if on then '-' else '+', c]
        "set [-abefhkmnptuvxBCEHPT] [-o option-name] [--] [-] [arg ...]")

def runSet : Nat → List Octets → Run Nat
  | 0, _ => return 0
  | n + 1, args => do
    match args with
    | [] => return 0
    | ['-', '-'] :: rest =>
      change fun s => { s with arguments := rest }
      return 0
    | ['-'] :: rest =>
      setFlag 'x' false
      setFlag 'v' false
      if !rest.isEmpty then change fun s => { s with arguments := rest }
      return 0
    | (sign :: c :: cs) :: rest =>
      if sign = '-' || sign = '+' then
        match ← setLetters (sign = '-') (c :: cs) rest with
        | .error status => return status
        | .ok rest => runSet n rest
      else
        change fun s => { s with arguments := args }
        return 0
    | _ =>
      change fun s => { s with arguments := args }
      return 0

def runShift (args : List Octets) : Run Nat := do
  if 1 < args.length then tooMany "shift"
  else match (match args with
    | [] => some 1
    | o :: _ => signed? o) with
  | none => fault "shift" ((args.headD []) ++ text ": numeric argument required")
  | some k =>
    if k < 0 then fault "shift" ((args.headD []) ++ text ": shift count out of range")
    else
      let s ← session
      if s.arguments.length < k.toNat then return 1
      else
        change fun s => { s with arguments := s.arguments.drop k.toNat }
        return 0

def shellOptions : List String :=
  ["autocd", "assoc_expand_once", "cdable_vars", "cdspell", "checkhash", "checkjobs", "checkwinsize",
    "cmdhist", "compat31", "compat32", "compat40", "compat41", "compat42", "compat43", "compat44",
    "complete_fullquote", "direxpand", "dirspell", "dotglob", "execfail", "expand_aliases", "extdebug",
    "extglob", "extquote", "failglob", "force_fignore", "globasciiranges", "globskipdots", "globstar",
    "gnu_errfmt", "histappend", "histreedit", "histverify", "hostcomplete", "huponexit",
    "inherit_errexit", "interactive_comments", "lastpipe", "lithist", "localvar_inherit",
    "localvar_unset", "login_shell", "mailwarn", "no_empty_cmd_completion", "nocaseglob", "nocasematch",
    "noexpand_translation", "nullglob", "patsub_replacement", "progcomp", "progcomp_alias", "promptvars",
    "restricted_shell", "shift_verbose", "sourcepath", "varredir_close", "xpg_echo"]

def runShopt (args : List Octets) : Run Nat := do
  let (os, operands) := takeOptions args
  let has (c : Char) := os.any (·.1 = c)
  return worst (← operands.mapM fun o => do
    let name := Octets.toString o
    if !shellOptions.contains name then fault "shopt" (o ++ text ": invalid shell option name")
    else if has 's' then
      setOption name true
      return 0
    else if has 'u' then
      setOption name false
      return 0
    else
      let on ← hasOption name
      if !has 'q' then
        say (o ++ List.replicate (15 - o.length) ' ' ++ text (if on then "\ton\n" else "\toff\n"))
      return if on then 0 else 1)

def runLet (args : List Octets) : Run Nat := do
  let args := match args with
    | ['-', '-'] :: rest => rest
    | _ => args
  if args.isEmpty then fault "let" (text "expression expected")
  else evaluateEach args
where
  /-- The status of the last of some expressions. -/
  evaluateEach : List Octets → Run Nat
    | [] => return 0
    | o :: os => do
      match ← tryCalculate (text "let: ") o with
      | none => return 1
      | some v =>
        if os.isEmpty then return if v = 0 then 1 else 0
        else evaluateEach os

end SecretForge.Script
