import SecretForge.Script.Builtin.Text
import SecretForge.Script.Test

/-!
# The command language: commands about the directory

The session is in a directory, and keeps a stack of others to go back to.

* `runCd`, `runPushd` and `runPopd` change it; `runPwd` and `runDirs` show it.
-/

namespace SecretForge.Script

open SecretForge.Text

def pathText (p : Path) : Octets := text ("/" ++ String.intercalate "/" p)

/-- The session goes to a directory; a command that cannot go there reports why. -/
def goTo (name : String) (o : Octets) : Run Nat := do
  let old := pathText (← session).here
  match ← fileAt o with
  | .error f => fault name (o ++ text s!": {f.text}")
  | .ok (_, .file _) => fault name (o ++ text ": Not a directory")
  | .ok (p, .directory) =>
    change fun s => { s with here := p }
    let put (name : String) (value : Octets) : Run Unit := do
      setVariable name { ((← variableOf? name).getD {}) with
        contents := .scalar value, isExported := true }
    put "OLDPWD" old
    put "PWD" (pathText p)
    return 0

def runCd (args : List Octets) : Run Nat := do
  let operands := args.filter fun o => !(o = text "-L" || o = text "-P" || o = text "--")
  let back (name : String) (shows : Bool) : Run Nat := do
    match ← value? name with
    | none => fault "cd" (text s!"{name} not set")
    | some o =>
      let status ← goTo "cd" o
      if shows && status = 0 then say (pathText (← session).here ++ ['\n'])
      return status
  match operands with
  | [] => back "HOME" false
  | [['-']] => back "OLDPWD" true
  | [[]] => return 0
  | [o] => goTo "cd" o
  | _ => fault "cd" (text "too many arguments")

def runPwd (args : List Octets) : Run Nat := do
  match (takeOptions args).1.find? fun o => !(o.1 = 'L' || o.1 = 'P') with
  | some (c, _) => badOption "pwd" ['-', c] "pwd [-LP]"
  | none => sayOrFault "pwd" (pathText (← session).here ++ ['\n'])

def tildePath (p : Path) : Run Octets := do
  let o := pathText p
  match ← value? "HOME" with
  | some home =>
    if home = ['/'] || home.isEmpty then return o
    else if o = home then return ['~']
    else match stripStart? (home ++ ['/']) o with
      | some rest => return '~' :: '/' :: rest
      | none => return o
  | none => return o

def sayStack : Run Nat := do
  let s ← session
  say (List.intercalate [' '] (← (s.here :: s.stack).mapM tildePath) ++ ['\n'])
  return 0

def runDirs (args : List Octets) : Run Nat := do
  if args = [text "-c"] then
    change fun s => { s with stack := [] }
    return 0
  else if args = [text "-l"] then
    let s ← session
    say (List.intercalate [' '] ((s.here :: s.stack).map pathText) ++ ['\n'])
    return 0
  else sayStack

def runPushd (args : List Octets) : Run Nat := do
  let s ← session
  match args with
  | [] =>
    match s.stack with
    | [] => fault "pushd" (text "no other directory")
    | p :: rest =>
      let status ← goTo "pushd" (pathText p)
      if status ≠ 0 then return status
      change fun t => { t with stack := s.here :: rest }
      sayStack
  | o :: _ =>
    let status ← goTo "pushd" o
    if status ≠ 0 then return status
    change fun t => { t with stack := s.here :: s.stack }
    sayStack

def runPopd : Run Nat := do
  match (← session).stack with
  | [] => fault "popd" (text "directory stack empty")
  | p :: rest =>
    let status ← goTo "popd" (pathText p)
    if status ≠ 0 then return status
    change fun s => { s with stack := rest }
    sayStack

end SecretForge.Script
