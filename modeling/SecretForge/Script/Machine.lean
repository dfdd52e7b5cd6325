import SecretForge.Files
import SecretForge.Script.Syntax
import SecretForge.Text.Digit

/-!
# The command language: the machine

Commands act on a session, the variables and settings that a subshell has a copy of, and on the world
outside, the files and the open streams that all share.  A descriptor of a session is a number for a
stream; a stream has a position that is shared by every descriptor for it.

* `Session`, `World` and `Machine` are the states; `Run` is the type of what acts on them.
* `Jump` is what takes control away from the command that comes next.
* `put` and `take` write and read at a descriptor; `complain` writes a report.
* `subshell` runs something on a copy of the session.
-/

namespace SecretForge.Script

open SecretForge.Text

inductive Contents where
  | nothing
  | scalar (value : Octets)
  | list (elements : List (Nat × Octets))

structure Variable where
  contents : Contents := .nothing
  isExported : Bool := false
  isFixed : Bool := false
  isInteger : Bool := false
  recase : Option CaseChange := none

/-- The value of a variable: that of its first element if it is a list. -/
def Variable.value? (v : Variable) : Option Octets :=
  match v.contents with
  | .nothing => none
  | .scalar o => some o
  | .list es => (es.find? (·.1 = 0)).map (·.2)

def Variable.elements (v : Variable) : List (Nat × Octets) :=
  match v.contents with
  | .nothing => []
  | .scalar o => [(0, o)]
  | .list es => es

/-- What a subshell has a copy of. -/
structure Session where
  vars : List (String × Variable) := []
  /-- The variables that the functions being run have hidden, the innermost function first. -/
  scopes : List (List (String × Option Variable)) := []
  functions : List (String × Command) := []
  arguments : List Octets := []
  name : Octets := "bash".toList
  status : Nat := 0
  flags : List Char := []
  options : List String := []
  descriptors : List (Nat × Nat) := []
  traps : List (String × Octets) := []
  here : Path := []
  /-- The directories to go back to. -/
  stack : List Path := []
  /-- The permissions that new files do not get. -/
  mask : Nat := 18
  /-- Commands that stand for others; a session that nobody types into does not use them. -/
  aliases : List (String × Octets) := []
  line : Nat := 1
  /-- Whether a failure does not end the session even if failures should. -/
  isTest : Bool := false
  loops : Nat := 0
  /-- The functions being run, the innermost first. -/
  frames : List String := []
  /-- How many files of commands are being run. -/
  sources : Nat := 0
  background : Option Nat := none
  /-- The commands that were run in the background, with their statuses. -/
  jobs : List (Nat × Nat) := []
  /-- The status of the last command whose output was taken. -/
  outputStatus : Option Nat := none
  isSubshell : Bool := false
  /-- Whether reports are in the short form of the plain shell. -/
  isTerse : Bool := false
  lastArgument : Octets := []
  /-- What the next random number is made from. -/
  seed : Nat := 1

/-- What a stream reads from and writes to. -/
inductive Target where
  | null
  | zeros
  | noise
  | memory (content : Array Char)
  | file (path : Path)

structure Stream where
  target : Target
  position : Nat := 0
  reads : Bool := true
  writes : Bool := true
  appends : Bool := false

/-- What all sessions share. -/
structure World where
  files : Files := {}
  streams : Array Stream := #[]

/-- The state that commands act on. -/
structure Machine where
  session : Session
  world : World

/-- What takes control away from the next command. -/
inductive Jump where
  /-- The session ends. -/
  | ended
  /-- The unit being run ends. -/
  | discarded
  /-- A function or a file of commands ends. -/
  | returned
  /-- A number of loops end. -/
  | broken (loops : Nat)
  /-- The next turn of an outer loop begins. -/
  | continued (loops : Nat)
  /-- A signal ends the shell. -/
  | killed (signal : Nat)
  /-- There are no steps left. -/
  | exhausted

abbrev Run := EStateM Jump Machine

/-! ### The session -/

def session : Run Session := return (← get).session

def change (f : Session → Session) : Run Unit :=
  modify fun m => { m with session := f m.session }

def changeWorld (f : World → World) : Run Unit := modify fun m => { m with world := f m.world }

def setStatus (n : Nat) : Run Unit := change fun s => { s with status := n % 256 }

def flagNames : List (String × Char) :=
  [("allexport", 'a'), ("braceexpand", 'B'), ("errexit", 'e'), ("hashall", 'h'), ("noclobber", 'C'),
    ("noexec", 'n'), ("noglob", 'f'), ("nounset", 'u'), ("verbose", 'v'), ("xtrace", 'x')]

def hasFlag (c : Char) : Run Bool := return (← session).flags.contains c

def hasOption (name : String) : Run Bool := return (← session).options.contains name

def leave {α : Type} (status : Nat) : Run α := do
  setStatus status
  throw .ended

def giveUp {α : Type} : Run α := do
  setStatus 1
  throw .discarded

/-- The session ends because of a parameter; a subshell ends with another status. -/
def leaveUnset {α : Type} : Run α := do leave (if (← session).isSubshell then 1 else 127)

/-! ### Variables -/

def assign {α β : Type} [BEq α] (key : α) (value : β) : List (α × β) → List (α × β)
  | [] => [(key, value)]
  | p :: ps => if p.1 == key then (key, value) :: ps else p :: assign key value ps

def variableOf? (name : String) : Run (Option Variable) := do
  let s ← session
  if name = "FUNCNAME" && !s.frames.isEmpty then
    let names := s.frames.map text
    return some { contents := .list ((List.range names.length).zip names) }
  else return s.vars.lookup name

/-- The value of a variable that is not kept in the session. -/
def dynamic? (s : Session) : String → Option Octets
  | "LINENO" => some (decimalDigits s.line)
  | "BASH_SUBSHELL" => some (if s.isSubshell then ['1'] else ['0'])
  | "SECONDS" => some ['0']
  | "FUNCNAME" => s.frames.head?.map text
  | "_" => some s.lastArgument
  | _ => none

def value? (name : String) : Run (Option Octets) := do
  let s ← session
  if name = "RANDOM" then
    let seed := (s.seed * 1103515245 + 12345) % 2147483648
    change fun s => { s with seed }
    return some (decimalDigits (seed / 65536 % 32768))
  else match s.vars.lookup name with
    | some v => return v.value?.or (dynamic? s name)
    | none => return dynamic? s name

def setVariable (name : String) (v : Variable) : Run Unit :=
  change fun s => { s with vars := assign name v s.vars }

/-- The variables of a session that begins with an environment of exported variables. -/
def initialVariables (environment : List (String × Variable)) : List (String × Variable) :=
  let plain : List (String × String) :=
    [("IFS", " \t\n"), ("OPTERR", "1"), ("PS4", "+ "), ("BASH", "/bin/bash"),
      ("BASH_VERSION", "5.2.15(1)-release"), ("OSTYPE", "linux-gnu"), ("HOSTTYPE", "x86_64"),
      ("MACHTYPE", "x86_64-pc-linux-gnu"), ("SHELL", "/bin/bash"), ("TERM", "dumb"),
      ("PATH", "/usr/local/sbin:/usr/local/bin:/usr/sbin:/usr/bin:/sbin:/bin")]
  let fixed : List (String × String) := [("EUID", "0"), ("UID", "0"), ("PPID", "12344")]
  let version := ["5", "2", "15", "1", "release", "x86_64-pc-linux-gnu"]
  let own : List (String × Variable) :=
    plain.map (fun (n, v) => (n, { contents := .scalar (text v) }))
      ++ fixed.map (fun (n, v) => (n, { contents := .scalar (text v), isFixed := true, isInteger := true }))
      ++ [("OPTIND", { contents := .scalar ['1'], isInteger := true }),
        ("BASH_VERSINFO", { contents := .list ((List.range 6).zip (version.map text)), isFixed := true }),
        ("OLDPWD", { isExported := true })]
  own.filter (fun v => !(environment.any (·.1 = v.1))) ++ environment

/-! ### Streams -/

def openStream (st : Stream) : Run Nat := do
  let n := (← get).world.streams.size
  changeWorld fun w => { w with streams := w.streams.push st }
  return n

/-- The stream of a descriptor, with its number. -/
def stream? (fd : Nat) : Run (Option (Nat × Stream)) := do
  let m ← get
  return (m.session.descriptors.lookup fd).bind fun n => (m.world.streams[n]?).map fun st => (n, st)

def setStream (n : Nat) (st : Stream) : Run Unit :=
  changeWorld fun w => { w with streams := w.streams.setIfInBounds n st }

/-- The contents of a file with octets written at a position. -/
def overwrite (content : List UInt8) (position : Nat) (o : Octets) : List UInt8 :=
  content.take position ++ List.replicate (position - content.length) 0 ++ Octets.toBytes o
    ++ content.drop (position + o.length)

def putStream (n : Nat) (st : Stream) (o : Octets) : Run Unit := do
  match st.target with
  | .memory content => setStream n { st with target := .memory (content ++ o) }
  | .file path =>
    let fs := (← get).world.files
    let content := match fs.entry? path with
      | some (.file bytes) => bytes
      | _ => []
    let position := if st.appends then content.length else st.position
    let written := overwrite content position o
    changeWorld fun w => { w with files := w.files.put path (.file written) }
    setStream n { st with position := position + o.length }
  | _ => return

/-- Octets written at a descriptor; false if it is not open for writing. -/
def put (fd : Nat) (o : Octets) : Run Bool := do
  match ← stream? fd with
  | some (n, st) =>
    if st.writes then
      putStream n st o
      return true
    else return false
  | none => return false

def say (o : Octets) : Run Unit := do
  let _ ← put 1 o

/-- How much is read at once from a stream without end. -/
def endlessSize : Nat := 65536

/-- Numbers without a pattern. -/
def noise : Nat → Nat → List Char
  | 0, _ => []
  | n + 1, seed =>
    let next := (seed * 1103515245 + 12345) % 2147483648
    Char.ofNat (next / 65536 % 256) :: noise n next

/-- What is left to read of a stream. -/
def remaining (st : Stream) : Run Octets := do
  match st.target with
  | .null => return []
  | .zeros => return List.replicate endlessSize (Char.ofNat 0)
  | .noise => return noise endlessSize (st.position + 1)
  | .memory content => return content.toList.drop st.position
  | .file path =>
    match Files.entry? (← get).world.files path with
    | some (.file bytes) => return (Octets.ofBytes bytes).drop st.position
    | _ => return []

/-- What is left to read at a descriptor; nothing is passed over. -/
def peek (fd : Nat) : Run (Option Octets) := do
  match ← stream? fd with
  | some (_, st) => if st.reads then some <$> remaining st else return none
  | none => return none

/-- Some of what is left to read at a descriptor is passed over. -/
def advance (fd n : Nat) : Run Unit := do
  match ← stream? fd with
  | some (k, st) => setStream k { st with position := st.position + n }
  | none => return

/-- All that is left to read at a descriptor. -/
def take (fd : Nat) : Run (Option Octets) := do
  match ← peek fd with
  | none => return none
  | some o =>
    advance fd o.length
    return some o

/-! ### Reports -/

/-- A line written to the errors. -/
def warn (o : Octets) : Run Unit := do
  let _ ← put 2 (o ++ ['\n'])

/-- A report of the shell about the line being run. -/
def complain (o : Octets) : Run Unit := do
  let s ← session
  warn (s.name ++ text (if s.isTerse then s!": {s.line}: " else s!": line {s.line}: ") ++ o)

/-! ### Subshells -/

/-- What is run on a copy of the session; only its status is left of it. -/
def subshell (x : Run Unit) : Run Nat := do
  let kept ← session
  change fun s => { s with isSubshell := true, loops := 0, traps := s.traps.filter (·.2.isEmpty) }
  tryCatch x fun
    | .killed signal => throw (.killed signal)
    | .exhausted => throw .exhausted
    | _ => return
  let status := (← session).status
  set { (← get) with session := kept }
  return status

/-- The output of what is run on a copy of the session, with its status. -/
def capture (x : Run Unit) : Run (Octets × Nat) := do
  let n ← openStream { target := .memory #[], reads := false }
  let status ← subshell do
    change fun s => { s with descriptors := assign 1 n s.descriptors }
    x
  match (← get).world.streams[n]? with
  | some { target := .memory content, .. } => return (content.toList, status)
  | _ => return ([], status)

end SecretForge.Script
