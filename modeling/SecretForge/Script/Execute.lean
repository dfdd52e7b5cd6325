import SecretForge.Script.Program
import SecretForge.Script.Reader

/-!
# The command language: running commands

A command is run by running its parts.  How deeply commands are nested, functions that call themselves
included, is bounded by a number of steps, and so is the number of turns of a loop.

* `runCommand` runs a command, `callWords` a command given by its words.
* `runText` runs the commands that a text writes, unit by unit.
* `runScript` runs a whole script and tells how it ended.
-/

namespace SecretForge.Script

open SecretForge.Text

/-! ### Parts of commands -/

def checkFailure : Run Unit := do
  let s ← session
  if s.status ≠ 0 && s.flags.contains 'e' && !s.isTest then throw .ended

/-- Something run as a test: a failure in it does not end the session. -/
def asTest (x : Run Unit) : Run Unit :=
  restoring (·.isTest) (fun b s => { s with isTest := b }) do
    change fun s => { s with isTest := true }
    x

def turn (x : Run Unit) : Run Bool :=
  tryCatch (do x; return true) fun
    | .broken k => if 1 < k then throw (.broken (k - 1)) else return false
    | .continued k => if 1 < k then throw (.continued (k - 1)) else return true
    | jump => throw jump

/-- The largest number of turns of a loop. -/
def turnLimit : Nat := 1000000

/-- Turns of a loop as long as they ask for another. -/
def repeatTurns (step : Run Bool) : Nat → Run Unit
  | 0 => throw .exhausted
  | n + 1 => do if ← step then repeatTurns step n

/-- Turns of a loop as long as its test succeeds, or as long as it fails, with the status of the last
turn. -/
def repeatWhile (negated : Bool) (test body : Run Unit) : Nat → Nat → Run Nat
  | 0, _ => throw .exhausted
  | n + 1, last => do
    if !(← turn (asTest test)) then return last
    else if ((← session).status = 0) = negated then return last
    else
      let goes ← turn body
      let status := (← session).status
      if goes then repeatWhile negated test body n status else return status

def inLoop {α : Type} (x : Run α) : Run α :=
  restoring (·.loops) (fun k s => { s with loops := k }) do
    change fun s => { s with loops := s.loops + 1 }
    x

def listElements (h : Hooks) : Nat → List (Option Word × Word) → Run (List (Nat × Octets))
  | _, [] => return []
  | _, (some i, w) :: rest => do
    let k := (← calculate (← expandExpression h i)).toNat
    let o ← expandText h w
    return (k, o) :: (← listElements h (k + 1) rest)
  | next, (none, w) :: rest => do
    let os ← expandWords h [w]
    let es := (List.range os.length).zip os |>.map fun (j, o) => (next + j, o)
    return es ++ (← listElements h (next + os.length) rest)

/-- A binding made; false if the variable is fixed. -/
def bind (h : Hooks) : Binding → Run Bool
  | .scalar name none append w => do
    let o ← expandText h w
    if append then
      let old := (← value? name).getD []
      match ← variableOf? name with
      | some { isInteger := true, .. } => store name (old ++ '+' :: o)
      | _ => store name (old ++ o)
    else store name o
  | .scalar name (some i) append w => do
    let k ← calculate (← expandExpression h i)
    let o ← expandText h w
    let old ← if append then element? name k else pure none
    storeElement name k (old.getD [] ++ o)
  | .list name append es => do
    let v := (← variableOf? name).getD {}
    let old := if append then v.elements else []
    let next := ((old.getLast?).map (·.1 + 1)).getD 0
    let new ← listElements h next es
    setContents name fun _ => .list (new.foldl (fun acc (i, o) => putElement i o acc) old)

def Binding.name : Binding → String
  | .scalar name _ _ _ => name
  | .list name _ _ => name

/-- Something run with bindings that end with it. -/
def withBindings (h : Hooks) (bs : List Binding) (x : Run Unit) : Run Unit := do
  if bs.isEmpty then x
  else
    let kept := (← session).vars
    let names := bs.map Binding.name
    let putBack (s : Session) : Session :=
      { s with vars := (s.vars.filter fun v => !names.contains v.1)
          ++ kept.filter fun v => names.contains v.1 }
    restoring (fun _ => ()) (fun _ => putBack) do
      bs.forM fun b => do
        if ← bind h b then
          setVariable b.name { ((← variableOf? b.name).getD {}) with isExported := true }
      x

/-- The words of a command.  The operands of a command that declares variables are not split if they
are bindings. -/
def expandArguments (h : Hooks) : List Word → Run (List Octets)
  | [] => return []
  | w :: ws => do
    let first ← expandWords h [w]
    let declares := match first with
      | [name] => declarers.contains name
      | _ => false
    if declares then
      let rest ← ws.mapM fun v => do
        match v with
        | .plain t :: _ =>
          if (binding? t).isSome then return [← expandText h v] else expandWords h [v]
        | _ => expandWords h [v]
      return first ++ rest.flatten
    else return first ++ (← expandWords h ws)

def traceWords (words : List Octets) : Run Unit := do
  if ← hasFlag 'x' then
    let lead := (← value? "PS4").getD (text "+ ")
    warn (lead ++ List.intercalate [' '] (words.map traceQuoted))

def traceBinding (b : Binding) : Run Unit := do
  if ← hasFlag 'x' then
    match b with
    | .scalar name none _ _ =>
      let o := (← value? name).getD []
      warn (text "+ " ++ name.toList ++ '=' :: (if o.isEmpty then [] else traceQuoted o))
    | _ => return

def callFunction (run : Command → Run Unit) (name : String) (body : Command) (args : List Octets) :
    Run Unit := do
  let s ← session
  let leave (s' : Session) : Session :=
    let restored := match s'.scopes with
      | scope :: _ => scope.foldl (fun vars (name, old) =>
        match old with
        | some v => assign name v vars
        | none => vars.filter (·.1 ≠ name)) s'.vars
      | [] => s'.vars
    { s' with
      arguments := s.arguments, frames := s.frames, loops := s.loops, scopes := s.scopes
      vars := restored }
  restoring (fun _ => ()) (fun _ => leave) do
    change fun s => { s with
      arguments := args, frames := name :: s.frames, loops := 0, scopes := [] :: s.scopes, status := s.status }
    tryCatch (run body) fun
      | .returned => return
      | jump => throw jump

/-- What a path names as a command, or the status and report if it names none. -/
def commandAt (o : Octets) : Run (Except (Nat × String) String) := do
  let path := Octets.toString o
  let base := String.ofList ((path.toList.reverse.takeWhile (· ≠ '/')).reverse)
  if externalNames.contains base && programDirectories.any (fun d => path = d ++ "/" ++ base) then return .ok base
  else match ← fileAt o with
    | .error .missing => return .error (127, "No such file or directory")
    | .error f => return .error (126, f.text)
    | .ok (_, .directory) => return .error (126, "Is a directory")
    | .ok (_, .file _) => return .error (126, "Permission denied")

/-- A program run by name; false if there is none of the name. -/
def callProgram (h : Hooks) (name : String) (args : List Octets) : Run Bool := do
  match program? h name with
  | none => return false
  | some p =>
    let status ← p args
    setStatus status
    return true

def callNamed (run : Command → Run Unit) (h : Hooks) (functions : Bool) : List Octets → Run Unit
  | [] => return
  | word :: args => do
    let name := Octets.toString word
    let s ← session
    match (if functions then s.functions.lookup name else none) with
    | some body => callFunction run name body args
    | none =>
      if word.contains '/' then
        match ← commandAt word with
        | .error (status, message) =>
          complain (word ++ text s!": {message}")
          setStatus status
        | .ok base =>
          if ← callProgram h base args then return
          else match builtin? h base with
            | some b => setStatus (← b args)
            | none => notFound word "command not found"
      else match builtin? h name with
        | some b => setStatus (← b args)
        | none =>
          match ← search name with
          | .found _ => if ← callProgram h name args then return else notFound word "command not found"
          | .notFound => notFound word "command not found"
          | .notHere => notFound word "No such file or directory"
where
  /-- A command that there is not. -/
  notFound (word : Octets) (reason : String) : Run Unit := do
    let reason := if (← session).isTerse then "not found" else reason
    complain (word ++ text s!": {reason}")
    setStatus 127

def runSimple (run : Command → Run Unit) (h : Hooks) (line : Nat) (bs : List Binding) (ws : List Word)
    (rs : List Redirection) : Run Unit := do
  change fun s => { s with line, outputStatus := none }
  let words ← expandArguments h ws
  change fun s => { s with line }
  match words with
  | [] =>
    withRedirections h rs do
      change fun s => { s with outputStatus := s.outputStatus }
      bs.forM fun b => do
        if ← bind h b then traceBinding b else giveUp
      setStatus (((← session).outputStatus).getD 0)
  | name :: args =>
    if name = text "exec" && args.isEmpty then
      setStatus (if ← redirectAll h rs then 0 else 1)
    else
      withRedirections h rs do
        withBindings h bs do
          bs.forM traceBinding
          traceWords words
          callNamed run h true words
    change fun s => { s with lastArgument := words.getLastD [] }
  let status := (← session).status
  setVariable "PIPESTATUS" { contents := .list [(0, decimalDigits status)] }

/-- The stages of a pipeline, each with the output of the one before it as its input, with their
statuses. -/
def runStages (run : Command → Run Unit) : Option Nat → Commands → Run (List Nat)
  | _, [] => return []
  | input, c :: cs => do
    let output ← if cs.isEmpty then pure none
      else some <$> openStream { target := .memory #[] }
    let bind_ (fd : Nat) (n : Option Nat) (ds : List (Nat × Nat)) : List (Nat × Nat) :=
      match n with
      | some n => assign fd n ds
      | none => ds
    let status ← subshell do
      change fun s => { s with descriptors := bind_ 1 output (bind_ 0 input s.descriptors) }
      run c
    return status :: (← runStages run output cs)

/-- The status of a pipeline from those of its stages. -/
def pipelineStatus (strict : Bool) (codes : List Nat) : Nat :=
  if strict then (codes.reverse.find? (· ≠ 0)).getD 0 else codes.getLastD 0

/-- The branch of a choice that a text selects, and what follows it. -/
def runBranches (run : Command → Run Unit) (h : Hooks) (o : List Octets) (falls : Bool) :
    List (List Word × Commands × After) → Run Unit
  | [] => return
  | (patterns, body, after) :: rest => do
    let matched ← if falls then pure true
      else patterns.anyM fun p => do return matchesAll (← expandPattern h p) o
    if matched then
      setStatus 0
      body.forM run
      match after with
      | .stop => return
      | .fallThrough => runBranches run h o true rest
      | .test => runBranches run h o false rest
    else runBranches run h o false rest

/-! ### Commands -/

def faultLines (lead : Octets) : Fault → List Octets
  | .unexpected line token source =>
    let at_ := lead ++ text s!"line {line}: "
    [at_ ++ text "syntax error near unexpected token " ++ ticked token, at_ ++ ticked source]
  | .ended line => [lead ++ text s!"line {line}: syntax error: unexpected end of file"]
  | .unmatched line mark =>
    [lead ++ text s!"line {line}: unexpected EOF while looking for matching " ++ ticked [mark]]
  | .condition line message token source =>
    let at_ := lead ++ text s!"line {line}: "
    [at_ ++ message, at_ ++ text "syntax error near " ++ ticked token, at_ ++ ticked source]
  | .nested => [lead ++ text "commands are nested too deeply"]

/-- The units of a text run one after the other.  A fault ends the reading.  At the top a unit that is
given up is followed by the next one. -/
def runUnits (run : Command → Run Unit) (isTop : Bool) (lead : Octets) : Nat → Source → Run Unit
  | 0, _ => return
  | n + 1, source => do
    match (readUnit (stepsFor source.rest)).run source with
    | .error f =>
      (faultLines lead f).forM warn
      setStatus 2
    | .ok (unit?, rest) =>
      rest.notes.reverse.forM fun note => do warn ((← session).name ++ text ": " ++ note)
      match unit? with
      | none => return
      | some unit =>
        tryCatch (unit.forM run) fun
          | .discarded => if isTop then return else throw .discarded
          | jump => throw jump
        runUnits run isTop lead n { rest with notes := [] }

/-- The commands that a text writes, run; faults in it are reported under a name. -/
def runText (run : Command → Run Unit) (isTop : Bool) (name : String) (o : Octets) : Run Unit := do
  let lead := (← session).name ++ text (if name.isEmpty then ": " else s!": {name}: ")
  runUnits run isTop lead (o.length + 1) (Source.ofText o)

mutual

def runCommand : Nat → Command → Run Unit
  | 0, _ => throw .exhausted
  | n + 1, c => do
    let run := runCommand n
    let h : Hooks := {
      commands := fun cs => cs.forM (runCommand n)
      script := fun name o => runText (runCommand n) false name o
      call := callWords n }
    let all (cs : Commands) : Run Unit := cs.forM run
    match c with
    | .simple line bs ws rs =>
      runSimple run h line bs ws rs
      checkFailure
    | .group body => all body
    | .subshell body =>
      setStatus (← subshell (all body))
      checkFailure
    | .conditional branches otherwise =>
      let rec decide_ : List (Commands × Commands) → Run Unit
        | [] => if otherwise.isEmpty then setStatus 0 else all otherwise
        | (test, body) :: rest => do
          asTest (all test)
          if (← session).status = 0 then all body else decide_ rest
      decide_ branches
    | .loop negated test body =>
      let status ← inLoop (repeatWhile negated (all test) (all body) turnLimit 0)
      setStatus status
    | .each line name ws body =>
      change fun s => { s with line }
      if !isName name then
        complain (ticked name ++ text ": not a valid identifier")
        setStatus 1
      else
        let values ← match ws with
          | some ws => expandWords h ws
          | none => pure (← session).arguments
        setStatus 0
        let rec each_ : List Octets → Run Unit
          | [] => return
          | o :: os => do
            let goes ← turn do
              if ← store (String.ofList name) o then all body else giveUp
            if goes then each_ os
        inLoop (each_ values)
    | .count line start test step body =>
      change fun s => { s with line }
      let evaluate_ (w : Word) : Run (Option Int) := do
        tryCalculate (text "((: ") (← expandExpression h w)
      match ← evaluate_ start with
      | none => setStatus 1
      | some _ =>
        setStatus 0
        inLoop (repeatTurns (do
          let o ← expandExpression h test
          let v ← if (o.all fun c => c = ' ') then pure (some 1) else tryCalculate (text "((: ") o
          match v with
          | none =>
            setStatus 1
            return false
          | some 0 => return false
          | some _ =>
            let goes ← turn (all body)
            if goes then
              let _ ← evaluate_ step
            return goes) turnLimit)
    | .choice subject branches =>
      let o ← expandText h subject
      setStatus 0
      runBranches run h (Octets.characters o) false branches
    | .arithmetic line e =>
      change fun s => { s with line }
      match ← tryCalculate (text "((: ") (← expandExpression h e) with
      | some v => setStatus (if v = 0 then 1 else 0)
      | none => setStatus 1
      checkFailure
    | .test line condition =>
      change fun s => { s with line }
      match ← testCondition h 200 condition with
      | some b => setStatus (truth b)
      | none => setStatus 2
      checkFailure
    | .define name body =>
      change fun s => { s with functions := assign name body s.functions, status := 0 }
    | .redirected body rs =>
      withRedirections h rs (run body)
      checkFailure
    | .pipeline negated stages =>
      match negated, stages with
      | true, [] => setStatus 1
      | true, [stage] =>
        asTest (run stage)
        let status := (← session).status
        setStatus (if status = 0 then 1 else 0)
      | _, _ =>
        let codes ← if negated then
            restoring (·.isTest) (fun b s => { s with isTest := b }) do
              change fun s => { s with isTest := true }
              runStages run none stages
          else runStages run none stages
        setVariable "PIPESTATUS" {
          contents := .list ((List.range codes.length).zip (codes.map decimalDigits)) }
        let status := pipelineStatus (← hasOption "pipefail") codes
        setStatus (if negated then (if status = 0 then 1 else 0) else status)
        if !negated then checkFailure
    | .and first second =>
      asTest (run first)
      if (← session).status = 0 then run second
    | .or first second =>
      asTest (run first)
      if (← session).status ≠ 0 then run second
    | .background body =>
      let status ← subshell do
        let input ← openStream { target := .null }
        change fun s => { s with descriptors := assign 0 input s.descriptors }
        run body
      let number := processNumber + 1 + (← session).jobs.length
      change fun s => { s with
        background := some number, jobs := assign number status s.jobs, status := 0 }

/-- A command given by its words run; no function is meant. -/
def callWords : Nat → List Octets → Run Unit
  | 0, _ => throw .exhausted
  | n + 1, words => do
    let h : Hooks := {
      commands := fun cs => cs.forM (runCommand n)
      script := fun name o => runText (runCommand n) false name o
      call := callWords n }
    callNamed (runCommand n) h false words

end

/-! ### Scripts -/

def depthLimit : Nat := 2000

inductive Ending where
  | status (n : Nat)
  | signal (n : Nat)
  deriving DecidableEq, Repr

/-- A text run as a script of its own, with its trap for the end. -/
def runWhole (o : Octets) : Run Unit := do
  let run := runCommand depthLimit
  let guarded (x : Run Unit) : Run Unit := tryCatch x fun
    | .killed signal => throw (.killed signal)
    | _ => return
  guarded (runText run true "-c" o)
  match (← session).traps.lookup "EXIT" with
  | none => return
  | some action =>
    let status := (← session).status
    change fun s => { s with traps := s.traps.filter (·.1 ≠ "EXIT") }
    guarded do
      runText run true "exit trap" action
      setStatus status

/-- A script run in a directory of files with an environment: what it wrote, how it ended, and the
files it left. -/
def runScript (environment : List (String × String)) (script : Octets) (files : Files) :
    Octets × Ending × Files :=
  let start : Machine := {
    session := {
      vars := initialVariables (environment.map fun (n, v) =>
        (n, { contents := .scalar (text v), isExported := true }))
      descriptors := [(0, 0), (1, 1), (2, 1)]
      here := files.here }
    world := { files, streams := #[{ target := .null }, { target := .memory #[], reads := false }] } }
  let finish (m : Machine) : Octets :=
    match m.world.streams[1]? with
    | some st =>
      match st.target with
      | .memory content => content.toList
      | _ => []
    | none => []
  let left (m : Machine) : Files := { m.world.files with here := files.here }
  match (runWhole script).run start with
  | .ok _ m => (finish m, .status m.session.status, left m)
  | .error (.killed n) m => (finish m, .signal n, left m)
  | .error _ m => (finish m, .status m.session.status, left m)

end SecretForge.Script
