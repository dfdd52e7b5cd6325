import SecretForge.Script.Test

/-!
# The command language: the arguments of programs

A program takes options, letters after a dash or names after two, and operands.  An option may have a
value, which is what follows its letter or the next argument.  A wrong option is reported, and the
program does nothing.

* `Program` is a program with the options that it has, `Program.call` a call of it.
* `withInputs` takes the files that operands name.
-/

namespace SecretForge.Script

open SecretForge.Text

/-- Options by their letters, with their values, in the order they are given. -/
abbrev Given := List (Char × Octets)

namespace Given

def has (g : Given) (c : Char) : Bool := g.any (·.1 = c)

def value? (g : Given) (c : Char) : Option Octets := (g.reverse.lookup c)

end Given

structure Program where
  name : String
  /-- The letters of its options; a colon follows one that takes a value. -/
  letters : String := ""
  /-- The names of options, with their letters. -/
  names : List (String × Char) := []
  /-- Whether options may follow operands. -/
  mixes : Bool := true
  /-- The status that tells of a wrong option. -/
  wrong : Nat := 1
  run : Given → List Octets → Run Nat

inductive ArgumentFault where
  | unknownLetter (c : Char)
  | unknownName (argument : Octets)
  | noValue (c : Char)
  | noValueNamed (name : String)
  | refused (name : String)
  deriving DecidableEq, Repr

def ArgumentFault.message : ArgumentFault → Octets
  | .unknownLetter c => text "invalid option -- '" ++ [c, '\'']
  | .unknownName o => text "unrecognized option '" ++ o ++ ['\'']
  | .noValue c => text "option requires an argument -- '" ++ [c, '\'']
  | .noValueNamed name => text s!"option '--{name}' requires an argument"
  | .refused name => text s!"option '--{name}' doesn't allow an argument"

namespace Program

/-- Whether a letter is that of an option, and whether that takes a value. -/
def takesValue? (letters : List Char) (c : Char) : Option Bool :=
  match letters with
  | [] => none
  | d :: ':' :: rest => if c = d then some true else takesValue? rest c
  | d :: rest => if c = d then some false else takesValue? rest c

/-- The options among the letters of one argument, and the letter whose value is the next argument. -/
def ofLetters (letters : List Char) : Octets → Except ArgumentFault (Given × Option Char)
  | [] => .ok ([], none)
  | c :: cs =>
    match takesValue? letters c with
    | none => .error (.unknownLetter c)
    | some true => .ok (if cs.isEmpty then ([], some c) else ([(c, cs)], none))
    | some false => (ofLetters letters cs).map fun (os, open_) => ((c, []) :: os, open_)

/-- The option of a name, which may be cut short if it stays the only one. -/
def named? (p : Program) (name : Octets) : Option (String × Char) :=
  let name := String.ofList name
  match p.names.find? (·.1 = name) with
  | some found => some found
  | none =>
    match p.names.filter fun n => n.1.startsWith name with
    | [found] => some found
    | _ => none

/-- An option with a name, with the value after an equals sign; or the option whose value is the next
argument, with the fault of a call that ends before it. -/
def ofName (p : Program) (cs : Octets) :
    Except ArgumentFault (Given × Option (Char × ArgumentFault)) :=
  let name := cs.takeWhile (· ≠ '=')
  match p.named? name with
  | none => .error (.unknownName ('-' :: '-' :: cs))
  | some (full, c) =>
    match takesValue? p.letters.toList c, cs.drop name.length with
    | some true, _ :: value => .ok ([(c, value)], none)
    | some true, [] => .ok ([], some (c, .noValueNamed full))
    | _, _ :: _ => .error (.refused full)
    | _, [] => .ok ([(c, [])], none)

/-- The options and the operands of a call.  `open_` is an option that the next argument is the value
of. -/
def arguments (p : Program) (open_ : Option (Char × ArgumentFault)) :
    List Octets → Except ArgumentFault (Given × List Octets)
  | [] =>
    match open_ with
    | some (_, f) => .error f
    | none => .ok ([], [])
  | o :: rest =>
    let more (os : Given) (next : Option (Char × ArgumentFault)) :
        Except ArgumentFault (Given × List Octets) :=
      (arguments p next rest).map fun (os', operands) => (os ++ os', operands)
    match open_, o with
    | some (c, _), value => more [(c, value)] none
    | none, ['-', '-'] => .ok ([], rest)
    | none, '-' :: '-' :: cs => (p.ofName cs).bind fun (os, next) => more os next
    | none, '-' :: c :: cs =>
      (ofLetters p.letters.toList (c :: cs)).bind fun (os, next) =>
        more os (next.map fun d => (d, .noValue d))
    | none, o =>
      if p.mixes then (arguments p none rest).map fun (os, operands) => (os, o :: operands)
      else .ok ([], o :: rest)

end Program

/-! ### Reports -/

/-- A text in the quotes that programs put around a word of the user. -/
def quoteMarks (o : Octets) : Octets := text "‘" ++ o ++ text "’"

/-- A line that a program writes to the errors. -/
def remark (name : String) (message : Octets) : Run Unit := warn (text s!"{name}: " ++ message)

/-- A wrong use of a program: a report, and where help is found. -/
def misuse (name : String) (message : List Octets) (status : Nat) : Run Nat := do
  match message with
  | [] => return status
  | first :: rest =>
    remark name first
    rest.forM warn
    warn (text s!"Try '{name} --help' for more information.")
    return status

def Program.call (p : Program) (args : List Octets) : Run Nat := do
  match p.arguments none args with
  | .error f => misuse p.name [f.message] p.wrong
  | .ok (os, operands) => p.run os operands

/-! ### Inputs -/

/-- The contents at a path, a dash being the input. -/
def contentAt (o : Octets) : Run (Except FileFault Octets) := do
  match descriptorPath o with
  | some k =>
    match ← take k with
    | some content => return .ok content
    | none => return .error .missing
  | none =>
    if o = text "/dev/null" then return .ok []
    else if o = text "/dev/zero" then return .ok (List.replicate endlessSize (Char.ofNat 0))
    else if o = text "/dev/urandom" || o = text "/dev/random" then return .ok (noise endlessSize 1)
    else match ← fileAt o with
      | .error f => return .error f
      | .ok (_, .directory) => return .error .isADirectory
      | .ok (_, .file content) => return .ok (Octets.ofBytes content)
where
  /-- The descriptor that an operand stands for. -/
  descriptorPath (o : Octets) : Option Nat :=
    if o = ['-'] || o = text "/dev/stdin" || o = text "/dev/fd/0" then some 0 else none

/-- The operands of a program that reads the input if it is given none. -/
def orInput (operands : List Octets) : List Octets := if operands.isEmpty then [['-']] else operands

/-- The contents of files taken in turn, from a state on; a file that cannot be read is reported, and
the status tells so. -/
def withInputs {σ : Type} (report : Octets → FileFault → Run Unit)
    (step : σ → Octets → Octets → Run σ) : σ → List Octets → Run (σ × Nat)
  | s, [] => return (s, 0)
  | s, o :: os => do
    match ← contentAt o with
    | .ok content => withInputs report step (← step s o content) os
    | .error f =>
      report o f
      let (t, _) ← withInputs report step s os
      return (t, 1)

/-- The report of a file that cannot be read: its name and the reason. -/
def reportFile (name : String) (o : Octets) (f : FileFault) : Run Unit :=
  remark name (o ++ text s!": {f.text}")

/-- The report of a file that cannot be read, as other programs make it. -/
def reportOpening (name : String) (o : Octets) (f : FileFault) : Run Unit :=
  match f with
  | .isADirectory => remark name (text "error reading '" ++ o ++ text s!"': {f.text}")
  | _ => remark name (text "cannot open '" ++ o ++ text s!"' for reading: {f.text}")

def takeInput (report : Octets → FileFault → Run Unit) (operands : List Octets) : Run (Octets × Nat) :=
  withInputs report (fun s _ content => return s ++ content) [] (orInput operands)

/-- What programs write for a name, the input having a name of its own. -/
def inputName (o : Octets) : Octets := if o = ['-'] then text "standard input" else o

/-- Lines written with their line ends. -/
def sayLines (ls : List Octets) : Run Unit := say (ls.flatMap (· ++ ['\n']))

/-- A number in decimal brought to a width with blanks. -/
def paddedLeft (width : Nat) (o : Octets) : Octets := List.replicate (width - o.length) ' ' ++ o

/-- A text's lines, each with its line end; the last may lack one. -/
def endedLines (o : Octets) : List Octets :=
  let (ls, ended) := Octets.lines o
  let whole := (if ended then ls else ls.dropLast).map (· ++ ['\n'])
  if ended then whole else whole ++ [ls.getLastD []]

def naturalOf? (o : Octets) : Option Nat :=
  if !o.isEmpty && o.all Char.isDigit then some (leadingValue 10 o.length o).1 else none

end SecretForge.Script
