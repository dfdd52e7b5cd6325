import SecretForge.Script.Builtin.Variable
import SecretForge.Script.Format

/-!
# The command language: commands that write and read text

`echo` and `printf` write, `read` and `mapfile` read into variables.  A line that is read is split as
an expanded word is, except that the last variable takes all that is left.

* `runEcho`, `runPrintf`, `runRead` and `runMapfile` are the commands.
-/

namespace SecretForge.Script

open SecretForge.Text

/-! ### Writing -/

/-- A text with the escapes of `echo` replaced, and whether the output ends with it. -/
def echoText : Nat → Octets → Octets × Bool
  | 0, _ => ([], false)
  | _, [] => ([], false)
  | n + 1, '\\' :: c :: cs =>
    let more (o : Octets) (rest : Octets) : Octets × Bool :=
      let (t, stops) := echoText n rest
      (o ++ t, stops)
    if c = '0' then
      let (v, k) := leadingValue 8 3 cs
      more [Char.ofNat (v % 256)] (cs.drop k)
    else if '1' ≤ c && c ≤ '7' then more ['\\', c] cs
    else match escape true (c :: cs) with
      | (.text o, rest) => more o rest
      | (.stop, _) => ([], true)
      | (.lacking mark, _) => more ['\\', mark] cs
  | n + 1, c :: cs =>
    let (t, stops) := echoText n cs
    (c :: t, stops)

def echoOptions : List Octets → List Char × List Octets
  | ('-' :: c :: cs) :: rest =>
    if (c :: cs).all fun d => d = 'n' || d = 'e' || d = 'E' then
      let (os, operands) := echoOptions rest
      (c :: cs ++ os, operands)
    else ([], ('-' :: c :: cs) :: rest)
  | operands => ([], operands)

/-- Octets written to the output by a command; a report if it is not open. -/
def sayOrFault (name : String) (o : Octets) : Run Nat := do
  if o.isEmpty then return 0
  else if ← put 1 o then return 0
  else fault name (text "write error: Bad file descriptor")

def runEcho (args : List Octets) : Run Nat := do
  let (os, operands) := echoOptions args
  let escapes := (os.filter fun c => c = 'e' || c = 'E').getLast? = some 'e'
  let line := List.intercalate [' '] operands
  let (o, stops) := if escapes then echoText (line.length + 1) line else (line, false)
  sayOrFault "echo" (o ++ (if stops || os.contains 'n' then [] else ['\n']))

def printfUsage : String := "printf [-v var] format [arguments]"

def runPrintf (args : List Octets) : Run Nat := do
  match args with
  | ['-', 'v'] :: name :: rest =>
    if !(namedSubject? name).isSome then notAName name
    else if rest.isEmpty then usage else write (some name) (dropMark rest)
  | [['-', 'v']] =>
    let _ ← fault "printf" (text "-v: option requires an argument")
    usage
  | ('-' :: c :: cs) :: rest =>
    if c = '-' && cs.isEmpty then write none rest
    else if c = 'v' then write (some cs) (dropMark rest)
    else badOption "printf" ['-', c] printfUsage
  | args => write none args
where
  /-- A name that is none. -/
  notAName (o : Octets) : Run Nat := do
    let _ ← badName "printf" o
    return 2
  /-- How the command is used, as a fault. -/
  usage : Run Nat := do
    warn (text s!"printf: usage: {printfUsage}")
    return 2
  /-- The operands without the mark that ends the options. -/
  dropMark : List Octets → List Octets
    | ['-', '-'] :: rest => rest
    | operands => operands
  /-- What a format and its arguments come to, written or put into a variable. -/
  write (name : Option Octets) : List Octets → Run Nat
    | [] => usage
    | format :: operands => do
      let p := printed format operands
      p.counts.forM fun (n, k) => do
        let _ ← store (String.ofList n) (decimalDigits k)
      let report (o : Octets) : Run Unit := complain (text "printf: " ++ o)
      match name with
      | some n =>
        p.allParts.forM fun
          | .report o => report o
          | .output _ => pure ()
        match namedSubject? n with
        | some (.element base [.quoted i]) =>
          let k ← calculate i
          let _ ← storeElement base k (p.text.takeWhile (·.toNat ≠ 0))
        | _ =>
          let _ ← store (String.ofList n) (p.text.takeWhile (·.toNat ≠ 0))
        return if p.failed then 1 else 0
      | none =>
        let codes ← p.allParts.mapM fun
          | .report o => do
            report o
            return 0
          | .output o => sayOrFault "printf" o
        return if p.failed then 1 else worst codes

/-! ### Reading -/

structure Extent where
  delimiter : Char := '\n'
  limit : Option Nat := none
  /-- Whether the delimiter is read like any other character. -/
  exact : Bool := false
  raw : Bool := false

/-- What is read of a text: the characters with whether they are quoted, the number of octets, and
whether the extent was reached. -/
def readExtent (x : Extent) : Option Nat → Octets → List Marked × Nat × Bool
  | some 0, _ => ([], 0, true)
  | _, [] => ([], 0, false)
  | left, '\\' :: cs =>
    if x.raw then
      if x.delimiter = '\\' && !x.exact then ([], 1, true)
      else
        let (ms, n, reached) := readExtent x (left.map (· - 1)) cs
        (('\\', false) :: ms, n + 1, reached)
    else match cs with
      | [] => ([], 1, false)
      | c :: rest =>
        let (ms, n, reached) := readExtent x (if c = '\n' then left else left.map (· - 1)) rest
        (if c = '\n' then ms else (c, true) :: ms, n + 2, reached)
  | left, c :: cs =>
    if c = x.delimiter && !x.exact then ([], 1, true)
    else
      let (ms, n, reached) := readExtent x (left.map (· - 1)) cs
      if c.toNat = 0 then (ms, n + 1, reached) else ((c, false) :: ms, n + 1, reached)

def separates (ifs : Octets) (m : Marked) : Bool := !m.2 && ifs.contains m.1

def separatesBlank (ifs : Octets) (m : Marked) : Bool :=
  separates ifs m && (m.1 = ' ' || m.1 = '\t' || m.1 = '\n')

/-- The first field of a line without blanks at its start, and the line after its separator. -/
def firstField (ifs : Octets) (ms : List Marked) : List Marked × List Marked :=
  let field := ms.takeWhile fun m => !separates ifs m
  let after := (ms.drop field.length).dropWhile (separatesBlank ifs)
  match after with
  | m :: rest =>
    if separates ifs m then (field, rest.dropWhile (separatesBlank ifs)) else (field, after)
  | [] => (field, [])

/-- The values of some names for a line; the last takes what is left of it. -/
def lineValues (ifs : Octets) : List String → List Marked → List (String × Octets)
  | [], _ => []
  | [name], ms =>
    let trimmed := ((ms.reverse).dropWhile (separatesBlank ifs)).reverse
    let (field, rest) := firstField ifs trimmed
    let value := if rest.isEmpty then field else trimmed
    [(name, value.map (·.1))]
  | name :: names, ms =>
    let (field, rest) := firstField ifs ms
    (name, field.map (·.1)) :: lineValues ifs names rest

def lineFields (ifs : Octets) : Nat → List Marked → List Octets
  | 0, _ => []
  | _, [] => []
  | n + 1, ms =>
    let (field, rest) := firstField ifs ms
    field.map (·.1) :: lineFields ifs n rest

structure ReadOptions where
  extent : Extent := {}
  list : Option String := none
  descriptor : Nat := 0

/-- The options in front of the operands of `read`, or the option that is wrong. -/
def readOptions : Nat → ReadOptions → List Octets → Except Octets (ReadOptions × List Octets)
  | 0, o, args => .ok (o, args)
  | n + 1, o, args =>
    match args with
    | ['-', '-'] :: rest => .ok (o, rest)
    | ('-' :: c :: cs) :: rest =>
      let plain (o : ReadOptions) := readOptions n o (if cs.isEmpty then rest else ('-' :: cs) :: rest)
      let valued (f : Octets → ReadOptions) : Except Octets (ReadOptions × List Octets) :=
        if !cs.isEmpty then readOptions n (f cs) rest
        else match rest with
          | v :: rest => readOptions n (f v) rest
          | [] => .error (text "-" ++ [c] ++ text ": option requires an argument")
      let number (v : Octets) : Nat := ((signed? v).getD 0).toNat
      match c with
      | 'r' => plain { o with extent := { o.extent with raw := true } }
      | 's' | 'e' => plain o
      | 'a' => valued fun v => { o with list := some (String.ofList v) }
      | 'd' => valued fun v =>
        { o with extent := { o.extent with delimiter := (v.head?).getD (Char.ofNat 0) } }
      | 'n' => valued fun v => { o with extent := { o.extent with limit := some (number v) } }
      | 'N' => valued fun v =>
        { o with extent := { o.extent with limit := some (number v), exact := true } }
      | 'p' | 't' | 'i' => valued fun _ => o
      | 'u' => valued fun v => { o with descriptor := number v }
      | _ => .error ['-', c]
    | operands => .ok (o, operands)

def readUsage : String :=
  "read [-ers] [-a array] [-d delim] [-i text] [-n nchars] [-N nchars] [-p prompt] [-t timeout] "
    ++ "[-u fd] [name ...]"

def runRead (args : List Octets) : Run Nat := do
  match readOptions (2 * (args.flatten.length + args.length) + 4) {} args with
  | .error option =>
    if option.length = 2 then badOption "read" option readUsage
    else
      let _ ← fault "read" option
      warn (text s!"read: usage: {readUsage}")
      return 2
  | .ok (o, operands) =>
    match operands.find? fun n => !isName n with
    | some n => badName "read" n
    | none =>
      match ← peek o.descriptor with
      | none =>
        fault "read" (text s!"read error: {o.descriptor}: Bad file descriptor")
      | some left =>
        let (ms, n, reached) := readExtent o.extent o.extent.limit left
        advance o.descriptor n
        let ifs ← separators
        let names := operands.map String.ofList
        let lead := if o.extent.exact then ms else ms.dropWhile (separatesBlank ifs)
        match o.list with
        | some name =>
          let fields := lineFields ifs (lead.length + 1) lead
          setVariable name { contents := .list ((List.range fields.length).zip fields) }
        | none =>
          if names.isEmpty then
            let _ ← store "REPLY" (ms.map (·.1))
          else if o.extent.exact then
            names.head?.forM fun name => do
              let _ ← store name (ms.map (·.1))
            (names.drop 1).forM fun name => do
              let _ ← store name []
          else
            (lineValues ifs names lead).forM fun (name, v) => do
              let _ ← store name v
        return if reached then 0 else 1

def runMapfile (args : List Octets) : Run Nat := do
  let trims := args.contains (text "-t")
  let name := match args.getLast? with
    | some o => if o.head? = some '-' then "MAPFILE" else String.ofList o
    | none => "MAPFILE"
  match ← take 0 with
  | none => return 1
  | some o =>
    let (ls, isEnded) := Octets.lines o
    let last := ls.length - 1
    let es := (List.range ls.length).zip ls |>.map fun (i, l) =>
      (i, if trims || (i = last && !isEnded) then l else l ++ ['\n'])
    setVariable name { contents := .list es }
    return 0

end SecretForge.Script
