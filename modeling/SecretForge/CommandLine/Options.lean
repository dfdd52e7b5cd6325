import SecretForge.Number.Integer

/-!
# Options of the command line

An option is written in full or by any beginning that no other option shares; its value follows an
equals sign or is the next argument.  What every argument is, an option or a plain word, is settled
before any option takes effect: after two dashes alone everything is a plain word, and so is a number
below zero or a text with a space that is no option.

* `Options` are the values, `Flag` the options that set them.
* `classify` settles what an argument is, `apply` lets the arguments take effect in order.
* `Options.parse` does both.
-/

namespace SecretForge.CommandLine

open SecretForge.Text

structure Options where
  dryRun : Bool := true
  dryRunOutput : Option String := none
  config : String := ""
  credentialsPath : String := ""
  projectId : Option String := none
  logLevel : String := "info"
  concurrency : Int := 1
  deriving DecidableEq, Repr

inductive Flag where
  | help
  | version
  /-- A dry run asked for, or refused. -/
  | dryRun (on : Bool)
  | dryRunOutput
  | config
  | credentialsPath
  | projectId
  | logLevel
  | concurrency
  deriving DecidableEq, Repr

def spellings : List (String × Flag) :=
  [("-h", .help), ("--help", .help), ("--version", .version), ("--dry-run", .dryRun true),
    ("--no-dry-run", .dryRun false), ("--dry-run-output", .dryRunOutput), ("--config", .config),
    ("--credentials-path", .credentialsPath), ("--project-id", .projectId), ("--log-level", .logLevel),
    ("--concurrency", .concurrency)]

namespace Flag

/-- The name of an option in reports: all its spellings. -/
def title : Flag → String
  | .help => "-h/--help"
  | .version => "--version"
  | .dryRun _ => "--dry-run/--no-dry-run"
  | .dryRunOutput => "--dry-run-output"
  | .config => "--config"
  | .credentialsPath => "--credentials-path"
  | .projectId => "--project-id"
  | .logLevel => "--log-level"
  | .concurrency => "--concurrency"

/-- Whether an option takes a value. -/
def takesValue : Flag → Bool
  | .help | .version | .dryRun _ => false
  | _ => true

end Flag

inductive UsageFault where
  /-- An argument that several spellings begin with. -/
  | ambiguous (argument : String) (spellings : List String)
  /-- An option without the value that it takes. -/
  | noValue (flag : Flag)
  /-- An option with a value that it does not take. -/
  | ignored (flag : Flag) (value : String)
  /-- A value that is no whole number. -/
  | notANumber (flag : Flag) (value : String)
  /-- Arguments that are no options. -/
  | unrecognized (arguments : List String)
  deriving DecidableEq, Repr

def UsageFault.message : UsageFault → String
  | .ambiguous argument found =>
    s!"ambiguous option: {argument} could match " ++ String.intercalate ", " found
  | .noValue flag => s!"argument {flag.title}: expected one argument"
  | .ignored flag value => s!"argument {flag.title}: ignored explicit argument {Quoted.text value}"
  | .notANumber flag value => s!"argument {flag.title}: invalid int value: {Quoted.text value}"
  | .unrecognized arguments => "unrecognized arguments: " ++ String.intercalate " " arguments

/-! ### What an argument is -/

inductive Argument where
  | word (text : String)
  /-- The two dashes after which everything is a word. -/
  | terminator
  /-- An option, with the value written after it. -/
  | option (flag : Flag) (value : Option String)
  /-- Something written like an option. -/
  | unknown (text : String)
  deriving DecidableEq, Repr

/-- The text before the first equals sign, and the text after it if there is one. -/
def splitValue (text : String) : String × Option String :=
  let name := text.toList.takeWhile (· ≠ '=')
  match text.toList.drop name.length with
  | _ :: value => (String.ofList name, some (String.ofList value))
  | [] => (text, none)

/-- The options that a text abbreviates, with their spellings and the value written after each.  A
single dash and a letter may have their value right after the letter. -/
def abbreviated (text : String) : List (String × Flag × Option String) :=
  if text.startsWith "--" then
    let (name, value) := splitValue text
    (spellings.filter fun s => s.1.startsWith name).map fun s => (s.1, s.2, value)
  else
    let letter := String.ofList (text.toList.take 2)
    let rest := String.ofList (text.toList.drop 2)
    spellings.filterMap fun s =>
      if s.1 == letter then some (s.1, s.2, some rest)
      else if s.1.startsWith text then some (s.1, s.2, none)
      else none

/-- Whether characters are decimal digits of any script, and there is one. -/
def areDigits (cs : List Char) : Bool := !cs.isEmpty && cs.all fun c => (decimalDigit? c).isSome

/-- Whether a text is a number below zero, with or without decimals; a line may end after it. -/
def isNegative (text : String) : Bool :=
  match text.toList with
  | '-' :: cs =>
    let cs := if cs.getLast? = some '\n' then cs.dropLast else cs
    let whole := cs.takeWhile (· ≠ '.')
    match cs.drop whole.length with
    | [] => areDigits whole
    | _ :: places => (whole.isEmpty || areDigits whole) && areDigits places
  | [] => false
  | _ => false

/-- What an argument is when no terminator stands before it. -/
def classifyOne (text : String) : Except UsageFault Argument :=
  if !text.startsWith "-" then .ok (.word text)
  else match spellings.lookup text with
    | some flag => .ok (.option flag none)
    | none =>
      if text == "-" then .ok (.word text)
      else
        let (name, value) := splitValue text
        match value, spellings.lookup name with
        | some v, some flag => .ok (.option flag (some v))
        | _, _ =>
          match abbreviated text with
          | [(_, flag, v)] => .ok (.option flag v)
          | [] =>
            if isNegative text || text.toList.contains ' ' then .ok (.word text)
            else .ok (.unknown text)
          | found => .error (.ambiguous text (found.map (·.1)))

/-- What the arguments are. -/
def classify : List String → Except UsageFault (List Argument)
  | [] => .ok []
  | "--" :: rest => .ok (.terminator :: rest.map .word)
  | text :: rest => do
    let a ← classifyOne text
    let others ← classify rest
    return a :: others

/-! ### What the arguments do -/

inductive Request where
  | run (options : Options)
  | help
  | version
  deriving DecidableEq, Repr

def Options.set (o : Options) (flag : Flag) (value : String) : Except UsageFault Options :=
  match flag with
  | .dryRunOutput => .ok { o with dryRunOutput := some value }
  | .config => .ok { o with config := value }
  | .credentialsPath => .ok { o with credentialsPath := value }
  | .projectId => .ok { o with projectId := some value }
  | .logLevel => .ok { o with logLevel := value }
  | .concurrency =>
    match Number.readInteger 10 value with
    | .ok n => .ok { o with concurrency := n }
    | .error _ => .error (.notANumber flag value)
  | _ => .ok o

/-- What a value written after an option that takes none comes to: several letters after one dash are
as many options. -/
def refuseValue (flag : Flag) (value : String) : Except UsageFault Unit :=
  match flag with
  | .help =>
    match value.toList.dropWhile (· = 'h') with
    | [] => if value.isEmpty then .error (.ignored flag value) else .ok ()
    | rest => .error (.ignored flag (String.ofList rest))
  | _ => .error (.ignored flag value)

/-- The arguments taking effect in order.  `extras` are the arguments passed over so far, the last
first. -/
def apply (o : Options) (extras : List String) : List Argument → Except UsageFault Request
  | [] => if extras.isEmpty then .ok (.run o) else .error (.unrecognized extras.reverse)
  | .word text :: rest => apply o (text :: extras) rest
  | .unknown text :: rest => apply o (text :: extras) rest
  | .terminator :: rest => apply o ("--" :: extras) rest
  | .option flag (some value) :: rest =>
    if flag.takesValue then (o.set flag value).bind fun o => apply o extras rest
    else (refuseValue flag value).bind fun _ => .ok .help
  | .option .help none :: _ => .ok .help
  | .option .version none :: _ => .ok .version
  | .option (.dryRun on) none :: rest => apply { o with dryRun := on } extras rest
  | .option flag none :: .word value :: rest =>
    (o.set flag value).bind fun o => apply o extras rest
  | .option flag none :: _ => .error (.noValue flag)

def Options.parse (arguments : List String) : Except UsageFault Request :=
  (classify arguments).bind (apply {} [])

end SecretForge.CommandLine
