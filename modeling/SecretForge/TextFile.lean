import SecretForge.Files
import SecretForge.Text.Quoted

/-!
# Reading text files

A text file is read whole, its bytes as UTF-8 and each of its line ends, whichever kind it is, as one
character.  A path is brought to its shortest form first, without looking at the files it leads
through.

* `tidyPath` is the form of a path, `FileFault.report` the report of a path that leads nowhere.
* `readText` reads a file.
-/

namespace SecretForge

open SecretForge.Text

/-- Why a text file cannot be read. -/
inductive TextFileFault where
  /-- The path leads to no file. -/
  | file (fault : FileFault) (path : String)
  /-- The path has a zero in it. -/
  | zeroInPath
  /-- The file holds no text. -/
  | notText (fault : Utf8.Fault)
  deriving DecidableEq, Repr

/-- The report of a fault with the path that met it. -/
def FileFault.report (path : String) (f : FileFault) : String :=
  s!"[Errno {f.number}] {f.text}: {Quoted.text path}"

def zeroReport : String := "embedded null byte"

/-- The names of a path without empty names and dots, after its root; two slashes at the start are a
root of their own. -/
def tidyPath (path : String) : String :=
  let cs := path.toList
  let slashes := (cs.takeWhile (· = '/')).length
  let root := if slashes = 0 then "" else if slashes = 2 then "//" else "/"
  let names := ((splitOnChar '/' cs).map String.ofList).filter fun n => !n.isEmpty && n != "."
  let whole := root ++ String.intercalate "/" names
  if whole.isEmpty then "." else whole

/-- A text with every line end as one character. -/
def plainLines : List Char → List Char
  | '\r' :: '\n' :: cs => '\n' :: plainLines cs
  | '\r' :: cs => '\n' :: plainLines cs
  | c :: cs => c :: plainLines cs
  | [] => []

def hasZero (path : String) : Bool := path.toList.contains (Char.ofNat 0)

def readText (fs : Files) (path : String) : Except TextFileFault String :=
  let tidy := tidyPath path
  if hasZero path then .error .zeroInPath
  else match fs.read tidy with
    | .error f => .error (.file f tidy)
    | .ok bytes =>
      match Utf8.decode bytes with
      | .error f => .error (.notText f)
      | .ok text => .ok (String.ofList (plainLines text.toList))

end SecretForge
