import SecretForge.Text.Search
import SecretForge.Text.Utf8

/-!
# A tree of files

The part of a file system that a run can see: regular files with their bytes and directories, by their
absolute paths.  A path is followed name by name; every name on the way must be a directory, and two
dots lead back to the directory above.

* `Files.follow` is the walk along a path, `Files.locate` the walk that ends at something that exists.
* `Files.read` and `Files.place` open a file for reading and for writing.
-/

namespace SecretForge

open SecretForge.Text

inductive FileEntry where
  | file (content : List UInt8)
  | directory
  deriving DecidableEq, Repr

/-- Why a path leads to no file. -/
inductive FileFault where
  | missing
  | notADirectory
  | isADirectory
  | nameTooLong
  deriving DecidableEq, Repr

def FileFault.number : FileFault → Nat
  | .missing => 2
  | .notADirectory => 20
  | .isADirectory => 21
  | .nameTooLong => 36

/-- A fault in words. -/
def FileFault.text : FileFault → String
  | .missing => "No such file or directory"
  | .notADirectory => "Not a directory"
  | .isADirectory => "Is a directory"
  | .nameTooLong => "File name too long"

/-- An absolute path: the names below the root. -/
abbrev Path := List String

/-- Files by path, and the directory that relative paths start from. -/
structure Files where
  entries : List (Path × FileEntry) := []
  here : Path := []
  deriving Repr

namespace Files

def nameLimit : Nat := 255

def pathLimit : Nat := 4095

/-- What a path names; the root is a directory. -/
def entry? (fs : Files) (p : Path) : Option FileEntry :=
  if p.isEmpty then some .directory else (fs.entries.find? (·.1 == p)).map (·.2)

def put (p : Path) (e : FileEntry) (fs : Files) : Files :=
  if fs.entries.any (·.1 == p) then
    { fs with entries := fs.entries.map fun q => if q.1 == p then (p, e) else q }
  else { fs with entries := fs.entries ++ [(p, e)] }

def remove (p : Path) (fs : Files) : Files :=
  { fs with entries := fs.entries.filter fun q => !p.isPrefixOf q.1 }

/-- The names in a directory with their entries, in the order they were made. -/
def children (fs : Files) (p : Path) : List (String × FileEntry) :=
  fs.entries.filterMap fun q =>
    match p.isPrefixOf q.1, q.1.drop p.length with
    | true, [name] => some (name, q.2)
    | _, _ => none

/-- The names of a path.  A path that ends in a slash ends in the directory itself, as it does with a
final dot. -/
def names (path : String) : List String :=
  let parts := (splitOnChar '/' path.toList).map String.ofList
  let proper := parts.filter fun n => !n.isEmpty
  if path.endsWith "/" then proper ++ ["."] else proper

/-- Where a walk along names ends, from a directory or file reached. -/
def follow (fs : Files) (reached : Path) : List String → Except FileFault Path
  | [] => .ok reached
  | name :: rest =>
    match fs.entry? reached with
    | none => .error .missing
    | some (.file _) => .error .notADirectory
    | some .directory =>
      if name == "." then follow fs reached rest
      else if name == ".." then follow fs reached.dropLast rest
      else if nameLimit < name.utf8ByteSize then .error .nameTooLong
      else follow fs (reached ++ [name]) rest

/-- Where a path leads; nothing needs to exist there yet. -/
def resolve (fs : Files) (path : String) : Except FileFault Path :=
  if path.isEmpty then .error .missing
  else if pathLimit < path.utf8ByteSize then .error .nameTooLong
  else follow fs (if path.startsWith "/" then [] else fs.here) (names path)

def locate (fs : Files) (path : String) : Except FileFault (Path × FileEntry) :=
  (fs.resolve path).bind fun p =>
    match fs.entry? p with
    | none => .error .missing
    | some e => .ok (p, e)

def isFile (fs : Files) (path : String) : Bool :=
  match fs.locate path with
  | .ok (_, .file _) => true
  | _ => false

def read (fs : Files) (path : String) : Except FileFault (List UInt8) :=
  match fs.locate path with
  | .error e => .error e
  | .ok (_, .directory) => .error .isADirectory
  | .ok (_, .file content) => .ok content

/-- Where a file that is opened for writing stands: a file that exists, or a new one in a directory
that exists.  A path that ends in a slash cannot name a new file. -/
def place (fs : Files) (path : String) : Except FileFault Path :=
  let names := names path
  let base := if path.endsWith "/" then names.dropLast else names
  if path.endsWith "/" && !base.isEmpty && base.getLast? != some "." && base.getLast? != some ".." then
    if pathLimit < path.utf8ByteSize then .error .nameTooLong
    else match fs.follow (if path.startsWith "/" then [] else fs.here) (base.dropLast ++ ["."]) with
      | .error e => .error e
      | .ok _ => .error .isADirectory
  else match fs.resolve path with
    | .error e => .error e
    | .ok p =>
      match fs.entry? p with
      | some .directory => .error .isADirectory
      | some (.file _) => .ok p
      | none => if fs.entry? p.dropLast == some .directory then .ok p else .error .missing

end Files

end SecretForge
