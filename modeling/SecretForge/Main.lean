import SecretForge.CommandLine.Run
import SecretForge.Script.Shell

/-!
# The program

The program reads the files that its arguments name, runs, and puts on disk what the run changed.
Everything that is decided is decided by the run.
-/

open SecretForge SecretForge.CommandLine

def namedPaths (arguments : List String) : List String :=
  match Options.parse arguments with
  | .ok (.run o) => ([o.config, o.credentialsPath] ++ o.dryRunOutput.toList).filter (!·.isEmpty)
  | _ => []

/-- A path as the names below the root. -/
def absolutePath (here : Path) (path : String) : Path :=
  let names := (Files.names path).filter (· ≠ ".")
  if path.startsWith "/" then names else here ++ names

def pathName (p : Path) : String := "/" ++ String.intercalate "/" p

/-- The directories above a path made known. -/
def withDirectories (fs : Files) (p : Path) : Files :=
  (List.range p.length).foldl (fun fs k => if k = 0 then fs else fs.put (p.take k) .directory) fs

/-- Files with the one at a path, if it can be read. -/
def withFile (fs : Files) (p : Path) : IO Files := do
  let fs := withDirectories fs p
  try
    let content ← IO.FS.readBinFile (pathName p)
    return fs.put p (.file content.toList)
  catch _ => return fs

/-- The files of a run put on disk as far as they are new. -/
def saveFiles (before after : Files) : IO Unit :=
  after.entries.forM fun (p, e) => do
    match e with
    | .directory => return
    | .file content =>
      if before.entry? p = some e then return
      else IO.FS.writeBinFile (pathName p) (ByteArray.mk content.toArray)

def main (arguments : List String) : IO UInt32 := do
  let here := (Files.names (toString (← IO.currentDir))).filter (· ≠ ".")
  let paths := (namedPaths arguments).map (absolutePath here)
  let files ← paths.foldlM withFile (withDirectories { here } (here ++ [""]))
  let (handle, temporary) ← IO.FS.createTempFile
  let around : Surroundings := {
    environment := ← IO.getEnv "GCP_PROJECT"
    shell := Script.shell
    temporaryName := toString temporary }
  let t := transcript around arguments { files, server := {} }
  saveFiles files t.system.files
  match t.system.temporary with
  | some content => handle.putStr content
  | none => IO.FS.removeFile temporary
  (← IO.getStdout).putStr t.output
  (← IO.getStderr).putStr t.errors
  match t.ending with
  | .exit status => return status.toUInt32
  | .escaped f =>
    (← IO.getStderr).putStr (f.message ++ "\n")
    return 1
