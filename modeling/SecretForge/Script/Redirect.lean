import SecretForge.Script.Expand

/-!
# The command language: redirections

A redirection makes a descriptor of the session a name for another stream.  Redirections are made in
the order they are written, and the first that cannot be made is reported.

* `openAt` opens a file or a device, `redirect` makes one redirection, `redirectAll` several.
* `withRedirections` runs something with redirections that end with it.
-/

namespace SecretForge.Script

open SecretForge.Text

/-- A word as reports show it: the way it was written, as far as that is kept. -/
def wordSource (w : Word) : Octets :=
  w.flatMap fun
    | .plain t => t
    | .quoted t => t
    | .parameter (.variable n) .keep => '$' :: n.toList
    | .parameter (.arguments joined) .keep => if joined then ['$', '*'] else ['$', '@']
    | .parameter (.argument k) .keep => '$' :: decimalDigits k
    | _ => []

def descriptorPath? (o : Octets) : Option Nat :=
  match String.ofList o with
  | "/dev/stdin" => some 0
  | "/dev/stdout" => some 1
  | "/dev/stderr" => some 2
  | _ =>
    match stripStart? (text "/dev/fd/") o with
    | some ds => if !ds.isEmpty && ds.all Char.isDigit then (signed? ds).map Int.toNat else none
    | none => none

def openInput (o : Octets) : Run (Except FileFault Nat) := do
  match String.ofList o with
  | "/dev/null" => .ok <$> openStream { target := .null }
  | "/dev/zero" => .ok <$> openStream { target := .zeros }
  | "/dev/urandom" | "/dev/random" => .ok <$> openStream { target := .noise }
  | _ =>
    let m ← get
    match { m.world.files with here := m.session.here }.locate (Octets.toString o) with
    | .error f => return .error f
    | .ok (p, .file _) => .ok <$> openStream { target := .file p, writes := false }
    | .ok (p, .directory) => .ok <$> openStream { target := .file p, writes := false }

/-- The stream of a file that is written: from its start, or at its end. -/
def openOutput (o : Octets) (appends reads : Bool) : Run (Except FileFault Nat) := do
  if devices.contains o then .ok <$> openStream { target := .null }
  else
    let m ← get
    match { m.world.files with here := m.session.here }.place (Octets.toString o) with
    | .error f => return .error f
    | .ok p =>
      let kept := match m.world.files.entry? p with
        | some (.file content) => if appends || reads then content else []
        | _ => []
      changeWorld fun w => { w with files := w.files.put p (.file kept) }
      .ok <$> openStream { target := .file p, appends, reads }
where
  /-- The devices that take everything that is written. -/
  devices : List Octets := ["/dev/null", "/dev/zero", "/dev/random", "/dev/urandom"].map text

/-- A descriptor made a name for a stream. -/
def bindDescriptor (fd n : Nat) : Run Unit :=
  change fun s => { s with descriptors := assign fd n s.descriptors }

def closeDescriptor (fd : Nat) : Run Unit :=
  change fun s => { s with descriptors := s.descriptors.filter (·.1 ≠ fd) }

/-- A descriptor made a copy of another; false if that one is not open. -/
def copyDescriptor (fd from_ : Nat) : Run Bool := do
  match (← session).descriptors.lookup from_ with
  | some n =>
    bindDescriptor fd n
    return true
  | none =>
    complain (decimalDigits from_ ++ text ": Bad file descriptor")
    return false

/-- Streams opened for a path at descriptors; false if it cannot be opened. -/
def openAt (fds : List Nat) (path : Octets) (x : Run (Except FileFault Nat)) : Run Bool := do
  match descriptorPath? path with
  | some k =>
    match (← session).descriptors.lookup k with
    | some n =>
      fds.forM fun fd => bindDescriptor fd n
      return true
    | none =>
      complain (path ++ text ": No such file or directory")
      return false
  | none =>
    match ← x with
    | .ok n =>
      fds.forM fun fd => bindDescriptor fd n
      return true
    | .error f =>
      complain (path ++ text s!": {f.text}")
      return false

/-- A text made what a descriptor reads. -/
def feed (fd : Nat) (o : Octets) : Run Unit := do
  let n ← openStream { target := .memory o.toArray, writes := false }
  bindDescriptor fd n

/-- One redirection; false if it cannot be made. -/
def redirect (h : Hooks) : Redirection → Run Bool
  | .mk descriptor opening target => do
    match opening with
    | .hereDocument =>
      feed (descriptor.getD 0) (← expandText h target)
      return true
    | .hereString =>
      feed (descriptor.getD 0) ((← expandText h target) ++ ['\n'])
      return true
    | _ =>
      match ← expandFields h target with
      | [o] =>
        let input := descriptor.getD 0
        let output := descriptor.getD 1
        match opening with
        | .input => openAt [input] o (openInput o)
        | .output =>
          if (← hasFlag 'C') && (← isFile o) then
            complain (o ++ text ": cannot overwrite existing file")
            return false
          else openAt [output] o (openOutput o false false)
        | .clobber => openAt [output] o (openOutput o false false)
        | .append => openAt [output] o (openOutput o true false)
        | .both => openAt [input] o (openOutput o false true)
        | .outputAndErrors => openAt [1, 2] o (openOutput o false false)
        | .appendAndErrors => openAt [1, 2] o (openOutput o true false)
        | .copyInput => copy input o target
        | _ =>
          if descriptor.isNone && !isDescriptor o then openAt [1, 2] o (openOutput o false false)
          else copy output o target
      | _ =>
        complain (wordSource target ++ text ": ambiguous redirect")
        return false
where
  /-- Whether a path leads to a file. -/
  isFile (o : Octets) : Run Bool := do
    let m ← get
    return { m.world.files with here := m.session.here }.isFile (Octets.toString o)
  /-- Whether a text names a descriptor or closes one. -/
  isDescriptor (o : Octets) : Bool := o = ['-'] || (!o.isEmpty && o.all Char.isDigit)
  /-- A descriptor made a copy of the one that a text names, or closed. -/
  copy (fd : Nat) (o : Octets) (target : Word) : Run Bool := do
    if o = ['-'] then
      closeDescriptor fd
      return true
    else match o.reverse with
      | '-' :: ds =>
        if !ds.isEmpty && ds.all Char.isDigit then
          let from_ := ((signed? ds.reverse).getD 0).toNat
          if ← copyDescriptor fd from_ then
            if fd ≠ from_ then closeDescriptor from_
            return true
          else return false
        else ambiguous target
      | _ =>
        if isDescriptor o then copyDescriptor fd ((signed? o).getD 0).toNat
        else ambiguous target
  /-- A target that is no descriptor. -/
  ambiguous (target : Word) : Run Bool := do
    complain (wordSource target ++ text ": ambiguous redirect")
    return false

/-- Redirections in order; false if one cannot be made. -/
def redirectAll (h : Hooks) : List Redirection → Run Bool
  | [] => return true
  | r :: rs => do if ← redirect h r then redirectAll h rs else return false

/-- Something run with a part of the session put back after it, however it ends. -/
def restoring {α β : Type} (part : Session → β) (put : β → Session → Session) (x : Run α) : Run α := do
  let kept := part (← session)
  let a ← tryCatch x fun jump => do
    change (put kept)
    throw jump
  change (put kept)
  return a

/-- Something run with redirections that end with it; if one cannot be made it is not run, and the
status tells so. -/
def withRedirections (h : Hooks) (rs : List Redirection) (x : Run Unit) : Run Unit := do
  if rs.isEmpty then x
  else restoring (·.descriptors) (fun ds s => { s with descriptors := ds }) do
    if ← redirectAll h rs then x else setStatus 1

end SecretForge.Script
