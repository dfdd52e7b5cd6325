import SecretForge.Store

/-!
# A secret server

A server keeps secrets in the order of their creation, each with its versions, the oldest first.  It
answers four requests and notes every one of them.  A plan of faults says which request fails and how:
the first fault whose method is the request's and whose turn has come is raised, and the request then
changes nothing.

* `Server.connect`, `Server.access`, `Server.create`, `Server.add` and `Server.close` are the
  requests, each an answer together with the next state.
-/

namespace SecretForge

inductive Method where
  | client
  | access
  | create
  | add
  | close
  deriving DecidableEq, Repr

inductive Request where
  /-- A connection, with the path of the credentials if there are any. -/
  | client (credentials : Option String)
  /-- The latest version of the named secret is read. -/
  | access (name : String)
  /-- A secret is created in a project. -/
  | create (parent id : String)
  /-- A version is added to the named secret. -/
  | add (parent : String) (version : List UInt8)
  /-- The connection is closed. -/
  | close
  deriving DecidableEq, Repr

def Request.method : Request → Method
  | .client _ => .client
  | .access _ => .access
  | .create _ _ => .create
  | .add _ _ => .add
  | .close => .close

/-- What a request fails with. -/
inductive ServerFault where
  /-- A refusal by the server. -/
  | refused (error : ServerError)
  /-- A fault of the program that talks to the server. -/
  | broken (detail : String)
  /-- A fault of the system. -/
  | system (detail : String)
  /-- The user breaks the request off. -/
  | interrupted
  deriving DecidableEq, Repr

/-- A fault in the plan: the requests of a method fail with it, all of them or only the one whose
number, counted from one, is the turn. -/
structure PlannedFault where
  method : Method
  turn : Option Nat
  fault : ServerFault
  deriving DecidableEq, Repr

structure Server where
  secrets : List (String × List (List UInt8)) := []
  plan : List PlannedFault := []
  /-- The requests so far. -/
  requests : List Request := []
  deriving DecidableEq, Repr

namespace Server

def count (s : Server) (m : Method) : Nat := s.requests.countP fun r => r.method = m

/-- The fault that is planned for a request of a method whose number is `n`. -/
def planned? (s : Server) (m : Method) (n : Nat) : Option ServerFault :=
  (s.plan.find? fun f => f.method = m && (f.turn.isNone || f.turn = some n)).map (·.fault)

/-- A request noted, and the fault it meets. -/
def note (s : Server) (r : Request) : Except ServerFault Unit × Server :=
  let t := { s with requests := s.requests ++ [r] }
  match t.planned? r.method (t.count r.method) with
  | some f => (.error f, t)
  | none => (.ok (), t)

/-- What follows the first `/secrets/` in a name. -/
def afterSecrets : List Char → List Char
  | [] => []
  | c :: cs =>
    match Text.stripStart? "/secrets/".toList (c :: cs) with
    | some rest => rest
    | none => afterSecrets cs

/-- What stands before the last `/versions/` in a name. -/
def beforeVersions : List Char → Option (List Char)
  | [] => none
  | c :: cs =>
    match beforeVersions cs with
    | some front => some (c :: front)
    | none => if Text.startsWith "/versions/".toList (c :: cs) then some [] else none

def secretOfVersion (name : String) : String :=
  String.ofList (let rest := afterSecrets name.toList; (beforeVersions rest).getD rest)

def secretOf (name : String) : String := String.ofList (afterSecrets name.toList)

def versions? (s : Server) (id : String) : Option (List (List UInt8)) :=
  (s.secrets.find? fun e => e.1 = id).map (·.2)

/-- The refusal of a request for a secret, or a version of one, that is not there. -/
def missing : ServerFault := .refused ⟨.notFound, "no such secret"⟩

def connect (credentials : Option String) (s : Server) : Except ServerFault Unit × Server :=
  s.note (.client credentials)

/-- The latest version of a secret. -/
def access (name : String) (s : Server) : Except ServerFault (List UInt8) × Server :=
  match s.note (.access name) with
  | (.error f, t) => (.error f, t)
  | (.ok (), t) =>
    match (t.versions? (secretOfVersion name)).bind List.getLast? with
    | some v => (.ok v, t)
    | none => (.error missing, t)

/-- A new secret without versions. -/
def create (parent id : String) (s : Server) : Except ServerFault Unit × Server :=
  match s.note (.create parent id) with
  | (.error f, t) => (.error f, t)
  | (.ok (), t) =>
    match t.versions? id with
    | some _ => (.error (.refused ⟨.alreadyExists, "already exists"⟩), t)
    | none => (.ok (), { t with secrets := t.secrets ++ [(id, [])] })

def add (parent : String) (version : List UInt8) (s : Server) : Except ServerFault Unit × Server :=
  match s.note (.add parent version) with
  | (.error f, t) => (.error f, t)
  | (.ok (), t) =>
    let id := secretOf parent
    match t.versions? id with
    | none => (.error missing, t)
    | some _ =>
      (.ok (), { t with secrets := t.secrets.map fun e =>
        if e.1 = id then (e.1, e.2 ++ [version]) else e })

/-- The end of a connection. -/
def close (s : Server) : Except ServerFault Unit × Server := s.note .close

end Server

end SecretForge
