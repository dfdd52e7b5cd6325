import SecretForge.Store.Document
import SecretForge.Store.Server

/-!
# The versioned store

One secret of the server for one item; the latest version of the secret is the item's document, and
every operation adds a version with the whole document.  A document is read once in a session and kept
from then on, with each value put into it before the new version is sent.

* A secret that is missing is created, and its document starts blank.
* When the server refuses a version, the kept document is dropped, so that the next operation reads
  the stored one.  Other faults of a request leave it as it is.
* The values of an operation are made known as secrets before anything else is done with them.
-/

namespace SecretForge.Versioned

/-- What a session is opened with. -/
structure Settings where
  project : String
  /-- The path of the key file, if one is to be used. -/
  credentials : Option String := none
  /-- Whether the values set are made known as secrets. -/
  announces : Bool := true
  deriving DecidableEq, Repr

/-- A session: whether there is a connection, and the documents kept so far. -/
structure Session where
  connected : Bool := false
  kept : List (String × Document) := []
  deriving Inhabited

/-- A session together with the server it talks to. -/
structure State where
  session : Session := {}
  server : Server

def isNameChar (c : Char) : Bool := c.isAlphanum || c = '_' || c = '-'

/-- Whether the characters are the name of a secret: one to 255 letters, digits, underscores and
hyphens. -/
def isName (cs : List Char) : Bool := cs.all isNameChar && 1 ≤ cs.length && cs.length ≤ 255

/-- Whether a text is taken for the name of a secret: a name, which may be followed by the end of its
line. -/
def allowsName (name : String) : Bool :=
  let cs := name.toList
  isName cs || (cs.getLast? = some '\n' && isName cs.dropLast)

/-- The fault of a request as the end of an operation. -/
def escaping : ServerFault → Stop StoreFailure
  | .refused e => .failed (.unforeseen e)
  | .broken detail => .failed (.broken detail)
  | .system detail => .failed (.system detail)
  | .interrupted => .interrupted

def request {α : Type} (f : Server → Except ServerFault α × Server) : Act State ServerFault α :=
  fun s =>
    let (r, server) := f s.server
    ⟨r, [], { s with server }⟩

def onSession {ε : Type} (f : Session → Session) : Act State ε Unit :=
  Act.modify fun s => { s with session := f s.session }

def Session.find? (s : Session) (item : String) : Option Document :=
  (s.kept.find? fun e => e.1 = item).map (·.2)

def Session.drop (item : String) (s : Session) : Session :=
  { s with kept := s.kept.filter fun e => e.1 ≠ item }

def Session.keep (item : String) (d : Document) (s : Session) : Session :=
  { s with kept := (item, d) :: (s.drop item).kept }

variable (settings : Settings)

def connect : Act State ServerFault Unit := do
  let s ← Act.get
  if s.session.connected then return ()
  request (Server.connect settings.credentials)
  onSession fun session => { session with connected := true }

def secretName (item : String) : String := s!"projects/{settings.project}/secrets/{item}"

def fetch (item : String) : Act State ServerFault (List UInt8) := do
  connect settings
  request (Server.access s!"{secretName settings item}/versions/latest")

/-- A secret for an item that has none.  That there is one without versions is no failure. -/
def create (item : String) : Act State (Stop StoreFailure) Unit := do
  Act.log .info .server s!"Creating secret {item} in project {settings.project}"
  let r ← Act.attempt do
    connect settings
    request (Server.create s!"projects/{settings.project}" item)
  match r with
  | .ok () => return ()
  | .error (.refused e) =>
    if e.kind = .alreadyExists then return ()
    else Act.fail (.failed (.createRefused item e))
  | .error f => Act.fail (escaping f)

def stored (item : String) : Act State (Stop StoreFailure) Document := do
  match ← Act.attempt (fetch settings item) with
  | .ok version =>
    match Document.read version with
    | .ok d => return d
    | .error f => Act.fail (.failed (.noDocument item f))
  | .error (.refused e) =>
    if e.kind = .notFound then
      create settings item
      return []
    else Act.fail (.failed (.readRefused item e))
  | .error f => Act.fail (escaping f)

/-- The complete document of an item, which is kept from now on. -/
def load (item : String) : Act State (Stop StoreFailure) Document := do
  let s ← Act.get
  match s.session.find? item with
  | some d => return d
  | none =>
    if !allowsName item then Act.fail (.failed (.invalidName item))
    else
      let d := Document.complete (← stored settings item)
      onSession (Session.keep item d)
      return d

/-- A new version of an item's secret. -/
def save (item : String) (d : Document) : Act State (Stop StoreFailure) Unit := do
  let r ← Act.attempt do
    connect settings
    request (Server.add (secretName settings item) d.write)
  match r with
  | .ok () => return ()
  | .error (.refused e) =>
    onSession (Session.drop item)
    Act.fail (.failed (.addRefused item e))
  | .error f => Act.fail (escaping f)

/-- The value of an assignment is made known as a secret. -/
def announce (a : Assignment) : Act State (Stop StoreFailure) Unit :=
  match settings.announces, a.secret? with
  | true, some text => Act.emit (.learned text)
  | _, _ => pure ()

def apply (op : Operation) : Act State (Stop StoreFailure) Unit := do
  announce settings op.assignment
  let d ← load settings op.item
  match d.assign op.assignment with
  | .error f => Act.fail (.failed f)
  | .ok d =>
    onSession (Session.keep op.item d)
    save settings op.item d

/-- The end of the session; without a connection only the kept documents are dropped. -/
def logout : Act State (Stop StoreFailure) Unit := do
  let s ← Act.get
  if s.session.connected then
    match ← Act.attempt (request Server.close) with
    | .ok () => pure ()
    | .error f => Act.fail (escaping f)
  onSession fun _ => {}

def store : Store State where
  apply := apply settings
  logout := logout

end SecretForge.Versioned
