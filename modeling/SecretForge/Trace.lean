import SecretForge.Log
import SecretForge.Operation

/-!
# Computations that leave a trace

Everything a run does that can be seen from outside is an event: a log record, a text that becomes
known as a secret, a command that is run, a value that is handed to the store, the end of a session.
A computation over a state `σ` ends with a value or with a failure, and in either case with its events
in order and the state it reached.

* `Act` is the type of such computations; the events of a sequence are the events of its parts, one
  after the other, and a failure ends the sequence.
* `Act.attempt` turns a failure into a value; `Act.settle` does so unless the user broke off.
* `records` and `secrets` are the events of one kind.
-/

namespace SecretForge

/-- Something a run does. -/
inductive Event where
  /-- A record is logged. -/
  | logged (record : Record)
  /-- A text is known as a secret from here on. -/
  | learned (secret : String)
  /-- A command is run. -/
  | ran (command : String)
  /-- A value is handed to the store. -/
  | offered (operation : Operation)
  /-- The store's session is ended. -/
  | loggedOut
  /-- A text is written to the output. -/
  | answered (text : String)
  /-- A text is written to the errors as it is. -/
  | told (text : String)
  deriving DecidableEq, Repr

/-- What ends a computation early: a failure that can be reported, or the user. -/
inductive Stop (ε : Type) where
  | failed (failure : ε)
  | interrupted
  deriving DecidableEq, Repr

/-- The user breaks a run off. -/
inductive Interrupted where
  | byUser
  deriving DecidableEq, Repr

/-- What a computation leaves behind. -/
structure Outcome (σ ε α : Type) where
  result : Except ε α
  events : List Event
  state : σ

/-- A computation over a state `σ` with failures `ε` and values `α`. -/
def Act (σ ε α : Type) : Type := σ → Outcome σ ε α

namespace Act

variable {σ ε δ α β : Type}

/-- The computation that does nothing and ends with a value. -/
def pure (a : α) : Act σ ε α := fun s => ⟨.ok a, [], s⟩

def fail (e : ε) : Act σ ε α := fun s => ⟨.error e, [], s⟩

/-- One computation after another; a failure of the first is the failure of both. -/
def bind (x : Act σ ε α) (f : α → Act σ ε β) : Act σ ε β := fun s =>
  match x s with
  | ⟨.ok a, es, t⟩ =>
    match f a t with
    | ⟨r, fs, u⟩ => ⟨r, es ++ fs, u⟩
  | ⟨.error e, es, t⟩ => ⟨.error e, es, t⟩

instance : Monad (Act σ ε) where
  pure := pure
  bind := bind

def get : Act σ ε σ := fun s => ⟨.ok s, [], s⟩

def set (s : σ) : Act σ ε Unit := fun _ => ⟨.ok (), [], s⟩

def modify (f : σ → σ) : Act σ ε Unit := fun s => ⟨.ok (), [], f s⟩

def emit (e : Event) : Act σ ε Unit := fun s => ⟨.ok (), [e], s⟩

/-- A record of a level from a part of the tool. -/
def log (level : Level) (origin : Origin) (message : String) : Act σ ε Unit :=
  emit (.logged ⟨level, origin, message⟩)

/-- The computation with its failure as a value. -/
def attempt (x : Act σ ε α) : Act σ δ (Except ε α) := fun s =>
  match x s with
  | ⟨r, es, t⟩ => ⟨.ok r, es, t⟩

/-- The computation with a failure that can be reported as a value. -/
def settle (x : Act σ (Stop ε) α) : Act σ Interrupted (Except ε α) := fun s =>
  match x s with
  | ⟨.ok a, es, t⟩ => ⟨.ok (.ok a), es, t⟩
  | ⟨.error (.failed e), es, t⟩ => ⟨.ok (.error e), es, t⟩
  | ⟨.error .interrupted, es, t⟩ => ⟨.error .byUser, es, t⟩

/-- A value or a failure as a computation. -/
def ofExcept : Except ε α → Act σ ε α
  | .ok a => pure a
  | .error e => fail e

/-- The computation on a part of a larger state. -/
def within {τ : Type} (part : τ → σ) (put : σ → τ → τ) (x : Act σ ε α) : Act τ ε α := fun t =>
  match x (part t) with
  | ⟨r, es, s⟩ => ⟨r, es, put s t⟩

end Act

def records (es : List Event) : List Record :=
  es.filterMap fun
    | .logged r => some r
    | _ => none

/-- The texts that the events make known as secrets. -/
def secrets (es : List Event) : List String :=
  es.filterMap fun
    | .learned s => some s
    | _ => none

end SecretForge
