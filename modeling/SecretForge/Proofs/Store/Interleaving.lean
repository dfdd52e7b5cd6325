import Mathlib.Logic.Function.Basic
import SecretForge.Proofs.Store.Refinement
import SecretForge.Proofs.Store.Slot

/-!
# Several stores on one server

Stores of one project take turns on one server, each turn a whole operation.  A store reads the document
of an item once and keeps it, so what it adds later is built on what it added itself, and not on what
the others have added in the meantime.

* `Stores`, `Shared`, `turn`, `interleave` — the stores, their sessions on the server, and their turns.
* `inView` — the document that a store has in view: the one it added to the item last, or the latest one
  as long as it has added none.
* `Merges` — the versions that plain stores add when each works on what it has in view.
* `Tracks` — what keeps the two together; **`turn_tracks`** — every turn preserves it.
* `merges_shows` — which of the values set are in the latest document in the end.
* **`interleaved_updates`** — the versions after any turns, and the values that they keep.
-/

namespace SecretForge.Versioned

open Act Server Document

variable {W : Type}

/-! ### Stores that take turns -/

structure Stores (W : Type) where
  project : String
  credentials : W → Option String
  announces : W → Bool

/-- The sessions of the stores, and the server that they share. -/
structure Shared (W : Type) where
  sessions : W → Session
  server : Server

def Stores.settings (p : Stores W) (w : W) : Settings := ⟨p.project, p.credentials w, p.announces w⟩

def Stores.secret (p : Stores W) (item : String) : String := secretId ⟨p.project, none, true⟩ item

def Shared.opened (server : Server) : Shared W := ⟨fun _ => {}, server⟩

/-- The state as one of the stores sees it. -/
def Shared.state (w : W) (s : Shared W) : State := ⟨s.sessions w, s.server⟩

variable {p : Stores W} {s t : Shared W} {w : W} {item : String}

theorem secretId_settings (p : Stores W) (w : W) (item : String) :
    secretId (p.settings w) item = p.secret item := rfl

theorem secret_injective (p : Stores W) : p.secret.Injective := secretId_injective _

/-- The assignments to one secret, each with the store that made it. -/
def Stores.turnsTo (p : Stores W) (id : String) (turns : List (W × Operation)) :
    List (W × Assignment) :=
  (turns.filter fun t => p.secret t.2.item = id).map fun t => (t.1, t.2.assignment)

theorem turnsTo_cons_self (p : Stores W) (w : W) (op : Operation) (turns : List (W × Operation)) :
    p.turnsTo (p.secret op.item) ((w, op) :: turns)
      = (w, op.assignment) :: p.turnsTo (p.secret op.item) turns := by
  rw [Stores.turnsTo, List.filter_cons, if_pos (decide_eq_true rfl), List.map_cons]
  rfl

theorem turnsTo_cons_of_ne {id : String} {op : Operation} (h : id ≠ p.secret op.item) (w : W)
    (turns : List (W × Operation)) : p.turnsTo id ((w, op) :: turns) = p.turnsTo id turns := by
  rw [Stores.turnsTo, List.filter_cons, decide_eq_false (Ne.symm h)]
  rfl

theorem turnsTo_append (p : Stores W) (id : String) (early later : List (W × Operation)) :
    p.turnsTo id (early ++ later) = p.turnsTo id early ++ p.turnsTo id later := by
  rw [Stores.turnsTo, List.filter_append, List.map_append]
  rfl

/-- The assignments to the secret of an item are those to the item. -/
theorem turnsTo_secret (p : Stores W) (item : String) (turns : List (W × Operation)) :
    p.turnsTo (p.secret item) turns
      = (turns.filter fun t => t.2.item = item).map fun t => (t.1, t.2.assignment) := by
  simp only [Stores.turnsTo, (secret_injective p).eq_iff]

section

variable [DecidableEq W]

/-- The state after one of the stores has changed what it sees. -/
def Shared.put (w : W) (t : State) (s : Shared W) : Shared W :=
  ⟨Function.update s.sessions w t.session, t.server⟩

def turn (p : Stores W) (w : W) (op : Operation) : Act (Shared W) (Stop StoreFailure) Unit :=
  ((store (p.settings w)).within (Shared.state w) (Shared.put w)).apply op

/-- The turns one after the other, whether or not each is done: those that were, in order, and the state
reached. -/
def interleave (p : Stores W) : List (W × Operation) → Shared W → List (W × Operation) × Shared W
  | [], s => ([], s)
  | (w, op) :: turns, s =>
    let o := turn p w op s
    let (done, t) := interleave p turns o.state
    match o.result with
    | .ok () => ((w, op) :: done, t)
    | .error _ => (done, t)

theorem turn_run (p : Stores W) (w : W) (op : Operation) (s : Shared W) :
    turn p w op s = ⟨(apply (p.settings w) op (s.state w)).result,
      (apply (p.settings w) op (s.state w)).events,
      s.put w (apply (p.settings w) op (s.state w)).state⟩ := rfl

theorem put_sessions (s : Shared W) (u : State) (w w' : W) :
    (s.put w u).sessions w' = if w' = w then u.session else s.sessions w' :=
  Function.update_apply ..

/-- What the sessions keep after one of them keeps another document of one item. -/
theorem find?_put {now : Option Document} {u : State}
    (h : Changed item now (s.sessions w) u.session) (w' : W) (key : String) :
    ((s.put w u).sessions w').find? key
      = if w' = w ∧ key = item then now else (s.sessions w').find? key := by
  rw [put_sessions]
  by_cases hw : w' = w
  · rw [if_pos hw, h, hw]
    simp only [true_and]
  · rw [if_neg hw, if_neg fun h => hw h.1]

/-- What the sessions keep after one of them keeps what it kept. -/
theorem find?_put_of_kept {u : State} (h : u.session.kept = (s.sessions w).kept) (w' : W) :
    ((s.put w u).sessions w').find? = (s.sessions w').find? := by
  rw [put_sessions]
  split
  · next hw => rw [find?_of_kept h, hw]
  · rfl

end

/-! ### Documents in view -/

/-- The document that a store has in view, where it added the given version last. -/
def inView (versions : List (List UInt8)) : Option (List UInt8) → Except DocumentFault Document
  | none => latest versions
  | some version => Document.read version

theorem writable_inView {versions : List (List UInt8)} {own : Option (List UInt8)} {d : Document}
    (h : inView versions own = .ok d) : Json.Everywhere Json.Writable (.object d) := by
  cases own with
  | none => exact writable_latest h
  | some version => exact read_writable h

/-- The document holds the value of the assignment. -/
def Shows (a : Assignment) (r : Except DocumentFault Document) : Prop :=
  ∃ d v, r = .ok d ∧ inSlot? d a.slot = some v ∧ a.Holds v

section

variable {a b : Assignment} {before after : Document} {versions : List (List UInt8)} {v : List UInt8}

theorem latest_concat : latest (versions ++ [v]) = Document.read v := by
  rw [latest, List.getLast?_concat]

theorem shows_of_sets (hread : Document.read v = .ok after) (hsets : Sets a before after) :
    Shows a (Document.read v) := by
  obtain ⟨x, hx, hholds⟩ := hsets.exists_inSlot?
  exact ⟨after, x, hread, hx, hholds⟩

/-- A value that is in view is in the version that is added for another slot. -/
theorem Shows.of_sets {o : Option (List UInt8)} (h : Shows a (inView versions o))
    (hview : inView versions o = .ok before) (hread : Document.read v = .ok after)
    (hsets : Sets b before after) (hne : a.slot ≠ b.slot) : Shows a (Document.read v) := by
  obtain ⟨d, x, hd, hx, hholds⟩ := h
  cases hview.symm.trans hd
  have halike := hsets.alike_inSlot? (writable_inView hview) (read_writable hread) hne
  rw [hx] at halike
  exact ⟨after, x, hread, eq_some_of_alike hholds halike, hholds⟩

variable [DecidableEq W] {own : W → Option (List UInt8)}

/-- The new versions are those that plain stores add for the assignments, one for each, in order: the
document that the store has in view with the value set in it. -/
def Merges : List (List UInt8) → (W → Option (List UInt8)) → List (W × Assignment) →
    List (List UInt8) → Prop
  | _, _, [], [] => True
  | versions, own, (w, a) :: turns, v :: vs =>
    (∃ before after, inView versions (own w) = .ok before ∧ Document.read v = .ok after
      ∧ Sets a before after) ∧ Merges (versions ++ [v]) (Function.update own w (some v)) turns vs
  | _, _, _, _ => False

/-- **A value that every store has in view stays in the latest document**, as long as its slot is not
set. -/
theorem merges_everywhere {turns : List (W × Assignment)} {new : List (List UInt8)}
    (h : Merges versions own turns new) (hne : ∀ t ∈ turns, a.slot ≠ t.2.slot)
    (hlatest : Shows a (latest versions)) (hown : ∀ w, Shows a (inView versions (own w))) :
    Shows a (latest (versions ++ new)) := by
  induction turns generalizing versions own new with
  | nil =>
    cases new with
    | nil => rwa [List.append_nil]
    | cons => exact h.elim
  | cons t turns ih =>
    obtain ⟨w, b⟩ := t
    rw [List.forall_mem_cons] at hne
    cases new with
    | nil => exact h.elim
    | cons v new =>
      obtain ⟨⟨before, after, hview, hread, hsets⟩, hrest⟩ := h
      have hv := (hown w).of_sets hview hread hsets hne.1
      rw [List.append_cons]
      refine ih hrest hne.2 (by rwa [latest_concat]) fun w' => ?_
      by_cases hw : w' = w
      · rwa [hw, Function.update_self]
      · rw [Function.update_of_ne hw]
        -- what a store added last it has in view still, and the rest have the latest document
        cases ho : own w' with
        | none => rwa [inView, latest_concat]
        | some version =>
          have hw' := hown w'
          rwa [ho] at hw'

/-- **A value that one store has in view is in the latest document after its next turn**, as long as the
slot is not set: here the last turn is one of its. -/
theorem merges_own {turns : List (W × Assignment)} {new : List (List UInt8)} {w : W}
    {version : List UInt8} (h : Merges versions own turns new)
    (hne : ∀ t ∈ turns, a.slot ≠ t.2.slot) (hown : own w = some version)
    (hshows : Shows a (Document.read version)) (hlast : ∀ t ∈ turns.getLast?, t.1 = w)
    (hlatest : turns = [] → latest versions = Document.read version) :
    Shows a (latest (versions ++ new)) := by
  induction turns generalizing versions own new version with
  | nil =>
    cases new with
    | nil => rwa [List.append_nil, hlatest rfl]
    | cons => exact h.elim
  | cons t turns ih =>
    obtain ⟨w', b⟩ := t
    rw [List.forall_mem_cons] at hne
    cases new with
    | nil => exact h.elim
    | cons v new =>
      obtain ⟨⟨before, after, hview, hread, hsets⟩, hrest⟩ := h
      have hlast' : ∀ t ∈ turns.getLast?, t.1 = w := fun t ht =>
        hlast t (List.mem_getLast?_cons ht)
      rw [List.append_cons]
      by_cases hw : w' = w
      · rw [hw, hown] at hview
        rw [hw] at hrest
        have hinView : Shows a (inView versions (some version)) := hshows
        exact ih hrest hne.2 (Function.update_self ..) (hinView.of_sets hview hread hsets hne.1) hlast'
          fun _ => latest_concat
      · refine ih hrest hne.2 (by rw [Function.update_of_ne (Ne.symm hw), hown]) hshows hlast'
          fun hnil => ?_
        rw [hnil] at hlast
        exact absurd (hlast _ rfl) hw

/-- The versions added before an assignment, its own, and those added after it. -/
theorem Merges.exists_split {early later : List (W × Assignment)} {w : W}
    {new : List (List UInt8)} (h : Merges versions own (early ++ (w, a) :: later) new) :
    ∃ front v back own', new = front ++ v :: back
      ∧ (∀ w', (∀ t ∈ early, t.1 ≠ w') → own' w' = own w')
      ∧ Merges (versions ++ front) own' ((w, a) :: later) (v :: back) := by
  induction early generalizing versions own new with
  | nil =>
    cases new with
    | nil => exact h.elim
    | cons v back => exact ⟨[], v, back, own, rfl, fun _ _ => rfl, by rwa [List.append_nil]⟩
  | cons t early ih =>
    obtain ⟨w₁, b⟩ := t
    cases new with
    | nil => exact h.elim
    | cons v₁ new =>
      obtain ⟨front, v, back, own', rfl, hown, hmerges⟩ := ih h.2
      refine ⟨v₁ :: front, v, back, own', rfl, fun w' hw' => ?_, by rwa [List.append_cons]⟩
      rw [List.forall_mem_cons] at hw'
      rw [hown w' hw'.2, Function.update_of_ne (Ne.symm hw'.1)]

/-- **Which values are in the latest document in the end**, of stores that had added nothing before.  A
value whose slot is not set again is there if the store that set it had the last turn, or if no other
store had had a turn before. -/
theorem merges_shows {early later : List (W × Assignment)} {w : W} {new : List (List UInt8)}
    (h : Merges versions (fun _ => none) (early ++ (w, a) :: later) new)
    (hne : ∀ t ∈ later, a.slot ≠ t.2.slot)
    (hview : (∀ t ∈ later.getLast?, t.1 = w) ∨ ∀ t ∈ early, t.1 = w) :
    Shows a (latest (versions ++ new)) := by
  obtain ⟨front, v, back, own', rfl, hown, ⟨before, after, -, hread, hsets⟩, hrest⟩ :=
    h.exists_split
  have hv := shows_of_sets hread hsets
  rw [List.append_cons, ← List.append_assoc, ← List.append_assoc]
  rcases hview with hlast | hearly
  · exact merges_own hrest hne (Function.update_self ..) hv hlast fun _ => latest_concat
  · refine merges_everywhere hrest hne (by rwa [latest_concat]) fun w' => ?_
    by_cases hw : w' = w
    · rwa [hw, Function.update_self]
    · rw [Function.update_of_ne hw, hown w' fun t ht => hearly t ht ▸ Ne.symm hw, inView,
        latest_concat]
      exact hv

end

/-! ### Item documents -/

/-- No number in the document is a double, and every section of it that is an object at first is
one. -/
structure ItemDocument (d : Document) : Prop where
  floatFree : Json.FloatFree (.object d)
  objects : ∀ key es, Json.find? key sections = some (.object es) →
    ∃ fs, held? d key = some (.object fs)

/-- What is alike to an object is one. -/
theorem exists_object_of_alike {x : Option Json} {es : List (CodePoints × Json)}
    (h : Alike (some (.object es)) x) : ∃ fs, x = some (.object fs) := by
  rw [Alike, Option.map_some, eq_comm, Option.map_eq_some_iff] at h
  obtain ⟨v, rfl, hv⟩ := h
  obtain ⟨fs, rfl, -⟩ := exists_object_of_sorted hv
  exact ⟨fs, rfl⟩

variable {a : Assignment} {before after d : Document}

/-- **A value set in an item document leaves one.** -/
theorem ItemDocument.of_sets (h : ItemDocument before) (hsets : Sets a before after)
    (hafter : Json.FloatFree (.object after)) : ItemDocument after := by
  refine ⟨hafter, fun key es hkey => ?_⟩
  obtain ⟨fs, hfind⟩ : ∃ fs, Json.find? key after = some (.object fs) := by
    by_cases hpart : key = codePoints a.part
    · -- the password and the notes are texts at first
      obtain ⟨name, hname⟩ : ∃ name, a.name? = some name := by
        rw [hpart] at hkey
        cases a with
        | field | attachment => exact ⟨_, rfl⟩
        | password | notes =>
          simp [sections, Json.find?, Assignment.part, codePoints_injective.eq_iff,
            Json.ofString] at hkey
      have hown := hsets.own
      rw [hname] at hown
      obtain ⟨-, fs, -, -, hfs, -⟩ := hown
      exact ⟨fs, hpart ▸ hfs⟩
    · obtain ⟨fs, hfs⟩ := h.objects key es hkey
      have halike := hsets.others key hpart
      rw [hfs] at halike
      exact exists_object_of_alike halike
  exact ⟨fs, by rw [held?, hfind, Option.some_or]⟩

/-- **A mirror of an item document takes every value.** -/
theorem ItemDocument.exists_assign (h : ItemDocument before) (hm : Mirrors before d)
    (a : Assignment) : ∃ d', d.assign a = .ok d' := by
  have hobject : ∀ part, (∃ es, Json.find? (codePoints part) sections = some (.object es)) →
      ∃ es, Json.find? (codePoints part) d = some (.object es) := by
    rintro part ⟨es, hes⟩
    obtain ⟨fs, hfs⟩ := h.objects _ es hes
    have halike := hm.alike (codePoints part)
    rw [hfs] at halike
    exact exists_object_of_alike halike
  cases a with
  | password | notes => exact ⟨_, rfl⟩
  | field name value =>
    obtain ⟨es, hes⟩ := hobject "fields"
      ⟨[], find?_sections_part (a := .field name value) rfl⟩
    exact ⟨_, by rw [assign, putIn, hes]; rfl⟩
  | attachment name value =>
    obtain ⟨es, hes⟩ := hobject "attachments"
      ⟨[], find?_sections_part (a := .attachment name value) rfl⟩
    exact ⟨_, by rw [assign, putIn, hes]; rfl⟩

/-! ### What a turn changes -/

/-- There are no faults, the latest documents are item documents, and the documents that the sessions
keep mirror the versions that their stores added last. -/
structure Tracks (p : Stores W) (own : String → W → Option (List UInt8)) (s : Shared W) : Prop where
  plan : s.server.plan = []
  documents : ∀ id d, latest (s.server.versionsOf id) = .ok d → ItemDocument d
  unkept : ∀ w item, (s.sessions w).find? item = none → own (p.secret item) w = none
  kept : ∀ w item d, (s.sessions w).find? item = some d →
    s.server.versionsOf (p.secret item) ≠ [] ∧ ∃ version before,
      own (p.secret item) w = some version ∧ Document.read version = .ok before
        ∧ ItemDocument before ∧ Mirrors before d

variable {own : String → W → Option (List UInt8)}

theorem tracks_opened {server : Server} (hplan : server.plan = [])
    (hdocuments : ∀ id d, latest (server.versionsOf id) = .ok d → ItemDocument d) :
    Tracks p (fun _ _ => none) (.opened server) :=
  ⟨hplan, hdocuments, fun _ _ _ => rfl, fun _ _ _ h => nomatch h⟩

theorem Tracks.of_same (h : Tracks p own s) (hserver : Server.Same s.server t.server)
    (hfind : ∀ w item, (t.sessions w).find? item = (s.sessions w).find? item) :
    Tracks p own t := by
  refine ⟨hserver.plan.trans h.plan, fun id d hd => h.documents id d (hserver.versions id ▸ hd),
    fun w item hnone => h.unkept w item (hfind w item ▸ hnone), fun w item d hd => ?_⟩
  rw [hserver.versions]
  exact h.kept w item d (hfind w item ▸ hd)

theorem Tracks.hidesNothing (h : Tracks p own s) : s.server.HidesNothing := fun f hf => by
  rw [h.plan] at hf
  cases hf

/-- **What an operation works on mirrors what its store has in view.** -/
theorem Tracks.mirrors {d : Document} (h : Tracks p own s)
    (hworks : Works (p.settings w) item (s.state w) d) :
    ∃ before, inView (s.server.versionsOf (p.secret item)) (own (p.secret item) w) = .ok before
      ∧ ItemDocument before ∧ Mirrors before d := by
  rcases hworks with hkept | ⟨hnone, e, hstored, rfl⟩
  · obtain ⟨-, version, before, hown, hread, hdocument, hm⟩ := h.kept w item d hkept
    exact ⟨before, by rw [hown]; exact hread, hdocument, hm⟩
  · have hlatest := stored_ok (s := s.state w) h.hidesNothing hstored
    rw [secretId_settings] at hlatest
    have hdocument := h.documents _ e hlatest
    refine ⟨e, by rw [h.unkept w item hnone]; exact hlatest, hdocument, mirrors_complete ?_⟩
    exact Json.exact_of_floatFree (writable_latest hlatest) hdocument.floatFree

variable [DecidableEq W]

/-- The versions that the stores added last to each secret, with one more. -/
def added (own : String → W → Option (List UInt8)) (id : String) (w : W) (version : List UInt8) :
    String → W → Option (List UInt8) :=
  Function.update own id (Function.update (own id) w (some version))

theorem added_self (own : String → W → Option (List UInt8)) (id : String) (w : W)
    (version : List UInt8) :
    added own id w version id = Function.update (own id) w (some version) := Function.update_self ..

theorem added_of_ne {id key : String} {w' : W} {version : List UInt8} (h : ¬ (w' = w ∧ key = id)) :
    added own id w version key w' = own key w' := by
  by_cases hkey : key = id
  · rw [hkey, added_self, Function.update_of_ne fun hw => h ⟨hw, hkey⟩]
  · rw [added, Function.update_of_ne hkey]

/-- A document kept for an item and added as a version of its secret. -/
theorem Tracks.add {u : State} {a : Assignment} {before d d' : Document} (h : Tracks p own s)
    (hdocument : ItemDocument before) (hm : Mirrors before d) (hd : d.assign a = .ok d')
    (hplan : u.server.plan = s.server.plan)
    (hversions : ∀ id, u.server.versionsOf id
      = if id = p.secret item then s.server.versionsOf id ++ [d'.write] else s.server.versionsOf id)
    (hsession : Changed item (some d') (s.sessions w) u.session) :
    Tracks p (added own (p.secret item) w d'.write) (s.put w u) := by
  have hexact := exact_assign hm.exact_kept hd
  have hnew : ItemDocument (Json.sortedEntries d') :=
    hdocument.of_sets (sets_of_assign hm hd) (Json.floatFree_of_exact (Json.exact_sorted _ hexact))
  have hsecret : ∀ {w' key}, ¬ (w' = w ∧ key = item) → ¬ (w' = w ∧ p.secret key = p.secret item) :=
    fun h h' => h ⟨h'.1, secret_injective p h'.2⟩
  refine ⟨hplan.trans h.plan, fun id e he => ?_, fun w' key hnone => ?_, fun w' key e he => ?_⟩
  · by_cases hid : id = p.secret item
    · rw [hid] at he
      cases (latest_added hexact hversions).symm.trans he
      exact hnew
    · change latest (u.server.versionsOf id) = .ok e at he
      rw [hversions, if_neg hid] at he
      exact h.documents id e he
  · rw [find?_put hsession] at hnone
    split at hnone
    · cases hnone
    · next hne =>
      rw [added_of_ne (hsecret hne)]
      exact h.unkept w' key hnone
  · rw [find?_put hsession] at he
    change u.server.versionsOf (p.secret key) ≠ [] ∧ _
    rw [hversions]
    split at he
    · next heq =>
      obtain ⟨rfl, rfl⟩ := heq
      cases he
      rw [if_pos rfl, added_self, Function.update_self]
      exact ⟨List.concat_ne_nil _ _, _, _, rfl, read_write hexact, hnew, mirrors_assign hm hd⟩
    · next hne =>
      rw [added_of_ne (hsecret hne)]
      obtain ⟨hversions, hrest⟩ := h.kept w' key e he
      refine ⟨?_, hrest⟩
      split
      · exact List.append_ne_nil_of_left_ne_nil hversions _
      · exact hversions

/-- **What a turn does.**  Either it adds a version of its item's secret, which holds what the store had
in view with the value set in it, or it fails and no version changes. -/
theorem turn_tracks (h : Tracks p own s) (w : W) (op : Operation) :
    (∃ v before after, (turn p w op s).result = .ok ()
        ∧ inView (s.server.versionsOf (p.secret op.item)) (own (p.secret op.item) w) = .ok before
        ∧ Document.read v = .ok after ∧ Sets op.assignment before after
        ∧ (∀ id, (turn p w op s).state.server.versionsOf id
          = if id = p.secret op.item then s.server.versionsOf id ++ [v] else s.server.versionsOf id)
        ∧ Tracks p (added own (p.secret op.item) w v) (turn p w op s).state)
      ∨ (∃ f, (turn p w op s).result = .error f)
        ∧ (∀ id, (turn p w op s).state.server.versionsOf id = s.server.versionsOf id)
        ∧ Tracks p own (turn p w op s).state := by
  rw [turn_run]
  have hends := apply_ends (p.settings w) op (s.state w)
  generalize (apply (p.settings w) op (s.state w)).result = r at hends
  generalize (apply (p.settings w) op (s.state w)).state = u at hends
  cases hends with
  | unread hstill =>
    refine .inr ⟨⟨_, rfl⟩, hstill.server.versions, h.of_same hstill.server fun w' key => ?_⟩
    rw [find?_put_of_kept hstill.kept]
  | unfit hworks hd _ _ _ =>
    obtain ⟨before, -, hdocument, hm⟩ := h.mirrors hworks
    obtain ⟨d', hd'⟩ := hdocument.exists_assign hm op.assignment
    cases hd.symm.trans hd'
  | done hworks hd hplan hversions hsession =>
    obtain ⟨before, hview, hdocument, hm⟩ := h.mirrors hworks
    exact .inl ⟨_, before, _, rfl, hview, read_write (exact_assign hm.exact_kept hd),
      sets_of_assign hm hd, hversions, h.add hdocument hm hd hplan hversions hsession⟩
  | refused _ _ hserver hmissing hsession =>
    refine .inr ⟨⟨_, rfl⟩, hserver.versions, h.of_same hserver fun w' key => ?_⟩
    -- a secret that has no version is kept in no session
    rw [find?_put hsession]
    split
    · next heq =>
      cases hkept : (s.sessions w').find? key with
      | none => rfl
      | some d => exact absurd (heq.2 ▸ hmissing h.plan) (h.kept w' key d hkept).1
    · rfl
  | broken _ _ _ hplanned _ _ =>
    obtain ⟨f, hf, -⟩ := hplanned
    change f ∈ s.server.plan at hf
    rw [h.plan] at hf
    cases hf

/-! ### Turns one after the other -/

/-- The versions of a secret after some turns are those that plain stores add, each working on what it
has in view. -/
theorem interleave_merges (turns : List (W × Operation)) (s : Shared W)
    (own : String → W → Option (List UInt8)) (h : Tracks p own s) (id : String) :
    ∃ new, (interleave p turns s).2.server.versionsOf id = s.server.versionsOf id ++ new
      ∧ Merges (s.server.versionsOf id) (own id) (p.turnsTo id (interleave p turns s).1) new := by
  induction turns generalizing s own with
  | nil => exact ⟨[], (List.append_nil _).symm, trivial⟩
  | cons first turns ih =>
    obtain ⟨w, op⟩ := first
    rw [interleave]
    rcases turn_tracks h w op
      with ⟨v, before, after, hresult, hview, hread, hsets, hversions, htracks⟩
        | ⟨⟨f, hresult⟩, hversions, htracks⟩
    · obtain ⟨new, hnew, hmerges⟩ := ih _ _ htracks
      simp only [hresult]
      rw [hversions] at hnew hmerges
      by_cases hid : id = p.secret op.item
      · subst hid
        rw [if_pos rfl, added_self] at hmerges
        rw [if_pos rfl] at hnew
        rw [turnsTo_cons_self]
        exact ⟨v :: new, by rw [hnew, List.append_assoc, List.singleton_append],
          ⟨before, after, hview, hread, hsets⟩, hmerges⟩
      · rw [if_neg hid, added, Function.update_of_ne hid] at hmerges
        rw [if_neg hid] at hnew
        rw [turnsTo_cons_of_ne hid]
        exact ⟨new, hnew, hmerges⟩
    · obtain ⟨new, hnew, hmerges⟩ := ih _ _ htracks
      simp only [hresult]
      rw [hversions] at hnew hmerges
      exact ⟨new, hnew, hmerges⟩

/-- **What stores that take turns leave on the server.**  Each turn that is done adds a version with the
document that its store has in view and the value set in it.  In the end the latest document of an item
holds every value that was set and whose slot was not set again, provided that the store that set it
had the last turn on the item, or that no other store had had a turn on the item before. -/
theorem interleaved_updates (p : Stores W) (server : Server) (turns : List (W × Operation))
    (hplan : server.plan = [])
    (hdocuments : ∀ id d, latest (server.versionsOf id) = .ok d → ItemDocument d) :
    let done := (interleave p turns (.opened server)).1
    let final := (interleave p turns (.opened server)).2.server
    (∀ id, ∃ new, final.versionsOf id = server.versionsOf id ++ new
        ∧ Merges (server.versionsOf id) (fun _ => none) (p.turnsTo id done) new)
      ∧ ∀ early w op later, done = early ++ (w, op) :: later →
        (∀ t ∈ later, t.2.item = op.item → t.2.assignment.slot ≠ op.assignment.slot) →
        (∀ t ∈ (later.filter fun t => t.2.item = op.item).getLast?, t.1 = w)
          ∨ (∀ t ∈ early, t.2.item = op.item → t.1 = w) →
        Shows op.assignment (latest (final.versionsOf (p.secret op.item))) := by
  intro done final
  have hmerges : ∀ id, ∃ new, final.versionsOf id = server.versionsOf id ++ new
      ∧ Merges (server.versionsOf id) (fun _ => none) (p.turnsTo id done) new := fun id =>
    interleave_merges turns _ _ (tracks_opened hplan hdocuments) id
  refine ⟨hmerges, fun early w op later hdone hne hview => ?_⟩
  obtain ⟨new, hnew, hadded⟩ := hmerges (p.secret op.item)
  rw [hdone, turnsTo_append, turnsTo_cons_self, turnsTo_secret, turnsTo_secret] at hadded
  rw [hnew]
  refine merges_shows hadded (fun t ht => ?_) (hview.imp (fun hlast t ht => ?_) fun hearly t ht => ?_)
  · obtain ⟨u, hu, rfl⟩ := List.mem_map.mp ht
    obtain ⟨hu, hitem⟩ := List.mem_filter.mp hu
    exact Ne.symm (hne u hu (of_decide_eq_true hitem))
  · rw [List.getLast?_map, Option.mem_map] at ht
    obtain ⟨u, hu, rfl⟩ := ht
    exact hlast u hu
  · obtain ⟨u, hu, rfl⟩ := List.mem_map.mp ht
    obtain ⟨hu, hitem⟩ := List.mem_filter.mp hu
    exact hearly u hu (of_decide_eq_true hitem)

/-! ### Two stores -/

def pair : Stores Bool := ⟨"p", fun _ => none, fun _ => true⟩

def quietServer : Server where
  secrets := [("a", [[0x7b, 0x7d]])]

def separateTurns : List (Bool × Operation) :=
  [(false, ⟨"a", .notes "1"⟩), (true, ⟨"a", .password [0x70]⟩)]

/-- The first store sets the notes again. -/
def overwritingTurns : List (Bool × Operation) := separateTurns ++ [(false, ⟨"a", .notes "2"⟩)]

theorem itemDocument_quietServer (id : String) (d : Document)
    (h : latest (quietServer.versionsOf id) = .ok d) : ItemDocument d := by
  cases (latest_of_empty rfl id).symm.trans h
  exact ⟨⟨rfl, trivial⟩, fun key es hes => ⟨es, hes⟩⟩

/-- All the turns are done.  (One evaluation for both runs, which share most of their steps.) -/
theorem turns_done :
    (interleave pair separateTurns (.opened quietServer)).1 = separateTurns
      ∧ (interleave pair separateTurns (.opened quietServer)).2.server.versionsOf (pair.secret "a")
        = [[0x7b, 0x7d], write (texts "" "1"), write (texts "p" "1")]
      ∧ (interleave pair overwritingTurns (.opened quietServer)).1 = overwritingTurns
      ∧ (interleave pair overwritingTurns (.opened quietServer)).2.server.versionsOf
          (pair.secret "a")
        = [[0x7b, 0x7d], write (texts "" "1"), write (texts "p" "1"), write (texts "" "2")] := by
  decide +kernel

/-- The notes that were set before the second store had a turn are there after it. -/
theorem interleaved_updates_separate :
    quietServer.plan = []
      ∧ (∀ id d, latest (quietServer.versionsOf id) = .ok d → ItemDocument d)
      ∧ (interleave pair separateTurns (.opened quietServer)).1 = separateTurns
      ∧ Shows (.notes "1") (latest ((interleave pair separateTurns
        (.opened quietServer)).2.server.versionsOf (pair.secret "a"))) := by
  obtain ⟨-, hshows⟩ := interleaved_updates pair quietServer separateTurns rfl
    itemDocument_quietServer
  refine ⟨rfl, itemDocument_quietServer, turns_done.1, ?_⟩
  refine hshows [] false ⟨"a", .notes "1"⟩ [(true, ⟨"a", .password [0x70]⟩)] turns_done.1
    (fun t ht _ => ?_) (.inr fun t ht => nomatch ht)
  rw [List.mem_singleton.mp ht]
  decide

/-- **An update can be lost between two stores.**  The first store sets the notes, the second one the
password, and the first one the notes again.  The last turn does not add what was latest before it with
the notes set in it, and the password, which was not set again, is not in the latest document. -/
theorem overwritten_update :
    quietServer.plan = []
      ∧ (∀ id d, latest (quietServer.versionsOf id) = .ok d → ItemDocument d)
      ∧ (interleave pair overwritingTurns (.opened quietServer)).1 = overwritingTurns
      ∧ ¬ Advances (pair.settings false) ⟨"a", .notes "2"⟩
        (interleave pair separateTurns (.opened quietServer)).2.server
        (interleave pair overwritingTurns (.opened quietServer)).2.server
      ∧ ¬ Shows (.password [0x70]) (latest ((interleave pair overwritingTurns
        (.opened quietServer)).2.server.versionsOf (pair.secret "a"))) := by
  obtain ⟨-, hearlier, hdone, hfinal⟩ := turns_done
  refine ⟨rfl, itemDocument_quietServer, hdone, ?_, ?_⟩
  · rintro ⟨v, before, after, hlatest, hread, hsets, hversions⟩
    have hnew := hversions (pair.secret "a")
    rw [secretId_settings, if_pos rfl, hearlier, hfinal] at hnew
    obtain rfl : write (texts "" "2") = v := by simpa using hnew
    rw [secretId_settings, hearlier] at hlatest
    cases (read_write_texts "p" "1").symm.trans hlatest
    cases (read_write_texts "" "2").symm.trans hread
    -- the password is another one after the turn than before
    have halike := hsets.alike_inSlot? (b := .password []) (writable_of_exact (exact_texts _ _))
      (writable_of_exact (exact_texts _ _)) (by decide)
    change Alike (inSlot? (texts "p" "1") ⟨"password", none⟩)
      (inSlot? (texts "" "2") ⟨"password", none⟩) at halike
    rw [inSlot?_texts_password, inSlot?_texts_password] at halike
    cases halike
  · rintro ⟨d, v, hd, hv, hholds⟩
    rw [hfinal] at hd
    cases (read_write_texts "" "2").symm.trans hd
    change inSlot? (texts "" "2") ⟨"password", none⟩ = some v at hv
    rw [inSlot?_texts_password, hholds] at hv
    have hvalue : Text.Utf8.decodeReplacing [0x70] = "p" := by decide +kernel
    rw [hvalue] at hv
    cases hv

end SecretForge.Versioned
