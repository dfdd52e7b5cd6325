import SecretForge.Proofs.Store.Document
import SecretForge.Proofs.Store.Operation

/-!
# The versioned store is a plain store of documents

A plain store keeps no document: each operation takes the latest version of the item's secret, sets its
value in it and adds the result as a new version.  The versioned store keeps documents across
operations, puts values into them before they are stored, and meets refusals of the server in between;
still the versions on the server are those of the plain store, for the operations that it reported as
done.

* `Grows` — the versions a plain store adds for some assignments.
* `Coherent` — what keeps the two together: each kept document mirrors the latest version of its secret.
* `apply_coherent`, `logout_coherent` — every step preserves it and advances the versions of one secret
  at most.
* **`run_refines_plain_store`** — the versions after any steps.
-/

namespace SecretForge.Versioned

open Act Server Document

/-! ### The plain store -/

/-- The new versions are those that a plain store adds for the assignments: one for each, in order,
holding the latest document with the value set in it. -/
def Grows : List (List UInt8) → List Assignment → List (List UInt8) → Prop
  | _, [], [] => True
  | versions, a :: as, v :: vs =>
    (∃ before after, latest versions = .ok before ∧ Document.read v = .ok after
      ∧ Sets a before after) ∧ Grows (versions ++ [v]) as vs
  | _, _, _ => False

def FloatFree (server : Server) : Prop :=
  ∀ id, ∀ v ∈ server.versionsOf id, ∀ d, Document.read v = .ok d → Json.FloatFree (.object d)

/-! ### Steps and runs -/

/-- What is asked of a store in a session, and after it. -/
inductive Step where
  | set (op : Operation)
  | logout
  deriving DecidableEq, Repr

variable (settings : Settings)

def perform : Step → Act State (Stop StoreFailure) Unit
  | .set op => apply settings op
  | .logout => logout

/-- The operation of a step that was done. -/
def Step.accepted : Step → Except (Stop StoreFailure) Unit → List Operation
  | .set op, .ok () => [op]
  | _, _ => []

/-- The steps one after the other, whether or not each is done: the operations that were, in order, and
the state reached. -/
def run : List Step → State → List Operation × State
  | [], s => ([], s)
  | step :: steps, s =>
    let o := perform settings step s
    let (ops, t) := run steps o.state
    (step.accepted o.result ++ ops, t)

theorem run_nil (s : State) : (run settings [] s).2 = s := rfl

theorem run_set (op : Operation) (steps : List Step) (s : State) :
    (run settings (.set op :: steps) s).2 = (run settings steps (apply settings op s).state).2 := rfl

def assignmentsTo (id : String) (ops : List Operation) : List Assignment :=
  (ops.filter fun op => secretId settings op.item = id).map (·.assignment)

variable {settings}

variable {s t : State}

/-! ### Coherence -/

/-- The kept documents mirror the latest versions of their secrets. -/
structure Coherent (settings : Settings) (s : State) : Prop where
  refuses : s.server.OnlyRefuses
  floatFree : FloatFree s.server
  kept : ∀ item d, s.session.find? item = some d →
    ∃ before, latest (s.server.versionsOf (secretId settings item)) = .ok before ∧ Mirrors before d

theorem Same.floatFree {t u : Server} (h : Server.Same t u) (ht : FloatFree t) : FloatFree u :=
  fun id v hv => ht id v (h.versions id ▸ hv)

/-- A session that keeps fewer documents, with the same versions and the same plan. -/
theorem Coherent.of_subset (hs : Coherent settings s) (hserver : Server.Same s.server t.server)
    (hfind : ∀ item d, t.session.find? item = some d → s.session.find? item = some d) :
    Coherent settings t := by
  refine ⟨hserver.onlyRefuses hs.refuses, Same.floatFree hserver hs.floatFree, fun item d hd => ?_⟩
  rw [hserver.versions]
  exact hs.kept item d (hfind item d hd)

theorem Still.coherent (h : Still s t) (hs : Coherent settings s) : Coherent settings t :=
  hs.of_subset h.server fun _ _ hd => find?_of_kept h.kept ▸ hd

theorem writable_latest {versions : List (List UInt8)} {d : Document} (h : latest versions = .ok d) :
    Json.Everywhere Json.Writable (.object d) := by
  rw [latest] at h
  split at h
  · cases h
    exact ⟨⟨List.nodup_nil, fun _ h => absurd h List.not_mem_nil⟩, trivial⟩
  · exact read_writable h

theorem exact_latest {server : Server} {id : String} {d : Document} (hfree : FloatFree server)
    (h : latest (server.versionsOf id) = .ok d) : Json.Exact (.object d) := by
  refine Json.exact_of_floatFree (writable_latest h) ?_
  rw [latest] at h
  split at h
  · cases h
    exact ⟨rfl, trivial⟩
  · next v hv => exact hfree id v (List.mem_of_getLast? hv) d h

/-- The latest document of a secret after it was added. -/
theorem latest_added {server server' : Server} {id : String} {d : Document}
    (hd : Json.Exact (.object d)) (hversions : ∀ key, server'.versionsOf key
      = if key = id then server.versionsOf key ++ [d.write] else server.versionsOf key) :
    latest (server'.versionsOf id) = .ok (Json.sortedEntries d) := by
  rw [hversions, if_pos rfl, latest, List.getLast?_concat]
  exact read_write hd

/-- A version more that was written of a document without doubles. -/
theorem FloatFree.add {server server' : Server} {id : String} {d : Document} (h : FloatFree server)
    (hd : Json.Exact (.object d)) (hversions : ∀ key, server'.versionsOf key
      = if key = id then server.versionsOf key ++ [d.write] else server.versionsOf key) :
    FloatFree server' := by
  intro key v hv e he
  rw [hversions] at hv
  split at hv
  · rcases List.mem_append.mp hv with hv | hv
    · exact h key v hv e he
    · rw [List.mem_singleton.mp hv, read_write hd] at he
      cases he
      exact Json.floatFree_of_exact (Json.exact_sorted _ hd)
  · exact h key v hv e he

/-! ### Steps -/

/-- What an operation works on mirrors the latest version. -/
theorem Works.mirrors {item : String} {d : Document} (h : Works settings item s d)
    (hs : Coherent settings s) :
    ∃ before, latest (s.server.versionsOf (secretId settings item)) = .ok before
      ∧ Mirrors before d := by
  rcases h with h | ⟨-, e, h, rfl⟩
  · exact hs.kept item d h
  · have hlatest := stored_ok hs.refuses.hidesNothing h
    exact ⟨e, hlatest, mirrors_complete (exact_latest hs.floatFree hlatest)⟩

/-- A session that keeps a mirror of the latest version, with the same versions and the same plan. -/
theorem Coherent.keep {item : String} {d before : Document} (hs : Coherent settings s)
    (hlatest : latest (s.server.versionsOf (secretId settings item)) = .ok before)
    (hm : Mirrors before d) (hserver : Server.Same s.server t.server)
    (hsession : Changed item (some d) s.session t.session) : Coherent settings t := by
  refine ⟨hserver.onlyRefuses hs.refuses, Same.floatFree hserver hs.floatFree, fun key e he => ?_⟩
  rw [hsession] at he
  rw [hserver.versions]
  split at he
  · next h =>
    cases he
    rw [h]
    exact ⟨before, hlatest, hm⟩
  · exact hs.kept key e he

/-- The versions after an operation that was done: one more of the item's secret, which holds the
latest document with the value set in it. -/
def Advances (settings : Settings) (op : Operation) (s t : Server) : Prop :=
  ∃ v before after, latest (s.versionsOf (secretId settings op.item)) = .ok before
    ∧ Document.read v = .ok after ∧ Sets op.assignment before after
    ∧ ∀ id, t.versionsOf id
      = if id = secretId settings op.item then s.versionsOf id ++ [v] else s.versionsOf id

/-- A document kept for an item and added as a version of its secret. -/
theorem Coherent.add {item : String} {d before : Document} {a : Assignment} {d' : Document}
    (hp : '/' ∉ settings.project.toList) (hs : Coherent settings s) (hm : Mirrors before d)
    (hd : d.assign a = .ok d') (hplan : t.server.plan = s.server.plan)
    (hversions : ∀ id, t.server.versionsOf id
      = if id = secretId settings item then s.server.versionsOf id ++ [d'.write]
        else s.server.versionsOf id)
    (hsession : Changed item (some d') s.session t.session) : Coherent settings t := by
  have hexact := exact_assign hm.exact_kept hd
  refine ⟨?_, hs.floatFree.add hexact hversions, fun key e he => ?_⟩
  · rw [OnlyRefuses, hplan]
    exact hs.refuses
  · rw [hsession] at he
    by_cases hkey : key = item
    · rw [if_pos hkey] at he
      cases he
      rw [hkey]
      exact ⟨_, latest_added hexact hversions, mirrors_assign hm hd⟩
    · rw [if_neg hkey] at he
      rw [hversions, if_neg fun h => hkey (secretId_inj hp h)]
      exact hs.kept key e he

/-- **An operation preserves coherence**; when it is done, it has advanced the item's secret, and when
it fails, no version has changed. -/
theorem apply_coherent (hp : '/' ∉ settings.project.toList) (hs : Coherent settings s)
    (op : Operation) :
    Coherent settings (apply settings op s).state
      ∧ match (apply settings op s).result with
        | .ok () => Advances settings op s.server (apply settings op s).state.server
        | .error _ => ∀ id,
          (apply settings op s).state.server.versionsOf id = s.server.versionsOf id := by
  have hends := apply_ends settings op s
  generalize (apply settings op s).result = r at hends ⊢
  generalize (apply settings op s).state = t at hends ⊢
  cases hends with
  | unread hstill => exact ⟨hstill.coherent hs, hstill.server.versions⟩
  | unfit hworks _ hserver _ hsession =>
    obtain ⟨before, hlatest, hm⟩ := hworks.mirrors hs
    exact ⟨hs.keep hlatest hm hserver hsession, hserver.versions⟩
  | done hworks hd hplan hversions hsession =>
    obtain ⟨before, hlatest, hm⟩ := hworks.mirrors hs
    exact ⟨hs.add hp hm hd hplan hversions hsession, _, before, _, hlatest,
      read_write (exact_assign hm.exact_kept hd), sets_of_assign hm hd, hversions⟩
  | refused _ _ hserver _ hsession =>
    refine ⟨hs.of_subset hserver fun key e he => ?_, hserver.versions⟩
    rw [hsession] at he
    split at he
    · cases he
    · exact he
  | broken _ _ _ hplanned hkind _ =>
    obtain ⟨p, hp, hfault⟩ := hplanned
    obtain ⟨e, he, -⟩ := hs.refuses p hp
    exact absurd (hfault.symm.trans he) (hkind e)

theorem logout_coherent (hs : Coherent settings s) : Coherent settings (logout s).state := by
  obtain ⟨hserver, hsession | hsession⟩ := logout_cases s
  · exact hs.of_subset hserver fun _ _ hd => hsession ▸ hd
  · exact hs.of_subset hserver fun _ _ hd => nomatch (hsession ▸ hd)

/-! ### Runs -/

/-- The versions of a secret after some steps are those of a plain store that was asked for the
operations done. -/
theorem run_coherent (hp : '/' ∉ settings.project.toList) (steps : List Step) (s : State)
    (hs : Coherent settings s) (id : String) :
    ∃ new, (run settings steps s).2.server.versionsOf id = s.server.versionsOf id ++ new
      ∧ Grows (s.server.versionsOf id) (assignmentsTo settings id (run settings steps s).1) new := by
  induction steps generalizing s with
  | nil => exact ⟨[], (List.append_nil _).symm, trivial⟩
  | cons step steps ih =>
    rw [run]
    cases step with
    | logout =>
      obtain ⟨new, hnew, hgrows⟩ := ih _ (logout_coherent hs)
      rw [(logout_cases s).1.versions] at hnew hgrows
      exact ⟨new, hnew, hgrows⟩
    | set op =>
      obtain ⟨hcoherent, hstep⟩ := apply_coherent hp hs op
      obtain ⟨new, hnew, hgrows⟩ := ih _ hcoherent
      simp only [perform]
      cases hresult : (apply settings op s).result with
      | error f =>
        rw [hresult] at hstep
        rw [hstep id] at hnew hgrows
        exact ⟨new, hnew, hgrows⟩
      | ok u =>
        rw [hresult] at hstep
        obtain ⟨v, before, after, hlatest, hread, hsets, hversions⟩ := hstep
        rw [hversions] at hnew hgrows
        by_cases hid : id = secretId settings op.item
        · rw [if_pos hid] at hnew hgrows
          refine ⟨v :: new, by rw [hnew, List.append_assoc, List.singleton_append], ?_⟩
          rw [assignmentsTo, Step.accepted, List.singleton_append,
            List.filter_cons_of_pos (by rw [hid, decide_eq_true rfl]), List.map_cons]
          rw [← hid] at hlatest
          exact ⟨⟨before, after, hlatest, hread, hsets⟩, hgrows⟩
        · rw [if_neg hid] at hnew hgrows
          refine ⟨new, hnew, ?_⟩
          rw [assignmentsTo, Step.accepted, List.singleton_append,
            List.filter_cons_of_neg (by rw [decide_eq_true_iff]; exact fun h => hid h.symm)]
          exact hgrows

/-- A store that was just opened keeps nothing. -/
theorem coherent_start {server : Server} (hplan : server.OnlyRefuses) (hfloat : FloatFree server) :
    Coherent settings ⟨{}, server⟩ := ⟨hplan, hfloat, fun _ _ h => nomatch h⟩

/-- **The versioned store refines a plain store of documents.** -/
theorem run_refines_plain_store (settings : Settings) (server : Server) (steps : List Step)
    (hproject : '/' ∉ settings.project.toList) (hplan : server.OnlyRefuses)
    (hfloat : FloatFree server) :
    (∀ item item', secretId settings item = secretId settings item' → item = item')
      ∧ (settings.project ≠ "secrets" → ∀ item, secretId settings item = item)
      ∧ ∀ id, ∃ new,
        (run settings steps ⟨{}, server⟩).2.server.versionsOf id = server.versionsOf id ++ new
          ∧ Grows (server.versionsOf id)
            (assignmentsTo settings id (run settings steps ⟨{}, server⟩).1) new :=
  ⟨fun _ _ => secretId_inj hproject, fun hne => secretId_eq_item hproject hne,
    run_coherent hproject steps _ (coherent_start hplan hfloat)⟩

/-- A server that holds one document and refuses the first version it is sent. -/
def reluctantServer : Server where
  secrets := [("a", [[0x7b, 0x7d]])]
  plan := [⟨.add, some 1, .refused ⟨.aborted, "busy"⟩⟩]

/-- A password, which is refused, then notes in this session and in the next one. -/
def twoSessions : List Step :=
  [.set ⟨"a", .password [0x70]⟩, .set ⟨"a", .notes "n"⟩, .logout, .set ⟨"a", .notes "m"⟩]

/-- A server that holds nothing but one empty document. -/
theorem versionsOf_of_empty {server : Server} (h : server.secrets = [("a", [[0x7b, 0x7d]])])
    (id : String) : server.versionsOf id = if "a" = id then [[0x7b, 0x7d]] else [] := by
  rw [versionsOf, versions?, h, List.find?_singleton]
  split <;> simp_all

theorem read_empty : Document.read [0x7b, 0x7d] = .ok [] := rfl

theorem latest_of_empty {server : Server} (h : server.secrets = [("a", [[0x7b, 0x7d]])])
    (id : String) : latest (server.versionsOf id) = .ok [] := by
  rw [versionsOf_of_empty h]
  split
  · exact read_empty
  · rfl

theorem floatFree_of_empty {server : Server} (h : server.secrets = [("a", [[0x7b, 0x7d]])]) :
    FloatFree server := by
  intro id v hv d hd
  rw [versionsOf_of_empty h] at hv
  split at hv
  · rw [List.mem_singleton.mp hv, read_empty] at hd
    cases hd
    exact ⟨rfl, trivial⟩
  · cases hv

theorem floatFree_reluctantServer : FloatFree reluctantServer := floatFree_of_empty rfl

/-- Both notes are kept, the password is not. -/
theorem run_refines_plain_store_reluctant :
    '/' ∉ "p".toList ∧ reluctantServer.OnlyRefuses ∧ FloatFree reluctantServer
      ∧ (run ⟨"p", none, true⟩ twoSessions ⟨{}, reluctantServer⟩).1
        = [⟨"a", .notes "n"⟩, ⟨"a", .notes "m"⟩]
      ∧ ∃ new, (run ⟨"p", none, true⟩ twoSessions ⟨{}, reluctantServer⟩).2.server.versionsOf "a"
          = reluctantServer.versionsOf "a" ++ new
        ∧ Grows (reluctantServer.versionsOf "a") [.notes "n", .notes "m"] new := by
  have hplan : reluctantServer.OnlyRefuses := by
    intro f hf
    cases List.mem_singleton.mp hf
    exact ⟨_, rfl, fun h => nomatch h⟩
  have haccepted : (run ⟨"p", none, true⟩ twoSessions ⟨{}, reluctantServer⟩).1
      = [⟨"a", .notes "n"⟩, ⟨"a", .notes "m"⟩] := by decide +kernel
  have hproject : '/' ∉ (⟨"p", none, true⟩ : Settings).project.toList := by decide
  have hrun := run_refines_plain_store ⟨"p", none, true⟩ reluctantServer twoSessions hproject hplan
    floatFree_reluctantServer
  obtain ⟨new, hnew, hgrows⟩ := hrun.2.2 "a"
  have hassignments : assignmentsTo ⟨"p", none, true⟩ "a" [⟨"a", .notes "n"⟩, ⟨"a", .notes "m"⟩]
      = [.notes "n", .notes "m"] := by
    rw [assignmentsTo, List.filter_eq_self.mpr]
    · rfl
    · intro op hop
      rw [decide_eq_true_iff, hrun.2.1 (by decide)]
      rcases List.mem_pair.mp hop with rfl | rfl <;> rfl
  rw [haccepted, hassignments] at hgrows
  exact ⟨hproject, hplan, floatFree_reluctantServer, haccepted, new, hnew, hgrows⟩

end SecretForge.Versioned
