import SecretForge.Proofs.Store.Refinement
import SecretForge.Proofs.Store.Trace

/-!
# Operations on a server without faults

On a server with no planned faults every request is answered from the secrets alone, and an operation
fails only for the name of its item or the document that it finds.  Where the name is legal, the document
can be read and takes the value, the operation adds the one version that it is for, and touches no other
secret.

* `Unmoved`, `Holding` — what the requests before the addition leave.
* `Ready` — the document that an operation on an item works on; `Adds` — what an operation does that is
  carried out.
* **`apply_quiet`** — an operation is carried out.
-/

namespace SecretForge

namespace Server

variable {s : Server}

/-- Without planned faults a request is noted and meets none. -/
theorem note_quiet (h : s.plan = []) (r : Request) :
    s.note r = (.ok (), { s with requests := s.requests ++ [r] }) := by
  have hplanned : ∀ m n, ({ s with requests := s.requests ++ [r] } : Server).planned? m n = none := by
    intro m n
    simp only [planned?, h, List.find?_nil, Option.map_none]
  rw [note]
  simp only [hplanned]

/-- A secret without versions at the end. -/
theorem versions?_append (s : Server) {id : String} (hid : s.versions? id = none) (key : String) :
    versions? { s with secrets := s.secrets ++ [(id, [])] } key
      = if key = id then some [] else s.versions? key := by
  rw [versions?, List.find?_append, List.find?_singleton]
  by_cases hkey : key = id
  · rw [if_pos hkey, hkey, Option.map_eq_none_iff.mp hid]
    simp
  · rw [if_neg hkey, if_neg (by simpa using Ne.symm hkey), Option.or_none]
    rfl

/-- A version more of one secret. -/
theorem versions?_map (s : Server) (id : String) (version : List UInt8) (key : String) :
    versions? { s with secrets := s.secrets.map fun e =>
        if e.1 = id then (e.1, e.2 ++ [version]) else e } key
      = if key = id then (s.versions? key).map (· ++ [version]) else s.versions? key := by
  have hname : ∀ e : String × List (List UInt8),
      (if e.1 = id then (e.1, e.2 ++ [version]) else e).1 = e.1 := fun e => by split <;> rfl
  rw [versions?, List.find?_map, Option.map_map, versions?]
  simp only [Function.comp_def, hname]
  cases hfind : s.secrets.find? fun e => e.1 = key with
  | none => split <;> rfl
  | some e =>
    have hkey := List.find?_some hfind
    rw [decide_eq_true_iff] at hkey
    simp only [Option.map_some, hkey]
    split <;> rfl

/-- A version is added to a secret that is there. -/
theorem add_quiet (h : s.plan = []) {parent : String} {vs : List (List UInt8)}
    (hsecret : s.versions? (secretOf parent) = some vs) (version : List UInt8) :
    (s.add parent version).1 = .ok () ∧ (s.add parent version).2.plan = []
      ∧ ∀ id, (s.add parent version).2.versions? id
        = if id = secretOf parent then some (vs ++ [version]) else s.versions? id := by
  have hsecret' : ({ s with requests := s.requests ++ [.add parent version] } : Server).versions?
      (secretOf parent) = some vs := hsecret
  rw [add, note_quiet h]
  simp only [hsecret']
  refine ⟨trivial, h, fun id => ?_⟩
  refine (versions?_map { s with requests := s.requests ++ [.add parent version] } (secretOf parent)
    version id).trans ?_
  split
  · next hid => rw [hid, hsecret']; rfl
  · rfl

end Server

namespace Versioned

open Act Server Document

variable {settings : Settings} {s t : State} {item : String}

/-! ### Requests -/

/-- Two states with the same secrets and the same kept documents, the second without planned faults. -/
structure Unmoved (s t : State) : Prop where
  plan : t.server.plan = []
  versions : ∀ id, t.server.versions? id = s.server.versions? id
  kept : t.session.find? = s.session.find?

theorem connect_quiet (settings : Settings) (h : s.server.plan = []) :
    ∃ t, connect settings s = ⟨.ok (), [], t⟩ ∧ Unmoved s t := by
  rw [connect, get_bind_run]
  split
  · exact ⟨s, rfl, h, fun _ => rfl, rfl⟩
  · rw [bind_run_ok (by rw [request_run, Server.connect, note_quiet h])]
    exact ⟨_, rfl, h, fun _ => rfl, rfl⟩

/-- The latest version is found or missing. -/
theorem fetch_quiet (settings : Settings) (h : s.server.plan = []) (item : String) :
    ∃ t, (fetch settings item s
      = ⟨match (s.server.versions? (secretId settings item)).bind List.getLast? with
        | some version => .ok version
        | none => .error missing, [], t⟩) ∧ Unmoved s t := by
  obtain ⟨t, hconnect, ht⟩ := connect_quiet settings h
  rw [fetch, bind_run_ok hconnect, request_run, Server.access, note_quiet ht.plan]
  have hversions : ({ t.server with requests := t.server.requests ++ [.access
      s!"{secretName settings item}/versions/latest"] } : Server).versions?
      (secretOfVersion s!"{secretName settings item}/versions/latest")
      = s.server.versions? (secretId settings item) := by
    rw [secretOfVersion_latest]
    exact ht.versions _
  simp only [hversions]
  cases (s.server.versions? (secretId settings item)).bind List.getLast? with
  | some version => exact ⟨_, rfl, ht.plan, ht.versions, ht.kept⟩
  | none => exact ⟨_, rfl, ht.plan, ht.versions, ht.kept⟩

/-- The secret of one item is there, with its versions as before and everything else as it was. -/
structure Holding (item : String) (s t : State) : Prop where
  plan : t.server.plan = []
  versions : ∀ id, t.server.versions? id
    = if id = item then some (s.server.versionsOf item) else s.server.versions? id
  kept : t.session.find? = s.session.find?

/-- A secret that is there is held already. -/
theorem Unmoved.holding (h : Unmoved s t) (hsecret : (s.server.versions? item).isSome) :
    Holding item s t := by
  refine ⟨h.plan, fun id => ?_, h.kept⟩
  rw [h.versions]
  split
  · next hid =>
    obtain ⟨vs, hvs⟩ := Option.isSome_iff_exists.mp hsecret
    rw [hid, versionsOf, hvs]
    rfl
  · rfl

theorem Unmoved.trans_holding {u : State} (h : Unmoved s t) (h' : Holding item t u) :
    Holding item s u := by
  refine ⟨h'.plan, fun id => ?_, h'.kept.trans h.kept⟩
  rw [h'.versions, versionsOf, h.versions, h.versions]
  rfl

/-- A secret is created, or is there already. -/
theorem create_quiet (settings : Settings) (h : s.server.plan = []) (item : String) :
    ∃ es t, create settings item s = ⟨.ok (), es, t⟩ ∧ Holding item s t := by
  obtain ⟨t, hconnect, ht⟩ := connect_quiet settings h
  have hversions : ({ t.server with requests := t.server.requests ++ [.create
      s!"projects/{settings.project}" item] } : Server).versions? item = s.server.versions? item :=
    ht.versions item
  cases hsecret : s.server.versions? item with
  | some vs =>
    have hcreate : t.server.create s!"projects/{settings.project}" item
        = (.error (.refused ⟨.alreadyExists, "already exists"⟩), { t.server with requests :=
          t.server.requests ++ [.create s!"projects/{settings.project}" item] }) := by
      rw [Server.create, note_quiet ht.plan]
      simp only [hversions, hsecret]
    rw [create, log_bind_run, bind_run_ok (attempt_run _ s), bind_run_ok hconnect, request_run, hcreate]
    refine ⟨_, _, rfl, ?_⟩
    have hunmoved : Unmoved s ⟨t.session, { t.server with requests :=
        t.server.requests ++ [.create s!"projects/{settings.project}" item] }⟩ :=
      ⟨ht.plan, ht.versions, ht.kept⟩
    exact hunmoved.holding (by rw [hsecret]; rfl)
  | none =>
    have hcreate : t.server.create s!"projects/{settings.project}" item
        = (.ok (), { t.server with
          requests := t.server.requests ++ [.create s!"projects/{settings.project}" item]
          secrets := t.server.secrets ++ [(item, [])] }) := by
      rw [Server.create, note_quiet ht.plan]
      simp only [hversions, hsecret]
    rw [create, log_bind_run, bind_run_ok (attempt_run _ s), bind_run_ok hconnect, request_run, hcreate]
    refine ⟨_, _, rfl, ht.plan, fun id => ?_, ht.kept⟩
    refine (versions?_append { t.server with requests := t.server.requests ++ [.create
      s!"projects/{settings.project}" item] } (hversions.trans hsecret) id).trans ?_
    split
    · rw [Server.versionsOf, hsecret]; rfl
    · exact ht.versions id

/-- **The stored document is the latest one**, and its secret is there afterwards. -/
theorem stored_quiet (hid : secretId settings item = item) (h : s.server.plan = []) {d : Document}
    (hlatest : latest (s.server.versionsOf item) = .ok d) :
    ∃ es t, stored settings item s = ⟨.ok d, es, t⟩ ∧ Holding item s t := by
  obtain ⟨t, hfetch, ht⟩ := fetch_quiet settings h item
  rw [hid] at hfetch
  have hlast : (s.server.versions? item).bind List.getLast? = (s.server.versionsOf item).getLast? := by
    rw [Server.versionsOf]
    cases s.server.versions? item <;> rfl
  rw [hlast] at hfetch
  rw [stored, bind_run_ok (attempt_run _ s), hfetch]
  rw [latest] at hlatest
  cases hversion : (s.server.versionsOf item).getLast? with
  | some version =>
    simp only [hversion] at hlatest ⊢
    simp only [hlatest]
    have hsecret : (s.server.versions? item).isSome := by
      rw [hversion, Option.bind_eq_some_iff] at hlast
      obtain ⟨vs, hvs, -⟩ := hlast
      rw [hvs]
      rfl
    exact ⟨_, _, rfl, ht.holding hsecret⟩
  | none =>
    simp only [hversion] at hlatest ⊢
    cases hlatest
    obtain ⟨es, u, hcreate, hu⟩ := create_quiet settings ht.plan item
    simp only [missing, if_true]
    rw [bind_run_ok hcreate]
    exact ⟨_, _, rfl, ht.trans_holding hu⟩

/-! ### Operations -/

/-- The document that an operation on an item works on: the kept one, where the secret is there, or else
the latest one with no section lacking. -/
def Ready (s : State) (item : String) (d : Document) : Prop :=
  s.session.find? item = some d ∧ (s.server.versions? item).isSome
    ∨ s.session.find? item = none ∧ ∃ e, latest (s.server.versionsOf item) = .ok e ∧ d = complete e

/-- Loading yields the document to work on, which is kept. -/
theorem load_quiet (hid : secretId settings item = item) (h : s.server.plan = [])
    (hname : allowsName item) {d : Document} (hready : Ready s item d) :
    ∃ es t, load settings item s = ⟨.ok d, es, t⟩ ∧ t.server.plan = []
      ∧ (∀ id, t.server.versions? id
        = if id = item then some (s.server.versionsOf item) else s.server.versions? id)
      ∧ Changed item (some d) s.session t.session := by
  rcases hready with ⟨hkept, hsecret⟩ | ⟨hnone, e, hlatest, rfl⟩
  · have hunmoved : Unmoved s s := ⟨h, fun _ => rfl, rfl⟩
    exact ⟨_, s, load_kept hkept, h, (hunmoved.holding hsecret).versions, changed_of_find? hkept⟩
  · obtain ⟨es, t, hstored, ht⟩ := stored_quiet hid h hlatest
    rw [load_read hnone hname, bind_run_ok hstored]
    refine ⟨_, _, rfl, ht.plan, ht.versions, fun key => ?_⟩
    rw [← ht.kept]
    exact changed_keep t.session item (complete e) key

/-- Saving adds a version to the secret, which is there. -/
theorem save_quiet (hid : secretId settings item = item) (h : s.server.plan = [])
    {vs : List (List UInt8)} (hsecret : s.server.versions? item = some vs) (d : Document) :
    ∃ es t, save settings item d s = ⟨.ok (), es, t⟩ ∧ t.server.plan = []
      ∧ (∀ id, t.server.versions? id = if id = item then some (vs ++ [d.write])
        else s.server.versions? id)
      ∧ t.session.find? = s.session.find? := by
  obtain ⟨t, hconnect, ht⟩ := connect_quiet settings h
  have hparent : secretOf (secretName settings item) = item := hid
  have hversion : t.server.versions? (secretOf (secretName settings item)) = some vs := by
    rw [hparent, ht.versions, hsecret]
  obtain ⟨hok, hplan, hversions⟩ := add_quiet ht.plan hversion d.write
  rw [save, bind_run_ok (attempt_run _ s), bind_run_ok hconnect, request_run, hok]
  refine ⟨_, _, rfl, hplan, fun id => ?_, ht.kept⟩
  rw [← ht.versions id]
  refine (hversions id).trans ?_
  rw [hparent]

/-- An operation that has added a document as a version of its item's secret, and keeps it. -/
structure Adds (item : String) (d : Document) (s t : State) : Prop where
  plan : t.server.plan = []
  versions : ∀ id, t.server.versions? id
    = if id = item then some (s.server.versionsOf item ++ [d.write]) else s.server.versions? id
  session : Changed item (some d) s.session t.session

/-- **What an operation does.**  It adds the document that it works on, with its value set, as a version
of its item's secret, and keeps this document. -/
theorem apply_quiet {op : Operation} (hid : secretId settings op.item = op.item)
    (h : s.server.plan = []) (hname : allowsName op.item) {d d' : Document}
    (hready : Ready s op.item d) (hassign : d.assign op.assignment = .ok d') :
    (apply settings op s).result = .ok () ∧ Adds op.item d' s (apply settings op s).state := by
  obtain ⟨es, t, hload, hplan, hversions, hsession⟩ := load_quiet hid h hname hready
  rw [apply, bind_run_ok (announce_eq settings op.assignment s), bind_run_ok hload]
  simp only [hassign]
  rw [bind_run_ok (onSession_run _ t)]
  have hsecret : t.server.versions? op.item = some (s.server.versionsOf op.item) :=
    (hversions op.item).trans (if_pos rfl)
  obtain ⟨es', u, hsave, huplan, huversions, hukept⟩ :=
    save_quiet (s := { t with session := t.session.keep op.item d' }) hid hplan hsecret d'
  rw [hsave]
  refine ⟨rfl, huplan, fun id => ?_, fun key => ?_⟩
  · rw [huversions]
    split
    · rfl
    · next hne => exact (hversions id).trans (if_neg hne)
  · rw [hukept]
    exact hsession.trans (changed_keep t.session op.item d') key

section

variable {d : Document} (h : Adds item d s t)

include h

theorem Adds.versionsOf : t.server.versionsOf item = s.server.versionsOf item ++ [d.write] := by
  rw [Server.versionsOf, h.versions, if_pos rfl]
  rfl

end

end Versioned

end SecretForge
