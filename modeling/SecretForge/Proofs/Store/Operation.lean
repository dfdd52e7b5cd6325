import SecretForge.Proofs.Store.Server
import SecretForge.Proofs.Trace

/-!
# What an operation can do

An operation of the versioned store takes the kept document of its item, or else reads the stored one;
it sets its value in the document and sends the whole as a new version.  Each of these steps can fail,
and what is left of the operation then differs.

* `latest` — the document of a secret with given versions.
* `KeptByReading` — a relation that holds across the parts of reading an item, and so across the whole.
* `Still` — nothing happened to the versions, the plan of faults and the kept documents, and no version
  was sent.
* `connected_cases` — a request goes through a connection, which can meet a fault first.
* `stored_ok` — what is taken for the stored document is the latest one.
* `Works` — the document that an operation works on; `Changed` — a session that keeps another document
  of one item.
* `Ends` — the ways in which an operation can end; **`apply_ends`** — there are no others.
-/

namespace SecretForge.Versioned

open Act Server Document

/-- The document of a secret with the given versions: what the latest one holds, and an empty document
where there is none. -/
def latest (versions : List (List UInt8)) : Except DocumentFault Document :=
  match versions.getLast? with
  | none => .ok []
  | some version => Document.read version

variable {settings : Settings} {s t u : State} {item : String} {op : Operation}

/-! ### Sessions -/

@[simp] theorem request_run {α : Type} (f : Server → Except ServerFault α × Server) (s : State) :
    request f s = ⟨(f s.server).1, [], { s with server := (f s.server).2 }⟩ := rfl

@[simp] theorem onSession_run {ε : Type} (f : Session → Session) (s : State) :
    (onSession f : Act State ε Unit) s = ⟨.ok (), [], { s with session := f s.session }⟩ := rfl

/-- The second session keeps the document given for one item, if any, and for all others what the first
one keeps. -/
def Changed (item : String) (now : Option Document) (s t : Session) : Prop :=
  ∀ key, t.find? key = if key = item then now else s.find? key

theorem changed_drop (s : Session) (item : String) : Changed item none s (s.drop item) := by
  intro key
  rw [Session.find?, Session.drop, List.find?_filter, Session.find?]
  split
  · next h =>
    rw [List.find?_eq_none.mpr fun e _ => by simp [h]]
    rfl
  · next h =>
    congr 2
    funext e
    by_cases he : e.1 = key
    · simp [he, h]
    · simp [he]

theorem changed_keep (s : Session) (item : String) (d : Document) :
    Changed item (some d) s (s.keep item d) := by
  intro key
  rw [Session.find?, Session.keep, List.find?_cons]
  by_cases h : key = item
  · rw [if_pos h, h, decide_eq_true rfl]
    rfl
  · rw [if_neg h, decide_eq_false (Ne.symm h)]
    have hdrop := changed_drop s item key
    rw [if_neg h] at hdrop
    exact hdrop

theorem changed_of_find? {s : Session} {d : Document} (h : s.find? item = some d) :
    Changed item (some d) s s := by
  intro key
  split
  · next hkey => rw [hkey, h]
  · rfl

theorem Changed.trans {s t u : Session} {now now' : Option Document} (h : Changed item now s t)
    (h' : Changed item now' t u) : Changed item now' s u := by
  intro key
  rw [h', h]
  split <;> rfl

theorem find?_of_kept {s t : Session} (h : t.kept = s.kept) : t.find? = s.find? := by
  funext key
  rw [Session.find?, Session.find?, h]

/-! ### Relations that reading an item keeps -/

/-- A relation that holds across a connection and across the requests for what is stored of an item. -/
structure KeptByReading (settings : Settings) (item : String) (R : State → State → Prop) : Prop where
  refl : ∀ s, R s s
  trans : ∀ {s t u}, R s t → R t u → R s u
  connected : ∀ s, R s { s with session := { s.session with connected := true } }
  client : ∀ s, R s { s with server := (s.server.connect settings.credentials).2 }
  access : ∀ s, R s { s with
    server := (s.server.access s!"{secretName settings item}/versions/latest").2 }
  create : ∀ s, R s { s with server := (s.server.create s!"projects/{settings.project}" item).2 }

section

variable {R : State → State → Prop} (h : KeptByReading settings item R)

include h

theorem KeptByReading.connect : Leads R (connect settings) := by
  refine .bind h.trans (leads_of_state h.refl fun _ => rfl) fun s => ?_
  split
  · exact leads_of_state h.refl fun _ => rfl
  · exact .bind h.trans h.client fun _ => h.connected

theorem KeptByReading.fetch : Leads R (fetch settings item) :=
  .bind h.trans h.connect fun _ => h.access

theorem KeptByReading.created : Leads R (Versioned.create settings item) := by
  refine .bind h.trans (leads_of_state h.refl fun _ => rfl) fun _ =>
    .bind h.trans (.attempt (.bind h.trans h.connect fun _ => h.create)) fun r => ?_
  rcases r with (e | _ | _ | _) | _
  · simp only
    split <;> exact leads_of_state h.refl fun _ => rfl
  all_goals exact leads_of_state h.refl fun _ => rfl

/-- **What the connection and each request keep, reading the stored document keeps.** -/
theorem KeptByReading.stored : Leads R (stored settings item) := by
  refine .bind h.trans (.attempt h.fetch) fun r => ?_
  rcases r with (e | _ | _ | _) | version
  · simp only
    split
    · exact .bind h.trans h.created fun _ => leads_of_state h.refl fun _ => rfl
    · exact leads_of_state h.refl fun _ => rfl
  case ok =>
    simp only
    split <;> exact leads_of_state h.refl fun _ => rfl
  all_goals exact leads_of_state h.refl fun _ => rfl

end

/-! ### Requests that leave the versions alone -/

/-- Two states with the same versions, the same plan of faults and the same kept documents, between
which no version was sent. -/
structure Still (s t : State) : Prop where
  server : Same s.server t.server
  kept : t.session.kept = s.session.kept
  asks : Asks (· ≠ .add) s.server t.server

theorem Still.refl (s : State) : Still s s := ⟨.refl _, rfl, .refl _⟩

theorem Still.trans (h : Still s t) (h' : Still t u) : Still s u :=
  ⟨h.server.trans h'.server, h'.kept.trans h.kept, h.asks.trans h'.asks⟩

/-- Reading an item leaves the versions alone. -/
theorem still_reading (settings : Settings) (item : String) : KeptByReading settings item Still where
  refl := Still.refl
  trans := Still.trans
  connected _ := ⟨.refl _, rfl, .refl _⟩
  client s := ⟨connect_same _ s.server, rfl, note_sends s.server nofun⟩
  access s := ⟨access_same _ s.server, rfl, access_sends nofun s.server⟩
  create s := ⟨create_same _ _ s.server, rfl, create_sends nofun s.server⟩

theorem connect_still (settings : Settings) : Leads Still (connect settings) :=
  (still_reading settings "").connect

theorem stored_still (settings : Settings) (item : String) : Leads Still (stored settings item) :=
  (still_reading settings item).stored

/-! ### Requests that are answered -/

/-- A connection that fails met the fault planned for it. -/
theorem connect_error {f : ServerFault} (h : (connect settings s).result = .error f) :
    ∃ p ∈ s.server.plan, p.fault = f ∧ p.method = .client := by
  revert h
  rw [connect, get_bind_run]
  split
  · exact fun h => nomatch h
  · rcases hc : s.server.connect settings.credentials with ⟨f' | u, t⟩
    · rw [bind_run_error (by rw [request_run, hc])]
      intro h
      cases h
      exact exists_planned_of_note (r := .client settings.credentials)
        (by rw [← Server.connect, hc])
    · rw [bind_run_ok (by rw [request_run, hc])]
      exact fun h => nomatch h

/-- A request is made once there is a connection, or the connection meets a fault of the plan. -/
theorem connected_cases {α : Type} (settings : Settings) (f : Server → Except ServerFault α × Server)
    (s : State) :
    (∃ p ∈ s.server.plan, p.method = .client
        ∧ ((connect settings >>= fun _ => request f) s).result = .error p.fault
        ∧ Still s ((connect settings >>= fun _ => request f) s).state)
      ∨ ∃ t, Still s t ∧ ((connect settings >>= fun _ => request f) s).result = (f t.server).1
        ∧ ((connect settings >>= fun _ => request f) s).state
          = { t with server := (f t.server).2 } := by
  have hstill := connect_still settings s
  rcases hc : connect settings s with ⟨f | u, es, t⟩ <;> rw [hc] at hstill
  · obtain ⟨p, hp, rfl, hmethod⟩ := connect_error (f := f) (by rw [hc])
    rw [bind_run_error hc]
    exact .inl ⟨p, hp, hmethod, rfl, hstill⟩
  · rw [bind_run_ok hc]
    exact .inr ⟨t, hstill, rfl, rfl⟩

theorem fetch_ok {version : List UInt8} (h : (fetch settings item s).result = .ok version) :
    (s.server.versionsOf (secretId settings item)).getLast? = some version := by
  rw [fetch] at h
  rcases connected_cases settings (Server.access _) s
    with ⟨p, -, -, hresult, -⟩ | ⟨t, hstill, hresult, -⟩
  · cases hresult.symm.trans h
  · rw [← hstill.server.versions, ← secretOfVersion_latest]
    exact access_ok (hresult.symm.trans h)

/-- The latest version is refused as missing only where there is none. -/
theorem fetch_notFound (hs : s.server.HidesNothing) {e : ServerError}
    (h : (fetch settings item s).result = .error (.refused e)) (hkind : e.kind = .notFound) :
    (s.server.versionsOf (secretId settings item)).getLast? = none := by
  rw [fetch] at h
  rcases connected_cases settings (Server.access _) s
    with ⟨p, hp, hmethod, hresult, -⟩ | ⟨t, hstill, hresult, -⟩
  · rcases hs p hp e (Except.error.inj (hresult.symm.trans h)) hkind with hm | hm <;>
      cases hmethod.symm.trans hm
  · rw [← hstill.server.versions, ← secretOfVersion_latest]
    exact access_notFound (hstill.server.hidesNothing hs) (hresult.symm.trans h) hkind

/-- **What is taken for the stored document is the latest one.** -/
theorem stored_ok (hs : s.server.HidesNothing) {d : Document}
    (h : (stored settings item s).result = .ok d) :
    latest (s.server.versionsOf (secretId settings item)) = .ok d := by
  have hok := @fetch_ok settings s item
  have hmissing := @fetch_notFound settings s item hs
  rw [stored, bind_run_ok (attempt_run _ s)] at h
  generalize fetch settings item s = o at h hok hmissing
  rcases o with ⟨f | version, es, t⟩
  · cases f with
    | refused e =>
      simp only at h
      by_cases hkind : e.kind = .notFound
      · rw [if_pos hkind] at h
        rcases hc : create settings item t with ⟨f' | u, es', t'⟩
        · rw [bind_run_error hc] at h
          cases h
        · rw [bind_run_ok hc] at h
          cases h
          rw [latest, hmissing rfl hkind]
      · rw [if_neg hkind] at h
        cases h
    | _ => cases h
  · simp only at h
    cases hread : Document.read version with
    | error f =>
      rw [hread] at h
      cases h
    | ok d' =>
      rw [hread] at h
      cases h
      rw [latest, hok rfl]
      exact hread

/-! ### Loading -/

theorem load_kept {d : Document} (h : s.session.find? item = some d) :
    load settings item s = ⟨.ok d, [], s⟩ := by
  rw [load, get_bind_run, h]
  rfl

/-- An item that is not kept and whose name is not allowed ends an operation before anything is done. -/
theorem load_nameless (hkept : s.session.find? item = none) (hname : ¬ allowsName item) :
    load settings item s = ⟨.error (.failed (.invalidName item)), [], s⟩ := by
  rw [load, get_bind_run, hkept]
  simp only [hname, Bool.not_false, if_true, fail_run]

/-- Any other item that is not kept is read, and its document is kept from then on. -/
theorem load_read (hkept : s.session.find? item = none) (hname : allowsName item) :
    load settings item s = (stored settings item >>= fun e => do
      onSession (Session.keep item (complete e))
      return complete e) s := by
  rw [load, get_bind_run, hkept]
  simp only [hname, Bool.not_true, Bool.false_eq_true, if_false]

theorem load_read_result (hkept : s.session.find? item = none) (hname : allowsName item) :
    (load settings item s).result = (stored settings item s).result.map complete := by
  rw [load_read hkept hname]
  rcases hstored : stored settings item s with ⟨f | e, es, t⟩
  · rw [bind_run_error hstored]
    rfl
  · rw [bind_run_ok hstored]
    rfl

/-! ### Ends of an operation -/

/-- The document that an operation on an item works on: the kept one, or else what is stored of it,
with no section lacking. -/
def Works (settings : Settings) (item : String) (s : State) (d : Document) : Prop :=
  s.session.find? item = some d
    ∨ s.session.find? item = none ∧ ∃ e, (stored settings item s).result = .ok e ∧ d = complete e

/-- The ways in which an operation can end. -/
inductive Ends (settings : Settings) (op : Operation) (s : State) :
    Except (Stop StoreFailure) Unit → State → Prop
  /-- There was no document to work on. -/
  | unread {f : Stop StoreFailure} {t : State} (still : Still s t) : Ends settings op s (.error f) t
  /-- The section of the document that the value belongs to cannot take it. -/
  | unfit {d : Document} {f : StoreFailure} {t : State} (works : Works settings op.item s d)
      (fault : d.assign op.assignment = .error f) (server : Same s.server t.server)
      (asks : Asks (· ≠ .add) s.server t.server)
      (session : Changed op.item (some d) s.session t.session) :
      Ends settings op s (.error (.failed f)) t
  /-- The document with the value was added as a version. -/
  | done {d d' : Document} {t : State} (works : Works settings op.item s d)
      (assigned : d.assign op.assignment = .ok d') (plan : t.server.plan = s.server.plan)
      (versions : ∀ id, t.server.versionsOf id
        = if id = secretId settings op.item then s.server.versionsOf id ++ [d'.write]
          else s.server.versionsOf id)
      (session : Changed op.item (some d') s.session t.session) : Ends settings op s (.ok ()) t
  /-- The document with the value was refused and is kept no more.  Without a plan of faults there is
  then no version of it. -/
  | refused {d d' : Document} {e : ServerError} {t : State} (works : Works settings op.item s d)
      (assigned : d.assign op.assignment = .ok d') (server : Same s.server t.server)
      (missing : s.server.plan = [] → s.server.versionsOf (secretId settings op.item) = [])
      (session : Changed op.item none s.session t.session) :
      Ends settings op s (.error (.failed (.addRefused op.item e))) t
  /-- The document with the value met another fault, and is kept. -/
  | broken {d d' : Document} {f : ServerFault} {t : State} (works : Works settings op.item s d)
      (assigned : d.assign op.assignment = .ok d') (server : Same s.server t.server)
      (planned : ∃ p ∈ s.server.plan, p.fault = f) (kind : ∀ e, f ≠ .refused e)
      (session : Changed op.item (some d') s.session t.session) :
      Ends settings op s (.error (escaping f)) t

/-- Loading yields the document to work on and keeps it, or fails and changes nothing. -/
theorem load_cases (settings : Settings) (item : String) (s : State) :
    (∃ f es t, load settings item s = ⟨.error f, es, t⟩ ∧ Still s t)
      ∨ ∃ d es t, load settings item s = ⟨.ok d, es, t⟩ ∧ Works settings item s d
        ∧ Same s.server t.server ∧ Asks (· ≠ .add) s.server t.server
        ∧ Changed item (some d) s.session t.session := by
  cases hkept : s.session.find? item with
  | some d =>
    exact .inr ⟨d, [], s, load_kept hkept, .inl hkept, .refl _, .refl _, changed_of_find? hkept⟩
  | none =>
    by_cases hname : allowsName item
    · have hstill := stored_still settings item s
      rw [load_read hkept hname]
      rcases hc : stored settings item s with ⟨f | e, es, t⟩ <;> rw [hc] at hstill
      · rw [bind_run_error hc]
        exact .inl ⟨f, es, t, rfl, hstill⟩
      · rw [bind_run_ok hc]
        refine .inr ⟨complete e, _, _, rfl, .inr ⟨hkept, e, by rw [hc], rfl⟩, hstill.server,
          hstill.asks, fun key => ?_⟩
        rw [← find?_of_kept hstill.kept]
        exact changed_keep t.session item (complete e) key
    · exact .inl ⟨_, [], s, load_nameless hkept hname, .refl s⟩

/-- What saving does: one version more; or a refusal, and the document is kept no more; or another
fault. -/
theorem save_cases (settings : Settings) (item : String) (d : Document) (s : State) :
    ((save settings item d s).result = .ok ()
        ∧ (save settings item d s).state.server.plan = s.server.plan
        ∧ (∀ id, (save settings item d s).state.server.versionsOf id
          = if id = secretId settings item then s.server.versionsOf id ++ [d.write]
            else s.server.versionsOf id)
        ∧ (save settings item d s).state.session.kept = s.session.kept)
      ∨ (∃ e, (save settings item d s).result = .error (.failed (.addRefused item e)))
        ∧ Same s.server (save settings item d s).state.server
        ∧ (s.server.plan = [] → s.server.versionsOf (secretId settings item) = [])
        ∧ (save settings item d s).state.session.kept = (s.session.drop item).kept
      ∨ (∃ f, (save settings item d s).result = .error (escaping f)
          ∧ (∃ p ∈ s.server.plan, p.fault = f) ∧ ∀ e, f ≠ .refused e)
        ∧ Same s.server (save settings item d s).state.server
        ∧ (save settings item d s).state.session.kept = s.session.kept := by
  have hdrop : ∀ {t : Session}, t.kept = s.session.kept →
      (t.drop item).kept = (s.session.drop item).kept := fun h => congrArg (List.filter _) h
  rw [save, bind_run_ok (attempt_run _ s)]
  rcases connected_cases settings (Server.add (secretName settings item) d.write) s
    with ⟨p, hp, -, hresult, hstill⟩ | ⟨t, hstill, hresult, hstate⟩
  · -- the connection met a fault, so the request was not made
    have hplan : s.server.plan ≠ [] := List.ne_nil_of_mem hp
    rw [hresult]
    cases hfault : p.fault with
    | refused e =>
      exact .inr (.inl ⟨⟨e, rfl⟩, hstill.server, fun h => absurd h hplan, hdrop hstill.kept⟩)
    | _ => exact .inr (.inr ⟨⟨_, rfl, ⟨p, hp, hfault⟩, nofun⟩, hstill.server, hstill.kept⟩)
  · rw [hresult, hstate]
    have hversions := hstill.server.versions
    have hplan := hstill.server.plan
    rcases add_cases t.server (secretName settings item) d.write
      with ⟨u, hadd, huplan, hadded⟩ | ⟨f, u, hadd, hsame, hcause⟩
    · rw [hadd]
      refine .inl ⟨rfl, huplan.trans hplan, fun id => ?_, hstill.kept⟩
      rw [← hversions]
      exact hadded id
    · rw [hadd]
      have hsame := hstill.server.trans hsame
      rw [hplan, hversions] at hcause
      cases f with
      | refused e =>
        refine .inr (.inl ⟨⟨e, rfl⟩, hsame, fun h => ?_, hdrop hstill.kept⟩)
        rcases hcause with ⟨p, hp, -⟩ | ⟨-, hnone⟩
        · exact absurd (h ▸ hp) List.not_mem_nil
        · exact hnone
      | _ =>
        rcases hcause with hp | ⟨hmissing, -⟩
        · exact .inr (.inr ⟨⟨_, rfl, hp, nofun⟩, hsame, hstill.kept⟩)
        · cases hmissing

theorem announce_run (settings : Settings) (a : Assignment) (s : State) :
    ∃ es, announce settings a s = ⟨.ok (), es, s⟩ := by
  rw [announce]
  cases settings.announces <;> cases a.secret? <;> exact ⟨_, rfl⟩

/-! ### The parts of an operation -/

section

variable {d d' : Document} {es : List Event}

/-- An operation whose document is not loaded ends there. -/
theorem apply_unloaded {f : Stop StoreFailure} (hload : load settings op.item s = ⟨.error f, es, t⟩) :
    ∃ es, apply settings op s = ⟨.error f, es, t⟩ := by
  obtain ⟨es', hannounce⟩ := announce_run settings op.assignment s
  rw [apply, bind_run_ok hannounce, bind_run_error hload]
  exact ⟨_, rfl⟩

/-- An operation whose document cannot take the value ends there. -/
theorem apply_unfit {f : StoreFailure} (hload : load settings op.item s = ⟨.ok d, es, t⟩)
    (hassign : d.assign op.assignment = .error f) :
    ∃ es, apply settings op s = ⟨.error (.failed f), es, t⟩ := by
  obtain ⟨es', hannounce⟩ := announce_run settings op.assignment s
  rw [apply, bind_run_ok hannounce, bind_run_ok hload]
  simp only [hassign]
  exact ⟨_, rfl⟩

/-- Any other operation ends as saving the document with the value does. -/
theorem apply_fit {u : State} {r : Except (Stop StoreFailure) Unit} {fs : List Event}
    (hload : load settings op.item s = ⟨.ok d, es, t⟩) (hassign : d.assign op.assignment = .ok d')
    (hsave : save settings op.item d' { t with session := t.session.keep op.item d' } = ⟨r, fs, u⟩) :
    ∃ es, apply settings op s = ⟨r, es, u⟩ := by
  obtain ⟨es', hannounce⟩ := announce_run settings op.assignment s
  rw [apply, bind_run_ok hannounce, bind_run_ok hload]
  simp only [hassign]
  rw [bind_run_ok (onSession_run _ t), hsave]
  exact ⟨_, rfl⟩

end

/-- **An operation ends in one of these ways.** -/
theorem apply_ends (settings : Settings) (op : Operation) (s : State) :
    Ends settings op s (apply settings op s).result (apply settings op s).state := by
  rcases load_cases settings op.item s
    with ⟨f, es, t, hload, hstill⟩ | ⟨d, es, t, hload, hworks, hserver, hasks, hsession⟩
  · obtain ⟨_, happly⟩ := apply_unloaded hload
    rw [happly]
    exact .unread hstill
  cases hd : d.assign op.assignment with
  | error f =>
    obtain ⟨_, happly⟩ := apply_unfit hload hd
    rw [happly]
    exact .unfit hworks hd hserver hasks hsession
  | ok d' =>
    have hkeep := hsession.trans (changed_keep t.session op.item d')
    have hsession : ∀ {u : Session}, u.kept = (t.session.keep op.item d').kept →
        Changed op.item (some d') s.session u := fun h key => by rw [find?_of_kept h, hkeep]
    have hsaved := save_cases settings op.item d' { t with session := t.session.keep op.item d' }
    rcases hsave : save settings op.item d' { t with session := t.session.keep op.item d' }
      with ⟨r, fs, u⟩
    obtain ⟨_, happly⟩ := apply_fit hload hd hsave
    rw [happly]
    rw [hsave] at hsaved
    rcases hsaved with ⟨rfl, hplan, hversions, hkept⟩ | ⟨⟨e, rfl⟩, hsame, hmissing, hkept⟩
        | ⟨⟨f, rfl, hplanned, hkind⟩, hsame, hkept⟩
    · refine .done hworks hd (hplan.trans hserver.plan) (fun id => ?_) (hsession hkept)
      rw [hversions, ← hserver.versions]
    · refine .refused hworks hd (hserver.trans hsame) (fun h => ?_) fun key => ?_
      · rw [← hserver.versions]
        exact hmissing (hserver.plan.trans h)
      · rw [find?_of_kept hkept, hkeep.trans (changed_drop _ op.item)]
    · exact .broken hworks hd (hserver.trans hsame) (hserver.plan ▸ hplanned) hkind (hsession hkept)

/-- An operation leaves what is kept of other items alone. -/
theorem find?_apply_of_ne (h : op.item ≠ item) :
    (apply settings op s).state.session.find? item = s.session.find? item := by
  have hends := apply_ends settings op s
  generalize (apply settings op s).result = r at hends
  generalize (apply settings op s).state = t at hends ⊢
  cases hends with
  | unread hstill => rw [find?_of_kept hstill.kept]
  | unfit _ _ _ _ hsession | done _ _ _ _ hsession | refused _ _ _ _ hsession
  | broken _ _ _ _ _ hsession => rw [hsession, if_neg (Ne.symm h)]

/-- No operation changes the plan of faults. -/
theorem apply_plan (settings : Settings) (op : Operation) (s : State) :
    (apply settings op s).state.server.plan = s.server.plan := by
  have hends := apply_ends settings op s
  generalize (apply settings op s).result = r, (apply settings op s).state = t at hends
  cases hends with
  | unread hstill => exact hstill.server.plan
  | unfit _ _ hserver _ _ => exact hserver.plan
  | done _ _ hplan _ _ => exact hplan
  | refused _ _ hserver _ _ => exact hserver.plan
  | broken _ _ hserver _ _ _ => exact hserver.plan

/-- The end of a session changes no version, and keeps what is kept or nothing. -/
theorem logout_cases (s : State) :
    Same s.server (logout s).state.server
      ∧ ((logout s).state.session = s.session ∨ (logout s).state.session = {}) := by
  have hclose := close_same s.server
  rw [logout, get_bind_run]
  by_cases hconnected : s.session.connected = true
  · rw [if_pos hconnected, bind_run_ok (attempt_run _ s), request_run]
    rcases hc : s.server.close with ⟨f | u, server⟩ <;> rw [hc] at hclose
    · exact ⟨hclose, .inl rfl⟩
    · exact ⟨hclose, .inr rfl⟩
  · rw [if_neg hconnected]
    exact ⟨.refl _, .inr rfl⟩

/-- The end of a session is broken off only where that is planned. -/
theorem exists_planned_of_logout {s : State} (h : (logout s).result = .error .interrupted) :
    ∃ p ∈ s.server.plan, p.fault = .interrupted ∧ p.method = .close := by
  rw [logout, get_bind_run] at h
  by_cases hconnected : s.session.connected = true
  · rw [if_pos hconnected, bind_run_ok (attempt_run _ s), request_run] at h
    rcases hclose : s.server.close with ⟨f | u, server⟩ <;> rw [hclose] at h
    · obtain ⟨p, hp, hfault, hmethod⟩ := exists_planned_of_note (r := .close) (congrArg Prod.fst hclose)
      refine ⟨p, hp, ?_, hmethod⟩
      cases f with
      | interrupted => exact hfault
      | _ => cases h
    · cases h
  · rw [if_neg hconnected] at h
    cases h

end SecretForge.Versioned
