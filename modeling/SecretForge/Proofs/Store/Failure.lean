import SecretForge.Proofs.Store.Operation
import SecretForge.Proofs.Store.Slot

/-!
# What an operation fails with

The versioned store has failures of its own, which say what the operation was about: the name of the
item, a refusal by the server, a version that is no document.  Any other failure has passed through it.
On a server whose faults are refusals there is one way for that: the section of the document that the
value belongs to is no object, since a document is looked at no further than its outermost layer.

* `StoreFailure.Reported` — the failures that are the store's own.
* `Hindered` — what the server can make an operation fail with; `stored_hindered`, `save_hindered` —
  reading the stored document and saving it fail with nothing else.
* `apply_failures` — an operation fails with this, or for its name, or because its document cannot take
  the value.
* `Document.Takes`, `MeetsMisfit` — when a document can, and when an operation has one in view that
  cannot.
* **`apply_reports`** — the ends of an operation on a server whose faults are refusals.
-/

namespace SecretForge

def StoreFailure.Reported : StoreFailure → Prop
  | .rejected _ | .invalidName _ | .readRefused _ _ | .createRefused _ _ | .addRefused _ _
  | .noDocument _ _ => True
  | .closed | .listSection | .scalarSection _ | .unforeseen _ | .broken _ | .system _ => False

namespace Versioned

open Act Server Document

variable {settings : Settings} {s : State} {op : Operation} {item : String}
  {plan : List PlannedFault}

/-! ### Faults of requests -/

def Met (plan : List PlannedFault) (f : ServerFault) : Prop :=
  (∃ e, f = .refused e) ∨ ∃ p ∈ plan, p.fault = f

def HasPlan (plan : List PlannedFault) (s : State) : Prop := s.server.plan = plan

theorem met_of_note {server : Server} {r : Request} {f : ServerFault}
    (h : (server.note r).1 = .error f) : Met server.plan f := by
  obtain ⟨p, hp, hfault, -⟩ := exists_planned_of_note h
  exact .inr ⟨p, hp, hfault⟩

theorem met_of_access {server : Server} {name : String} {f : ServerFault}
    (h : (server.access name).1 = .error f) : Met server.plan f := by
  rw [access] at h
  split at h
  · next hnote =>
    cases h
    exact met_of_note (r := .access name) (by rw [hnote])
  · split at h
    · cases h
    · cases h
      exact .inl ⟨_, rfl⟩

theorem met_of_create {server : Server} {parent id : String} {f : ServerFault}
    (h : (server.create parent id).1 = .error f) : Met server.plan f := by
  rw [Server.create] at h
  split at h
  · next hnote =>
    cases h
    exact met_of_note (r := .create parent id) (by rw [hnote])
  · split at h
    · cases h
      exact .inl ⟨_, rfl⟩
    · cases h

theorem met_of_add {server : Server} {parent : String} {version : List UInt8} {f : ServerFault}
    (h : (server.add parent version).1 = .error f) : Met server.plan f := by
  rcases add_cases server parent version with ⟨t, hadd, -⟩ | ⟨f', t, hadd, -, hcause⟩ <;>
    rw [hadd] at h <;> cases h
  rcases hcause with hplanned | ⟨rfl, -⟩
  · exact .inr hplanned
  · exact .inl ⟨_, rfl⟩

theorem add_plan (server : Server) (parent : String) (version : List UInt8) :
    (server.add parent version).2.plan = server.plan := by
  rcases add_cases server parent version with ⟨t, hadd, hplan, -⟩ | ⟨f', t, hadd, hsame, -⟩ <;> rw [hadd]
  · exact hplan
  · exact hsame.plan

/-- A request through a connection fails with a refusal or a planned fault. -/
theorem connected_met {α : Type} {f : Server → Except ServerFault α × Server}
    (hplan : ∀ server, (f server).2.plan = server.plan)
    (hmet : ∀ {server : Server} {fault}, (f server).1 = .error fault → Met server.plan fault) :
    FailsOnly (HasPlan plan) (Met plan) (connect settings >>= fun _ => request f) := by
  have hrequest {β : Type} {g : Server → Except ServerFault β × Server}
      (hplan : ∀ server, (g server).2.plan = server.plan)
      (hmet : ∀ {server : Server} {fault}, (g server).1 = .error fault → Met server.plan fault) :
      FailsOnly (HasPlan plan) (Met plan) (request g) := fun s hs =>
    ⟨(hplan s.server).trans hs, fun fault h => hs ▸ hmet h⟩
  refine .bind (.bind (failsOnly_of_ok (fun _ hs => hs) fun s => ⟨s, rfl⟩) fun s => ?_) fun _ =>
    hrequest hplan hmet
  split
  · exact .pure _
  · exact .bind (hrequest (fun server => (connect_same _ server).plan) met_of_note) fun _ =>
      failsOnly_of_ok (fun _ hs => hs) fun _ => ⟨(), rfl⟩

/-! ### What the server makes an operation fail with -/

/-- What an operation on the item can fail with because of the server: a refusal, which is reported for
the item; a version that is no document; or a planned fault that is no refusal, which passes through. -/
inductive Hindered (plan : List PlannedFault) (item : String) : Stop StoreFailure → Prop
  | readRefused (e : ServerError) : Hindered plan item (.failed (.readRefused item e))
  | createRefused (e : ServerError) : Hindered plan item (.failed (.createRefused item e))
  | addRefused (e : ServerError) : Hindered plan item (.failed (.addRefused item e))
  | noDocument (f : DocumentFault) : Hindered plan item (.failed (.noDocument item f))
  | passed {p : PlannedFault} (mem : p ∈ plan) (kind : ∀ e, p.fault ≠ .refused e) :
    Hindered plan item (escaping p.fault)

theorem Met.hindered {f : ServerFault} (h : Met plan f) (hkind : ∀ e, f ≠ .refused e) :
    Hindered plan item (escaping f) := by
  rcases h with ⟨e, rfl⟩ | ⟨p, hp, rfl⟩
  · exact absurd rfl (hkind e)
  · exact .passed hp hkind

theorem create_hindered (settings : Settings) (plan : List PlannedFault) (item : String) :
    FailsOnly (HasPlan plan) (Hindered plan item) (create settings item) := by
  refine .bind (.log _ _ _) fun _ =>
    .attempt_bind (connected_met (fun server => (create_same _ _ server).plan) met_of_create)
      fun r hr => ?_
  rcases r with f | _
  · cases f with
    | refused e =>
      simp only
      split
      · exact .pure _
      · exact .fail (.createRefused e)
    | _ => exact .fail ((hr _ rfl).hindered nofun)
  · exact .pure _

/-- **Reading the stored document** fails with nothing that does not come from the server. -/
theorem stored_hindered (settings : Settings) (plan : List PlannedFault) (item : String) :
    FailsOnly (HasPlan plan) (Hindered plan item) (stored settings item) := by
  refine .attempt_bind (connected_met (fun server => (access_same _ server).plan) met_of_access)
    fun r hr => ?_
  rcases r with f | version
  · cases f with
    | refused e =>
      simp only
      split
      · exact .bind (create_hindered settings plan item) fun _ => .pure _
      · exact .fail (.readRefused e)
    | _ => exact .fail ((hr _ rfl).hindered nofun)
  · simp only
    split
    · exact .pure _
    · exact .fail (.noDocument _)

/-- **Saving a document** fails with nothing that does not come from the server. -/
theorem save_hindered (settings : Settings) (plan : List PlannedFault) (item : String) (d : Document) :
    FailsOnly (HasPlan plan) (Hindered plan item) (save settings item d) := by
  refine .attempt_bind (connected_met (fun server => add_plan server _ _) met_of_add) fun r hr => ?_
  rcases r with f | _
  · cases f with
    | refused e =>
      exact .bind (failsOnly_of_ok (fun _ hs => hs) fun _ => ⟨(), rfl⟩) fun _ => .fail (.addRefused e)
    | _ => exact .fail ((hr _ rfl).hindered nofun)
  · exact .pure _

/-! ### What an operation fails with -/

/-- Loading fails because the item has no name that is allowed, or with what comes from the server. -/
theorem load_failures {f : Stop StoreFailure} (h : (load settings item s).result = .error f) :
    f = .failed (.invalidName item) ∧ s.session.find? item = none ∧ ¬ allowsName item
      ∨ Hindered s.server.plan item f := by
  cases hkept : s.session.find? item with
  | some d =>
    rw [load_kept hkept] at h
    cases h
  | none =>
    by_cases hname : allowsName item
    · rw [load_read_result hkept hname] at h
      cases hstored : (stored settings item s).result with
      | error f' =>
        rw [hstored] at h
        cases h
        exact .inr ((stored_hindered settings s.server.plan item s rfl).2 f hstored)
      | ok e =>
        rw [hstored] at h
        cases h
    · rw [load_nameless hkept hname] at h
      cases h
      exact .inl ⟨rfl, rfl, hname⟩

/-- **What an operation fails with**: the name of its item, what comes from the server, or what the value
meets in the document that was loaded. -/
theorem apply_failures {f : Stop StoreFailure} (h : (apply settings op s).result = .error f) :
    f = .failed (.invalidName op.item) ∧ s.session.find? op.item = none ∧ ¬ allowsName op.item
      ∨ Hindered s.server.plan op.item f
      ∨ ∃ d g, (load settings op.item s).result = .ok d ∧ d.assign op.assignment = .error g
        ∧ f = .failed g := by
  rcases load_cases settings op.item s
    with ⟨f', es, t, hload, -⟩ | ⟨d, es, t, hload, -, hserver, -, -⟩
  · obtain ⟨_, happly⟩ := apply_unloaded hload
    rw [happly] at h
    cases h
    exact (load_failures (by rw [hload])).imp_right .inl
  cases hd : d.assign op.assignment with
  | error g =>
    obtain ⟨_, happly⟩ := apply_unfit hload hd
    rw [happly] at h
    cases h
    exact .inr (.inr ⟨d, g, by rw [hload], hd, rfl⟩)
  | ok d' =>
    have hsaves := save_hindered settings s.server.plan op.item d'
      { t with session := t.session.keep op.item d' } hserver.plan
    rcases hsave : save settings op.item d' { t with session := t.session.keep op.item d' }
      with ⟨r, fs, u⟩
    obtain ⟨_, happly⟩ := apply_fit hload hd hsave
    rw [happly] at h
    rw [hsave] at hsaves
    exact .inr (.inl (hsaves.2 f h))

end Versioned

/-! ### Documents that cannot take a value -/

namespace Document

variable {d : Document} {a : Assignment}

/-- The section that the value belongs to is an object, if the value has a name in it; a section that the
document lacks counts as it is at first. -/
def Takes (d : Document) (a : Assignment) : Prop :=
  a.name?.isSome → ∃ es, held? d (codePoints a.part) = some (.object es)

theorem takes_complete : (complete d).Takes a ↔ d.Takes a := by
  have hheld (key : CodePoints) : held? (complete d) key = held? d key := by
    rw [held?, find?_complete, held?, Option.or_assoc, Option.or_self]
  rw [Takes, Takes, hheld]

/-- A value can be put under a name of an object and of nothing else; that it cannot is no failure of the
store's own. -/
theorem putUnder_ends (name : String) (text v : Json) :
    (∃ es w, v = .object es ∧ putUnder name text v = .ok w)
      ∨ (∀ es, v ≠ .object es) ∧ ∃ g, putUnder name text v = .error g ∧ ¬ g.Reported := by
  cases v with
  | object es => exact .inl ⟨es, _, rfl, rfl⟩
  | _ => exact .inr ⟨nofun, _, rfl, nofun⟩

/-- **A value can be set** exactly where the document takes it; otherwise the failure is not the store's
own. -/
theorem assign_ends (d : Document) (a : Assignment) :
    (d.Takes a ∧ ∃ d', d.assign a = .ok d')
      ∨ ¬ d.Takes a ∧ ∃ g, d.assign a = .error g ∧ ¬ g.Reported := by
  have hputIn (name : String) (text : Json) (hname : a.name?.isSome) :
      (d.Takes a ∧ ∃ d', putIn a.part name text d = .ok d')
        ∨ ¬ d.Takes a ∧ ∃ g, putIn a.part name text d = .error g ∧ ¬ g.Reported := by
    have hheld : held? d (codePoints a.part)
        = some ((Json.find? (codePoints a.part) d).getD (.object [])) := by
      rw [held?, find?_sections_part hname]
      cases Json.find? (codePoints a.part) d <;> rfl
    rw [putIn, Takes, hheld]
    rcases putUnder_ends name text ((Json.find? (codePoints a.part) d).getD (.object []))
      with ⟨es, w, hes, hput⟩ | ⟨hes, g, hput, hg⟩ <;> rw [hput]
    · exact .inl ⟨fun _ => ⟨es, congrArg some hes⟩, _, rfl⟩
    · refine .inr ⟨fun htakes => ?_, g, rfl, hg⟩
      obtain ⟨es, h⟩ := htakes hname
      exact hes es (Option.some.inj h)
  cases a with
  | field name value => exact hputIn name _ rfl
  | attachment name value => exact hputIn name _ rfl
  | password | notes => exact .inl ⟨fun h => absurd h Bool.false_ne_true, _, rfl⟩

theorem takes_nil (a : Assignment) : Takes [] a := by
  intro hname
  rw [held?, find?_sections_part hname]
  exact ⟨[], rfl⟩

end Document

namespace Versioned

open Act Server Document

variable {settings : Settings} {s : State} {op : Operation} {item : String}

/-! ### Documents in view -/

/-- The document that an operation on the item has in view: the kept one, or else the one that it reads.
-/
def InView (settings : Settings) (item : String) (s : State) (d : Document) : Prop :=
  s.session.find? item = some d
    ∨ s.session.find? item = none ∧ allowsName item
      ∧ ∃ version, (fetch settings item s).result = .ok version ∧ Document.read version = .ok d

/-- The operation has a document in view that cannot take its value. -/
def MeetsMisfit (settings : Settings) (op : Operation) (s : State) : Prop :=
  ∃ d, InView settings op.item s d ∧ ¬ d.Takes op.assignment

/-- What is read of the item is the document of the version that the server answers with. -/
theorem stored_of_fetch {version : List UInt8} {d : Document}
    (hfetch : (fetch settings item s).result = .ok version) (hread : Document.read version = .ok d) :
    (stored settings item s).result = .ok d := by
  rw [stored, bind_run_ok (attempt_run _ s), hfetch]
  simp only [hread]
  rfl

/-- What is read of an item is the document of a version, or blank. -/
theorem fetch_of_stored {d : Document} (h : (stored settings item s).result = .ok d) :
    d = [] ∨ ∃ version, (fetch settings item s).result = .ok version
      ∧ Document.read version = .ok d := by
  rw [stored, bind_run_ok (attempt_run _ s)] at h
  rcases hfetch : (fetch settings item s).result with f | version <;> rw [hfetch] at h
  · cases f with
    | refused e =>
      simp only at h
      split at h
      · exact .inl (Yields.bind (U := (· = [])) (fun _ => .pure rfl) _ d h)
      · cases h
    | _ => cases h
  · simp only at h
    rcases hread : Document.read version with f | e <;> rw [hread] at h <;> cases h
    exact .inr ⟨version, rfl, hread⟩

/-- The document that is loaded takes what the one in view takes, and a blank one takes everything. -/
theorem inView_of_load {d : Document} (h : (load settings item s).result = .ok d) :
    (∃ e, InView settings item s e ∧ ∀ a, d.Takes a ↔ e.Takes a) ∨ ∀ a, d.Takes a := by
  cases hkept : s.session.find? item with
  | some e =>
    rw [load_kept hkept] at h
    cases h
    exact .inl ⟨d, .inl hkept, fun _ => .rfl⟩
  | none =>
    by_cases hname : allowsName item
    · rw [load_read_result hkept hname] at h
      rcases hstored : (stored settings item s).result with f | e <;> rw [hstored] at h <;> cases h
      rcases fetch_of_stored hstored with rfl | ⟨version, hfetch, hread⟩
      · exact .inr fun a => takes_complete.mpr (takes_nil a)
      · exact .inl ⟨e, .inr ⟨hkept, hname, version, hfetch, hread⟩, fun _ => takes_complete⟩
    · rw [load_nameless hkept hname] at h
      cases h

theorem load_of_inView {e : Document} (h : InView settings item s e) :
    ∃ d, (load settings item s).result = .ok d ∧ ∀ a, d.Takes a ↔ e.Takes a := by
  rcases h with hkept | ⟨hkept, hname, version, hfetch, hread⟩
  · exact ⟨e, by rw [load_kept hkept], fun _ => .rfl⟩
  · refine ⟨complete e, ?_, fun _ => takes_complete⟩
    rw [load_read_result hkept hname, stored_of_fetch hfetch hread]
    rfl

/-- An operation has a misfit in view exactly when the document that is loaded cannot take its value. -/
theorem meetsMisfit_iff : MeetsMisfit settings op s
    ↔ ∃ d, (load settings op.item s).result = .ok d ∧ ¬ d.Takes op.assignment := by
  constructor
  · rintro ⟨e, hview, hmisfit⟩
    obtain ⟨d, hload, htakes⟩ := load_of_inView hview
    exact ⟨d, hload, fun h => hmisfit ((htakes _).mp h)⟩
  · rintro ⟨d, hload, hmisfit⟩
    rcases inView_of_load hload with ⟨e, hview, htakes⟩ | htakes
    · exact ⟨e, hview, fun h => hmisfit ((htakes _).mpr h)⟩
    · exact absurd (htakes _) hmisfit

/-- Where the kept document of the item and its latest version can take the value, no operation has a
misfit in view. -/
theorem not_meetsMisfit
    (hkept : ∀ d, s.session.find? op.item = some d → d.Takes op.assignment)
    (hlatest : ∀ version d,
      (s.server.versionsOf (secretId settings op.item)).getLast? = some version →
      Document.read version = .ok d → d.Takes op.assignment) : ¬ MeetsMisfit settings op s := by
  rintro ⟨d, hview | ⟨-, -, version, hfetch, hread⟩, hmisfit⟩
  · exact hmisfit (hkept d hview)
  · exact hmisfit (hlatest version d (fetch_ok hfetch) hread)

/-! ### Failures that are reported -/

/-- Where all planned faults are refusals, what the server makes an operation fail with is reported. -/
theorem Hindered.reported {plan : List PlannedFault} {f : Stop StoreFailure}
    (hplan : ∀ p ∈ plan, ∃ e, p.fault = .refused e) (h : Hindered plan item f) :
    ∃ g, f = .failed g ∧ g.Reported := by
  cases h with
  | passed hp hkind =>
    obtain ⟨e, he⟩ := hplan _ hp
    exact absurd he (hkind e)
  | _ => exact ⟨_, rfl, trivial⟩

/-- An operation that fails changes no version. -/
theorem same_of_failed {f : Stop StoreFailure} (h : (apply settings op s).result = .error f) :
    Same s.server (apply settings op s).state.server := by
  have hends := apply_ends settings op s
  rw [h] at hends
  generalize (apply settings op s).state = t at hends ⊢
  cases hends with
  | unread hstill => exact hstill.server
  | unfit _ _ hserver _ _ | refused _ _ hserver _ _ | broken _ _ hserver _ _ _ => exact hserver

/-- An operation that is done adds one version to the secret of its item. -/
theorem added_of_done (h : (apply settings op s).result = .ok ()) :
    ∃ d : Document, ∀ key, (apply settings op s).state.server.versionsOf key
      = if key = secretId settings op.item then s.server.versionsOf key ++ [d.write]
        else s.server.versionsOf key := by
  have hends := apply_ends settings op s
  rw [h] at hends
  generalize (apply settings op s).state = t at hends ⊢
  cases hends with
  | done _ _ _ hversions _ => exact ⟨_, hversions⟩

/-- An operation with a misfit in view fails, and what it fails with is not the store's own. -/
theorem failed_of_meetsMisfit (h : MeetsMisfit settings op s) :
    ∃ f, (apply settings op s).result = .error (.failed f) ∧ ¬ f.Reported := by
  obtain ⟨d, hload, hmisfit⟩ := meetsMisfit_iff.mp h
  rcases assign_ends d op.assignment with ⟨htakes, -⟩ | ⟨-, g, hassign, hg⟩
  · exact absurd htakes hmisfit
  rcases hloaded : load settings op.item s with ⟨r, es, t⟩
  obtain rfl : r = .ok d := by rw [← hload, hloaded]
  obtain ⟨_, happly⟩ := apply_unfit hloaded hassign
  exact ⟨g, by rw [happly], hg⟩

/-- Any other failure is the store's own, where all planned faults are refusals. -/
theorem reported_of_failed (hplan : ∀ p ∈ s.server.plan, ∃ e, p.fault = .refused e)
    (hfits : ¬ MeetsMisfit settings op s) {f : Stop StoreFailure}
    (h : (apply settings op s).result = .error f) : ∃ g, f = .failed g ∧ g.Reported := by
  rcases apply_failures h with ⟨rfl, -⟩ | hhindered | ⟨d, g, hload, hassign, rfl⟩
  · exact ⟨_, rfl, trivial⟩
  · exact hhindered.reported hplan
  · rcases assign_ends d op.assignment with ⟨-, d', hassigned⟩ | ⟨hmisfit, -⟩
    · cases hassign.symm.trans hassigned
    · exact absurd (meetsMisfit_iff.mpr ⟨d, hload, hmisfit⟩) hfits

/-- **How an operation ends** on a server whose faults are refusals.  It adds one version to the secret
of its item and is done, or it changes no version and fails with a failure of the store's own; but if it
has a document in view that cannot take its value, it changes no version and fails with another failure.
There is no such document where the kept one and the latest version can take the value. -/
theorem apply_reports (settings : Settings) (op : Operation) (s : State)
    (hplan : ∀ p ∈ s.server.plan, ∃ e, p.fault = .refused e) :
    let o := apply settings op s
    let id := secretId settings op.item
    (¬ MeetsMisfit settings op s →
        (o.result = .ok () ∧ ∃ d : Document, ∀ key, o.state.server.versionsOf key
          = if key = id then s.server.versionsOf key ++ [d.write] else s.server.versionsOf key)
        ∨ (∃ f, o.result = .error (.failed f) ∧ f.Reported)
          ∧ ∀ key, o.state.server.versionsOf key = s.server.versionsOf key)
      ∧ (MeetsMisfit settings op s → (∃ f, o.result = .error (.failed f) ∧ ¬ f.Reported)
        ∧ ∀ key, o.state.server.versionsOf key = s.server.versionsOf key)
      ∧ ((∀ d, s.session.find? op.item = some d → d.Takes op.assignment) →
        (∀ version d, (s.server.versionsOf id).getLast? = some version →
          Document.read version = .ok d → d.Takes op.assignment) → ¬ MeetsMisfit settings op s) := by
  intro o id
  refine ⟨fun hfits => ?_, fun hmisfit => ?_, not_meetsMisfit⟩
  · rcases hresult : o.result with f | _
    · obtain ⟨g, rfl, hg⟩ := reported_of_failed hplan hfits hresult
      exact .inr ⟨⟨g, rfl, hg⟩, (same_of_failed hresult).versions⟩
    · exact .inl ⟨rfl, added_of_done hresult⟩
  · obtain ⟨f, hresult, hf⟩ := failed_of_meetsMisfit hmisfit
    exact ⟨⟨f, hresult, hf⟩, (same_of_failed hresult).versions⟩

/-! ### A list among the sections -/

/-- A version that is the JSON text `{"fields":[]}`, whose section of fields is a list. -/
def listVersion : List UInt8 :=
  [0x7b, 0x22, 0x66, 0x69, 0x65, 0x6c, 0x64, 0x73, 0x22, 0x3a, 0x5b, 0x5d, 0x7d]

/-- A server that holds this version, and refuses the first one who reads it. -/
def listServer : Server where
  secrets := [("a", [listVersion])]
  plan := [⟨.access, some 1, .refused ⟨.permissionDenied, "denied"⟩⟩]

def listSettings : Settings := ⟨"p", none, true⟩

def listField : Operation := ⟨"a", .field "k" [0x76]⟩

def listNotes : Operation := ⟨"a", .notes "n"⟩

def afterDenied : State := (apply listSettings listField ⟨{}, listServer⟩).state

theorem refuses_listServer : ∀ p ∈ listServer.plan, ∃ e, p.fault = .refused e := by
  intro p hp
  obtain rfl := List.mem_singleton.mp hp
  exact ⟨_, rfl⟩

theorem meetsMisfit_listField : MeetsMisfit listSettings listField afterDenied := by
  have hread : Document.read listVersion = .ok [(codePoints "fields", .list [])] := rfl
  refine ⟨_, .inr ⟨by decide +kernel, rfl, listVersion, by decide +kernel, hread⟩, fun htakes => ?_⟩
  obtain ⟨es, hes⟩ := htakes rfl
  cases hes

theorem not_meetsMisfit_listNotes : ¬ MeetsMisfit listSettings listNotes afterDenied :=
  fun ⟨_, _, hmisfit⟩ => hmisfit nofun

theorem listField_denied : (apply listSettings listField ⟨{}, listServer⟩).result
    = .error (.failed (.readRefused "a" ⟨.permissionDenied, "denied"⟩)) := by decide +kernel

/-- The refusal is reported; what the list causes then is not; the notes do not meet the list. -/
theorem apply_reports_list :
    (∀ p ∈ listServer.plan, ∃ e, p.fault = .refused e)
      ∧ (¬ MeetsMisfit listSettings listField ⟨{}, listServer⟩
        ∧ ∃ f, (apply listSettings listField ⟨{}, listServer⟩).result = .error (.failed f)
          ∧ f.Reported)
      ∧ (MeetsMisfit listSettings listField afterDenied
        ∧ ∃ f, (apply listSettings listField afterDenied).result = .error (.failed f) ∧ ¬ f.Reported)
      ∧ ¬ MeetsMisfit listSettings listNotes afterDenied
        ∧ ∃ d : Document, (apply listSettings listNotes afterDenied).state.server.versionsOf "a"
          = [listVersion, d.write] := by
  have hdenied := apply_reports listSettings listField ⟨{}, listServer⟩ refuses_listServer
  have hplan : afterDenied.server.plan = listServer.plan := apply_plan _ _ _
  have hfield := apply_reports listSettings listField afterDenied (hplan ▸ refuses_listServer)
  have hnotes := apply_reports listSettings listNotes afterDenied (hplan ▸ refuses_listServer)
  have hfits : ¬ MeetsMisfit listSettings listField ⟨{}, listServer⟩ := fun hmisfit => by
    obtain ⟨⟨f, hf, hunreported⟩, -⟩ := hdenied.2.1 hmisfit
    cases listField_denied.symm.trans hf
    exact hunreported trivial
  have hdone : (apply listSettings listNotes afterDenied).result = .ok () := by decide +kernel
  refine ⟨refuses_listServer, ⟨hfits, ?_⟩, ⟨meetsMisfit_listField, (hfield.2.1 meetsMisfit_listField).1⟩,
    not_meetsMisfit_listNotes, ?_⟩
  · rcases hdenied.1 hfits with ⟨hok, -⟩ | ⟨hreported, -⟩
    · cases listField_denied.symm.trans hok
    · exact hreported
  · rcases hnotes.1 not_meetsMisfit_listNotes with ⟨-, d, hversions⟩ | ⟨⟨f, hf, -⟩, -⟩
    · have hbefore : afterDenied.server.versionsOf "a" = [listVersion] := by decide +kernel
      refine ⟨d, ?_⟩
      rw [hversions, hbefore]
      rfl
    · cases hdone.symm.trans hf

/-- **A document that was changed by others can end an operation without a report.** The secret has a
legal name and holds a JSON object, there are no faults, and the field is not set for the list. -/
theorem set_field_in_list :
    allowsName "a" ∧ Document.read listVersion = .ok [(codePoints "fields", .list [])]
      ∧ (apply listSettings listField ⟨{}, { secrets := [("a", [listVersion])] }⟩).result
        = .error (.failed .listSection)
      ∧ ¬ StoreFailure.listSection.Reported := by
  refine ⟨rfl, rfl, by decide +kernel, nofun⟩

end Versioned

end SecretForge
