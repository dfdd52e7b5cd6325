import SecretForge.Proofs.Store.Plain
import SecretForge.Proofs.Store.Quiet

/-!
# The kept documents make no difference

A session keeps each document that it has loaded and puts values into it before they are sent.  On a
server without faults a kept document has the form of the stored one at all times: an operation that is
done stores it, one that its section cannot take leaves it as it is, and one that is refused drops it.  So
operations do what is told from the secrets alone, whatever the session holds.

* `Faithful` — there are no planned faults, and the kept documents have the stored forms.
* `load_plain`, `save_added`, `save_refused` — the parts of an operation.
* `Fitted` — an operation whose document took the value and is about to be saved.
* **`apply_plain`** — an operation does what is told from the secrets, and the session stays faithful.
* **`run_plain`** — the operations that are done in a run, and the secrets after it.
-/

namespace SecretForge

namespace Server

/-- A version is not added to a secret that is missing. -/
theorem add_missing {s : Server} (h : s.plan = []) {parent : String}
    (hsecret : s.versions? (secretOf parent) = none) (version : List UInt8) :
    s.add parent version
      = (.error missing, { s with requests := s.requests ++ [.add parent version] }) := by
  have hsecret' : ({ s with requests := s.requests ++ [.add parent version] } : Server).versions?
      (secretOf parent) = none := hsecret
  rw [add, note_quiet h]
  simp only [hsecret']

end Server

namespace Versioned

open Act Server Document

variable {settings : Settings} {s t : State} {item : String}

/-- There are no planned faults, and each kept document has the form of the stored one. -/
structure Faithful (settings : Settings) (s : State) : Prop where
  plan : s.server.plan = []
  name : ∀ item d, s.session.find? item = some d → allowsName item
  created : ∀ item d, s.session.find? item = some d → Creates settings s.server.versions? item →
    (s.server.versions? item).isSome
  form : ∀ item d, s.session.find? item = some d →
    ∃ f, Stored s.server.versions? (secretId settings item) f ∧ f.Of d

/-- A store that was just opened keeps nothing. -/
theorem faithful_start {server : Server} (h : server.plan = []) : Faithful settings ⟨{}, server⟩ :=
  ⟨h, nofun, nofun, nofun⟩

/-- A session that keeps another document of one item, while other items' secrets have their versions. -/
theorem Faithful.next (hs : Faithful settings s) {now : Option Document} (hplan : t.server.plan = [])
    (hsession : Changed item now s.session t.session)
    (hversions : ∀ key, key ≠ item → versionsIn t.server.versions? (secretId settings key)
      = versionsIn s.server.versions? (secretId settings key))
    (hsome : ∀ id, (s.server.versions? id).isSome → (t.server.versions? id).isSome)
    (hname : now.isSome → allowsName item)
    (hcreated : now.isSome → Creates settings t.server.versions? item →
      (t.server.versions? item).isSome)
    (hform : ∀ d, now = some d → ∃ f, Stored t.server.versions? (secretId settings item) f ∧ f.Of d) :
    Faithful settings t := by
  refine ⟨hplan, fun key d hd => ?_, fun key d hd hcreates => ?_, fun key d hd => ?_⟩ <;>
    rw [hsession] at hd <;> by_cases hkey : key = item
  · rw [if_pos hkey] at hd
    exact hkey ▸ hname (by rw [hd]; rfl)
  · rw [if_neg hkey] at hd
    exact hs.name key d hd
  · rw [if_pos hkey] at hd
    exact hkey ▸ hcreated (by rw [hd]; rfl) (hkey ▸ hcreates)
  · rw [if_neg hkey] at hd
    rw [Creates, hversions key hkey] at hcreates
    exact hsome key (hs.created key d hd hcreates)
  · rw [if_pos hkey] at hd
    exact hkey ▸ hform d hd
  · rw [if_neg hkey] at hd
    obtain ⟨f, hf, hof⟩ := hs.form key d hd
    exact ⟨f, hf.congr (hversions key hkey), hof⟩

/-! ### Loading -/

/-- The latest version is found, or there is none. -/
theorem fetch_plain (settings : Settings) (h : s.server.plan = []) (item : String) :
    ∃ t, (fetch settings item s
      = ⟨match (versionsIn s.server.versions? (secretId settings item)).getLast? with
        | some version => .ok version
        | none => .error missing, [], t⟩) ∧ Unmoved s t := by
  have hlast : (s.server.versions? (secretId settings item)).bind List.getLast?
      = (versionsIn s.server.versions? (secretId settings item)).getLast? := by
    rw [versionsIn]
    cases s.server.versions? (secretId settings item) <;> rfl
  rw [← hlast]
  exact fetch_quiet settings h item

/-- **The stored document is the latest one**, and the secret is there that it calls for. -/
theorem stored_plain (h : s.server.plan = []) (hname : allowsName item) {d : Document}
    (hlatest : latest (versionsIn s.server.versions? (secretId settings item)) = .ok d) :
    ∃ es t, stored settings item s = ⟨.ok d, es, t⟩ ∧ t.server.plan = []
      ∧ t.server.versions? = opened settings s.server.versions? item
      ∧ t.session.find? = s.session.find? := by
  obtain ⟨t, hfetch, ht⟩ := fetch_plain settings h item
  rw [stored, bind_run_ok (attempt_run _ s), hfetch]
  rw [latest] at hlatest
  cases hlast : (versionsIn s.server.versions? (secretId settings item)).getLast? with
  | some version =>
    simp only [hlast] at hlatest ⊢
    simp only [hlatest]
    refine ⟨_, _, rfl, ht.plan, funext fun id => ?_, ht.kept⟩
    rw [opened, if_neg fun h => by cases hlast.symm.trans h.2.2]
    exact ht.versions id
  | none =>
    simp only [hlast] at hlatest ⊢
    cases hlatest
    obtain ⟨es, u, hcreate, hu⟩ := create_quiet settings ht.plan item
    simp only [missing, if_true]
    rw [bind_run_ok hcreate]
    refine ⟨_, _, rfl, hu.plan, funext fun id => ?_, hu.kept.trans ht.kept⟩
    refine ((ht.trans_holding hu).versions id).trans ?_
    rw [opened]
    by_cases hid : id = item
    · rw [if_pos hid, if_pos ⟨hid, hname, hlast⟩, hid]
      rfl
    · rw [if_neg hid, if_neg fun h => hid h.1]

/-- A latest version that is no document is reported, and nothing is changed. -/
theorem stored_unread (h : s.server.plan = []) {f : DocumentFault}
    (hlatest : latest (versionsIn s.server.versions? (secretId settings item)) = .error f) :
    ∃ es t, stored settings item s = ⟨.error (.failed (.noDocument item f)), es, t⟩ ∧ Unmoved s t := by
  obtain ⟨t, hfetch, ht⟩ := fetch_plain settings h item
  rw [stored, bind_run_ok (attempt_run _ s), hfetch]
  rw [latest] at hlatest
  cases hlast : (versionsIn s.server.versions? (secretId settings item)).getLast? with
  | some version =>
    simp only [hlast] at hlatest ⊢
    simp only [hlatest]
    exact ⟨_, _, rfl, ht⟩
  | none =>
    rw [hlast] at hlatest
    cases hlatest

/-- A document that is kept is not created again. -/
theorem Faithful.opened (hs : Faithful settings s) {d : Document} (h : s.session.find? item = some d) :
    opened settings s.server.versions? item = s.server.versions? := by
  funext id
  rw [Versioned.opened]
  split
  · next hcreates =>
    obtain ⟨rfl, hcreates⟩ := hcreates
    obtain ⟨vs, hvs⟩ := Option.isSome_iff_exists.mp (hs.created id d h hcreates)
    rw [versionsIn, hvs]
    rfl
  · rfl

/-- **Loading yields a document of the stored form**, which is kept. -/
theorem load_plain (hs : Faithful settings s) (hname : allowsName item) {f : Form}
    (hf : Stored s.server.versions? (secretId settings item) f) :
    ∃ d es t, load settings item s = ⟨.ok d, es, t⟩ ∧ f.Of d ∧ t.server.plan = []
      ∧ t.server.versions? = opened settings s.server.versions? item
      ∧ Changed item (some d) s.session t.session := by
  cases hkept : s.session.find? item with
  | some d =>
    obtain ⟨g, hg, hof⟩ := hs.form item d hkept
    exact ⟨d, _, s, load_kept hkept, hf.unique hg ▸ hof, hs.plan, (hs.opened hkept).symm, changed_of_find? hkept⟩
  | none =>
    obtain ⟨d, hd, hlatest, rfl⟩ := hf
    obtain ⟨es, t, hstored, hplan, hversions, hsession⟩ := stored_plain hs.plan hname hlatest
    rw [load_read hkept hname, bind_run_ok hstored]
    refine ⟨complete d, _, _, rfl, Form.of_complete hd, hplan, hversions, fun key => ?_⟩
    rw [← hsession]
    exact changed_keep t.session item (complete d) key

/-- A latest version that is no document ends the loading. -/
theorem load_unread (hs : Faithful settings s) (hname : allowsName item) {f : DocumentFault}
    (hlatest : latest (versionsIn s.server.versions? (secretId settings item)) = .error f) :
    ∃ es t, load settings item s = ⟨.error (.failed (.noDocument item f)), es, t⟩ ∧ Unmoved s t := by
  cases hkept : s.session.find? item with
  | some d =>
    obtain ⟨_, ⟨_, _, hlatest', _⟩, _⟩ := hs.form item d hkept
    cases hlatest.symm.trans hlatest'
  | none =>
    obtain ⟨es, t, hstored, ht⟩ := stored_unread hs.plan hlatest
    rw [load_read hkept hname, bind_run_error hstored]
    exact ⟨es, t, rfl, ht⟩

/-- No document is kept under a name that is not allowed. -/
theorem Faithful.find?_eq_none (hs : Faithful settings s) (hname : ¬ allowsName item) :
    s.session.find? item = none :=
  Option.eq_none_iff_forall_ne_some.mpr fun d hkept => hname (hs.name item d hkept)

/-! ### Saving -/

/-- A version is added to a secret that is there. -/
theorem save_added (h : s.server.plan = []) {vs : List (List UInt8)}
    (hsecret : s.server.versions? (secretId settings item) = some vs) (d : Document) :
    ∃ es t, save settings item d s = ⟨.ok (), es, t⟩ ∧ t.server.plan = []
      ∧ (∀ id, t.server.versions? id
        = if id = secretId settings item then some (vs ++ [d.write]) else s.server.versions? id)
      ∧ t.session.find? = s.session.find? := by
  obtain ⟨t, hconnect, ht⟩ := connect_quiet settings h
  have hthere : t.server.versions? (secretOf (secretName settings item)) = some vs :=
    (ht.versions _).trans hsecret
  obtain ⟨hok, hplan, hversions⟩ := add_quiet ht.plan hthere d.write
  rw [save, bind_run_ok (attempt_run _ s), bind_run_ok hconnect, request_run, hok]
  refine ⟨_, _, rfl, hplan, fun id => ?_, ht.kept⟩
  rw [← ht.versions id]
  exact hversions id

/-- A version is not added to a secret that is missing, and the document is kept no more. -/
theorem save_refused (h : s.server.plan = [])
    (hsecret : s.server.versions? (secretId settings item) = none) (d : Document) :
    ∃ es t, save settings item d s
        = ⟨.error (.failed (.addRefused item ⟨.notFound, "no such secret"⟩)), es, t⟩
      ∧ t.server.plan = [] ∧ t.server.versions? = s.server.versions?
      ∧ Changed item none s.session t.session := by
  obtain ⟨t, hconnect, ht⟩ := connect_quiet settings h
  have hmissing : t.server.versions? (secretOf (secretName settings item)) = none :=
    (ht.versions _).trans hsecret
  rw [save, bind_run_ok (attempt_run _ s), bind_run_ok hconnect, request_run,
    add_missing ht.plan hmissing d.write]
  refine ⟨_, _, rfl, ht.plan, funext fun id => ht.versions id, fun key => ?_⟩
  rw [← ht.kept]
  exact changed_drop t.session item key

/-! ### Operations -/

variable {op : Operation} {d d' : Document} {es : List Event}

/-- The operation ends as is told from the secrets, and leaves the secrets that are told and a faithful
session. -/
structure Plainly (settings : Settings) (op : Operation) (s : State)
    (o : Outcome State (Stop StoreFailure) Unit) : Prop where
  result : o.result = (answered settings s.server.versions? op).mapError Stop.failed
  versions : o.state.server.versions? = after settings s.server.versions? op
  faithful : Faithful settings o.state

/-- An operation whose document is not loaded. -/
theorem plainly_of_unloaded (hs : Faithful settings s) {f : StoreFailure}
    (hload : load settings op.item s = ⟨.error (.failed f), es, t⟩) (ht : Unmoved s t)
    (hadd : addition settings s.server.versions? op = .error f)
    (hcreates : ¬ Creates settings s.server.versions? op.item) :
    Plainly settings op s (apply settings op s) := by
  have hversions : t.server.versions? = s.server.versions? := funext ht.versions
  obtain ⟨es, happly⟩ := apply_unloaded hload
  rw [happly]
  refine ⟨by rw [answered, hadd]; rfl, ?_, ht.plan, ?_, ?_, ?_⟩
  · rw [after_of_error hadd, opened_of_not_creates hcreates]
    exact hversions
  · simp only [ht.kept]
    exact hs.name
  · simp only [ht.kept, hversions]
    exact hs.created
  · simp only [ht.kept, hversions]
    exact hs.form

/-- An operation whose value the section of the document cannot take. -/
theorem plainly_of_unfit (hs : Faithful settings s) (hname : allowsName op.item) {f : Form}
    (hf : Stored s.server.versions? (secretId settings op.item) f) {e : StoreFailure}
    (hanswer : f.answer op.assignment = .error e) : Plainly settings op s (apply settings op s) := by
  obtain ⟨d, es, t, hload, hof, hplan, hversions, hsession⟩ := load_plain hs hname hf
  have hadd := hf.addition hname
  have hassign : d.assign op.assignment = .error e := by
    have := (hof.assign op.assignment).1
    rw [hanswer] at this hadd
    cases hassign : d.assign op.assignment with
    | ok d' => rw [hassign] at this; cases this
    | error e' => rw [hassign] at this; cases this; rfl
  rw [hanswer] at hadd
  obtain ⟨es, happly⟩ := apply_unfit hload hassign
  rw [happly]
  refine ⟨by rw [answered, hadd]; rfl, hversions.trans (after_of_error hadd).symm, ?_⟩
  refine hs.next hplan hsession ?_ ?_ (fun _ => hname) ?_ fun d' hd' => ?_ <;> simp only [hversions]
  · exact fun key _ => versionsIn_opened
  · exact fun id h => isSome_opened.mpr (.inl h)
  · exact fun _ h => isSome_opened.mpr (.inr ⟨rfl, creates_of_opened h⟩)
  · cases hd'
    exact ⟨f, hf.congr versionsIn_opened, hof⟩

/-- The document of an operation, with the value in it, is kept in the state `t`, and saving it is all
that is left to do. -/
structure Fitted (settings : Settings) (op : Operation) (s t : State) (f : Form) (d : Document) :
    Prop where
  ends : ∀ {r fs u}, save settings op.item d t = ⟨r, fs, u⟩ →
    ∃ es, apply settings op s = ⟨r, es, u⟩
  plan : t.server.plan = []
  versions : t.server.versions? = opened settings s.server.versions? op.item
  session : Changed op.item (some d) s.session t.session
  form : (f.put op.assignment).Of d
  addition : addition settings s.server.versions? op
    = if Reachable settings s.server.versions? op.item then .ok d.write
      else .error (.addRefused op.item ⟨.notFound, "no such secret"⟩)

/-- A value that the section of the document takes is put into it. -/
theorem exists_fitted (hs : Faithful settings s) (hname : allowsName op.item) {f : Form}
    (hf : Stored s.server.versions? (secretId settings op.item) f)
    (hanswer : f.answer op.assignment = .ok ()) : ∃ t d, Fitted settings op s t f d := by
  obtain ⟨d, es, t, hload, hof, hplan, hversions, hsession⟩ := load_plain hs hname hf
  obtain ⟨hassign, hput⟩ := hof.assign op.assignment
  rw [hanswer] at hassign
  obtain ⟨d', hassign, -⟩ := exists_of_map_ok hassign
  refine ⟨{ t with session := t.session.keep op.item d' }, d', {
    ends := fun hsave => apply_fit hload hassign hsave
    plan := hplan
    versions := hversions
    session := hsession.trans (changed_keep t.session op.item d')
    form := hput d' hassign
    addition := ?_ }⟩
  rw [hf.addition hname, hanswer, ← (hput d' hassign).write]
  rfl

section

variable {f : Form}

/-- The document is added to the secret, if that is there. -/
theorem Fitted.added (h : Fitted settings op s t f d) (hs : Faithful settings s)
    (hname : allowsName op.item) (hf : Stored s.server.versions? (secretId settings op.item) f)
    {vs : List (List UInt8)} (hsecret : t.server.versions? (secretId settings op.item) = some vs) :
    Plainly settings op s (apply settings op s) := by
  obtain ⟨fs, u, hsave, hplan, hversions, hkept⟩ := save_added h.plan hsecret d
  obtain ⟨es, happly⟩ := h.ends hsave
  have hadd := h.addition
  have hreachable : Reachable settings s.server.versions? op.item := by
    rw [reachable_iff hname, ← h.versions, hsecret]
    rfl
  rw [if_pos hreachable] at hadd
  have hvs : versionsIn s.server.versions? (secretId settings op.item) = vs := by
    have hsame := congrArg (fun V => versionsIn V (secretId settings op.item)) h.versions
    simp only [versionsIn_opened] at hsame
    rw [← hsame, versionsIn, hsecret]
    rfl
  have hafter : u.server.versions? = after settings s.server.versions? op := by
    funext id
    rw [hversions, after_of_ok hadd, ← h.versions]
    split
    · next hid => rw [hid, hvs]
    · rfl
  have hdone : accepts settings s.server.versions? op := by
    rw [accepts, answered, hadd]
    rfl
  have hsession : Changed op.item (some d) s.session u.session := fun key => by
    rw [hkept]
    exact h.session key
  rw [happly]
  refine ⟨by rw [answered, hadd]; rfl, hafter, ?_⟩
  refine hs.next hplan hsession ?_ ?_ (fun _ => hname) ?_ fun d' hd' => ?_ <;> simp only [hafter]
  · exact fun key hne => versionsIn_after_of_ne fun h => hne (secretId_injective settings h)
  · exact fun id h => isSome_after.mpr (isSome_opened.mpr (.inl h))
  · exact fun _ h => isSome_after.mpr (isSome_opened.mpr (.inr ⟨rfl, creates_of_after h⟩))
  · cases hd'
    exact ⟨f.put op.assignment, stored_of_getLast? (hf.after hdone), h.form⟩

/-- The document is kept no more, if the secret is missing. -/
theorem Fitted.refused (h : Fitted settings op s t f d) (hs : Faithful settings s)
    (hname : allowsName op.item) (hsecret : t.server.versions? (secretId settings op.item) = none) :
    Plainly settings op s (apply settings op s) := by
  obtain ⟨fs, u, hsave, hplan, hversions, hsession⟩ := save_refused h.plan hsecret d
  obtain ⟨es, happly⟩ := h.ends hsave
  have hadd := h.addition
  have hunreachable : ¬ Reachable settings s.server.versions? op.item := by
    rw [reachable_iff hname, ← h.versions, hsecret]
    exact Bool.false_ne_true
  rw [if_neg hunreachable] at hadd
  have hafter : u.server.versions? = after settings s.server.versions? op :=
    hversions.trans (h.versions.trans (after_of_error hadd).symm)
  have hnone {p : Prop} : (none : Option Document).isSome → p := fun h => absurd h Bool.false_ne_true
  rw [happly]
  refine ⟨by rw [answered, hadd]; rfl, hafter, ?_⟩
  refine hs.next hplan (h.session.trans hsession) ?_ ?_ hnone hnone (fun _ h => by cases h) <;>
    simp only [hafter]
  · exact fun key hne => versionsIn_after_of_ne fun h => hne (secretId_injective settings h)
  · exact fun id h => isSome_after.mpr (isSome_opened.mpr (.inl h))

end

/-- An operation whose value is put into the document. -/
theorem plainly_of_fit (hs : Faithful settings s) (hname : allowsName op.item) {f : Form}
    (hf : Stored s.server.versions? (secretId settings op.item) f)
    (hanswer : f.answer op.assignment = .ok ()) : Plainly settings op s (apply settings op s) := by
  obtain ⟨t, d, hfitted⟩ := exists_fitted hs hname hf hanswer
  cases hsecret : t.server.versions? (secretId settings op.item) with
  | some vs => exact hfitted.added hs hname hf hsecret
  | none => exact hfitted.refused hs hname hsecret

/-- **An operation does what is told from the secrets alone.** -/
theorem apply_plain (hs : Faithful settings s) (op : Operation)
    (hexact : ExactAt s.server.versions? (secretId settings op.item)) :
    Plainly settings op s (apply settings op s) := by
  by_cases hname : allowsName op.item
  · cases hlatest : latest (versionsIn s.server.versions? (secretId settings op.item)) with
    | ok d =>
      have hf : Stored s.server.versions? _ (Form.ofDocument d (hexact d hlatest)) :=
        ⟨d, hexact d hlatest, hlatest, rfl⟩
      cases hanswer : (Form.ofDocument d (hexact d hlatest)).answer op.assignment with
      | error e => exact plainly_of_unfit hs hname hf hanswer
      | ok u => exact plainly_of_fit hs hname hf hanswer
    | error f =>
      obtain ⟨es, t, hload, ht⟩ := load_unread hs hname hlatest
      refine plainly_of_unloaded hs hload ht ?_ fun h => ?_
      · simp only [addition, hname, Bool.not_true, Bool.false_eq_true, if_false, hlatest]
      · rw [latest, h.2] at hlatest
        cases hlatest
  · refine plainly_of_unloaded hs (load_nameless (hs.find?_eq_none hname) hname) ⟨hs.plan, fun _ => rfl, rfl⟩ ?_
      fun h => hname h.1
    simp only [addition, Bool.eq_false_iff.mpr hname, Bool.not_false, if_true]

/-! ### Runs -/

/-- **What a run of operations does.**  It does those that are accepted by the secrets at its start, and
leaves the secrets that are told. -/
theorem run_plain (hs : Faithful settings s) (ops : List Operation)
    (hexact : ∀ op ∈ ops, ExactAt s.server.versions? (secretId settings op.item)) :
    (run settings (ops.map .set) s).1 = ops.filter (accepts settings s.server.versions?)
      ∧ (run settings (ops.map .set) s).2.server.versions? = afterAll settings s.server.versions? ops
      ∧ Faithful settings (run settings (ops.map .set) s).2 := by
  induction ops generalizing s with
  | nil => exact ⟨rfl, rfl, hs⟩
  | cons op ops ih =>
    rw [List.forall_mem_cons] at hexact
    have hop := apply_plain hs op hexact.1
    obtain ⟨hdone, hversions, hfaithful⟩ :=
      ih hop.faithful fun o ho => hop.versions ▸ (hexact.2 o ho).after
    rw [hop.versions] at hversions
    rw [hop.versions, accepts_after hexact.1] at hdone
    refine ⟨?_, hversions, hfaithful⟩
    show (Step.set op).accepted (apply settings op s).result
      ++ (run settings (ops.map .set) (apply settings op s).state).1 = _
    rw [hdone, hop.result, List.filter_cons, accepts]
    cases answered settings s.server.versions? op <;> rfl

end Versioned

end SecretForge
