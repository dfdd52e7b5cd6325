import SecretForge.Proofs.Store.Refinement
import SecretForge.Proofs.Store.Slot

/-!
# What a failed upload leaves behind

An operation puts its value into the kept document before the document is sent.  When the server
refuses the version, the kept document is dropped, and the next operation starts from what is stored;
any other fault leaves the document kept with the value in it, and the next operation uploads it.

* `Sound` — what holds of every state that a session reaches.
* `Retains` — a session that has nothing but one certain value in view for the slot of an operation;
  `apply_retains` — operations on other slots preserve it.
* `UploadFails`, `UploadRefused` — an operation that sent a version and failed.
* **`failed_upload`** — after a refusal the slot holds what was stored before, after any other fault it
  holds the value of the failed operation.
-/

namespace SecretForge.Versioned

open Act Server Document

/-! ### States that a session reaches -/

/-- The document can be written, and the latest one of the item can be read. -/
def Usable (settings : Settings) (item : String) (server : Server) (d : Document) : Prop :=
  Json.Exact (.object d) ∧ ∃ e, latest (server.versionsOf (secretId settings item)) = .ok e

/-- No version is hidden, no document on the server has a double in it, and every kept document is
usable. -/
structure Sound (settings : Settings) (s : State) : Prop where
  hides : s.server.HidesNothing
  floatFree : FloatFree s.server
  kept : ∀ item d, s.session.find? item = some d → Usable settings item s.server d

variable {settings : Settings} {s t : State} {item : String} {op : Operation} {x : Option Json}

theorem sound_start {server : Server} (hhides : server.HidesNothing) (hfloat : FloatFree server) :
    Sound settings ⟨{}, server⟩ := ⟨hhides, hfloat, fun _ _ h => nomatch h⟩

/-- What is kept is usable, with the same versions and the same plan. -/
theorem Sound.of_same (hs : Sound settings s) (hserver : Server.Same s.server t.server)
    (hkept : ∀ item d, t.session.find? item = some d → Usable settings item s.server d) :
    Sound settings t := by
  refine ⟨hserver.hidesNothing hs.hides, Same.floatFree hserver hs.floatFree, fun item d hd => ?_⟩
  rw [Usable, hserver.versions]
  exact hkept item d hd

/-- A session that keeps another document of one item. -/
theorem Sound.usable (hs : Sound settings s) {now : Option Document}
    (hsession : Changed item now s.session t.session)
    (hnow : ∀ d, now = some d → Usable settings item s.server d) (key : String) (d : Document)
    (h : t.session.find? key = some d) : Usable settings key s.server d := by
  rw [hsession] at h
  split at h
  · next hkey =>
    rw [hkey]
    exact hnow d h
  · exact hs.kept key d h

theorem Works.usable {d : Document} (h : Works settings item s d) (hs : Sound settings s) :
    Usable settings item s.server d := by
  rcases h with h | ⟨-, e, h, rfl⟩
  · exact hs.kept item d h
  · have hlatest := stored_ok hs.hides h
    exact ⟨exact_complete (exact_latest hs.floatFree hlatest), e, hlatest⟩

theorem Usable.assign {server : Server} {d d' : Document} {a : Assignment}
    (h : Usable settings item server d) (hd : d.assign a = .ok d') :
    Usable settings item server d' := ⟨exact_assign h.1 hd, h.2⟩

/-- **An operation leaves a sound state**, however it ends. -/
theorem apply_sound (hs : Sound settings s) (op : Operation) :
    Sound settings (apply settings op s).state := by
  have hends := apply_ends settings op s
  generalize (apply settings op s).result = r at hends
  generalize (apply settings op s).state = t at hends ⊢
  cases hends with
  | unread hstill =>
    exact hs.of_same hstill.server fun key d hd => hs.kept key d (find?_of_kept hstill.kept ▸ hd)
  | unfit hworks _ hserver _ hsession =>
    exact hs.of_same hserver (hs.usable hsession fun _ h => Option.some.inj h ▸ hworks.usable hs)
  | done hworks hd hplan hversions hsession =>
    have hassigned := (hworks.usable hs).assign hd
    refine ⟨?_, hs.floatFree.add hassigned.1 hversions, fun key e he => ?_⟩
    · rw [HidesNothing, hplan]
      exact hs.hides
    · have husable := hs.usable hsession (fun _ h => Option.some.inj h ▸ hassigned) key e he
      refine ⟨husable.1, ?_⟩
      by_cases hid : secretId settings key = secretId settings op.item
      · rw [hid]
        exact ⟨_, latest_added hassigned.1 hversions⟩
      · rw [hversions, if_neg hid]
        exact husable.2
  | refused _ _ hserver _ hsession =>
    refine hs.of_same hserver (hs.usable hsession ?_)
    intro _ h
    cases h
  | broken hworks hd hserver _ _ hsession =>
    exact hs.of_same hserver
      (hs.usable hsession fun _ h => Option.some.inj h ▸ (hworks.usable hs).assign hd)

theorem logout_sound (hs : Sound settings s) : Sound settings (logout s).state := by
  obtain ⟨hserver, hsession | hsession⟩ := logout_cases s
  · exact hs.of_same hserver fun key e he => hs.kept key e (hsession ▸ he)
  · exact hs.of_same hserver fun key e he => nomatch (hsession ▸ he)

theorem run_sound (steps : List Step) (s : State) (hs : Sound settings s) :
    Sound settings (run settings steps s).2 := by
  induction steps generalizing s with
  | nil => exact hs
  | cons step steps ih =>
    cases step with
    | set op => exact ih _ (apply_sound hs op)
    | logout => exact ih _ (logout_sound hs)

/-! ### What stays in view -/

/-- In the slot of the operation, the kept document of its item and the stored one hold the given value
and no other. -/
structure Retains (settings : Settings) (op : Operation) (x : Option Json) (s : State) : Prop where
  kept : ∀ d, s.session.find? op.item = some d → Alike x (inSlot? d op.assignment.slot)
  stored : ∀ e, latest (s.server.versionsOf (secretId settings op.item)) = .ok e →
    Alike x (inSlot? e op.assignment.slot)

/-- The step does not set the slot of the operation. -/
def Step.Spares (op : Operation) : Step → Prop
  | .set later => later.item = op.item → later.assignment.slot ≠ op.assignment.slot
  | .logout => True

theorem Retains.of_same (hr : Retains settings op x s) (hserver : Server.Same s.server t.server)
    (hkept : ∀ d, t.session.find? op.item = some d → Alike x (inSlot? d op.assignment.slot)) :
    Retains settings op x t :=
  ⟨hkept, fun e he => hr.stored e (by rwa [hserver.versions] at he)⟩

theorem Works.retains {d : Document} (h : Works settings op.item s d) (hs : Sound settings s)
    (hr : Retains settings op x s) : Alike x (inSlot? d op.assignment.slot) := by
  rcases h with h | ⟨-, e, h, rfl⟩
  · exact hr.kept d h
  · rw [inSlot?_complete]
    exact hr.stored e (stored_ok hs.hides h)

/-- **An operation on another slot preserves what is in view.** -/
theorem apply_retains (hs : Sound settings s) (hr : Retains settings op x s) {later : Operation}
    (hlater : Step.Spares op (.set later)) : Retains settings op x (apply settings later s).state := by
  have hends := apply_ends settings later s
  generalize (apply settings later s).result = r at hends
  generalize (apply settings later s).state = t at hends ⊢
  -- what the later operation works on, before and after its own value is set in it
  have hworks : ∀ {d : Document}, Works settings later.item s d → later.item = op.item →
      Alike x (inSlot? d op.assignment.slot) := fun h hitem =>
    Works.retains (hitem ▸ h) hs hr
  have hassigned : ∀ {d d' : Document}, Works settings later.item s d →
      d.assign later.assignment = .ok d' → later.item = op.item →
      Alike x (inSlot? d' op.assignment.slot) := fun h hd hitem => by
    rw [inSlot?_assign_of_ne hd (Ne.symm (hlater hitem))]
    exact hworks h hitem
  have hkeep : ∀ {now : Option Document} {t : State}, Changed later.item now s.session t.session →
      (∀ d, now = some d → later.item = op.item → Alike x (inSlot? d op.assignment.slot)) →
      ∀ d, t.session.find? op.item = some d → Alike x (inSlot? d op.assignment.slot) := by
    intro now t hsession hnow d hd
    rw [hsession] at hd
    split at hd
    · next hitem => exact hnow d hd hitem.symm
    · exact hr.kept d hd
  cases hends with
  | unread hstill => exact hr.of_same hstill.server fun d hd => hr.kept d (find?_of_kept hstill.kept ▸ hd)
  | unfit h _ hserver _ hsession =>
    exact hr.of_same hserver (hkeep hsession fun _ hd => Option.some.inj hd ▸ hworks h)
  | done h hd _ hversions hsession =>
    refine ⟨hkeep hsession fun _ he => Option.some.inj he ▸ hassigned h hd, fun e he => ?_⟩
    by_cases hid : secretId settings op.item = secretId settings later.item
    · have hexact := exact_assign (h.usable hs).1 hd
      rw [hid, latest_added hexact hversions] at he
      cases he
      exact (hassigned h hd (secretId_injective settings hid.symm)).trans
        (alike_inSlot?_sortedEntries hexact)
    · rw [hversions, if_neg hid] at he
      exact hr.stored e he
  | refused _ _ hserver _ hsession => exact hr.of_same hserver (hkeep hsession nofun)
  | broken h hd hserver _ _ hsession =>
    exact hr.of_same hserver (hkeep hsession fun _ he => Option.some.inj he ▸ hassigned h hd)

theorem logout_retains (hr : Retains settings op x s) : Retains settings op x (logout s).state := by
  obtain ⟨hserver, hsession | hsession⟩ := logout_cases s
  · exact hr.of_same hserver fun d hd => hr.kept d (hsession ▸ hd)
  · exact hr.of_same hserver fun d hd => nomatch (hsession ▸ hd)

theorem run_retains (steps : List Step) (s : State) (hs : Sound settings s)
    (hr : Retains settings op x s) (hsteps : ∀ step ∈ steps, step.Spares op) :
    Retains settings op x (run settings steps s).2 := by
  induction steps generalizing s with
  | nil => exact hr
  | cons step steps ih =>
    rw [List.forall_mem_cons] at hsteps
    cases step with
    | set later => exact ih _ (apply_sound hs later) (apply_retains hs hr hsteps.1) hsteps.2
    | logout => exact ih _ (logout_sound hs) (logout_retains hr) hsteps.2

/-- An operation that is done leaves a latest document that can be read. -/
theorem exists_latest_of_done (hs : Sound settings s) (h : (apply settings op s).result = .ok ()) :
    ∃ after, latest ((apply settings op s).state.server.versionsOf (secretId settings op.item))
      = .ok after := by
  have hends := apply_ends settings op s
  rw [h] at hends
  generalize (apply settings op s).state = t at hends ⊢
  cases hends with
  | done hworks hd _ hversions _ =>
    exact ⟨_, latest_added (exact_assign (hworks.usable hs).1 hd) hversions⟩

/-! ### Operations on other items -/

theorem find?_run_of_ne (others : List Operation) (h : ∀ o ∈ others, o.item ≠ item) (s : State) :
    (run settings (others.map .set) s).2.session.find? item = s.session.find? item := by
  induction others generalizing s with
  | nil => rfl
  | cons o others ih =>
    rw [List.forall_mem_cons] at h
    exact (ih h.2 _).trans (find?_apply_of_ne h.1)

/-! ### Failed uploads -/

/-- The operation sent a version and failed. -/
def UploadFails (settings : Settings) (op : Operation) (s : State) : Prop :=
  (∃ f, (apply settings op s).result = .error f)
    ∧ s.server.count .add < (apply settings op s).state.server.count .add

/-- The operation failed because the server refused its version. -/
def UploadRefused (settings : Settings) (op : Operation) (s : State) : Prop :=
  ∃ e, (apply settings op s).result = .error (.failed (.addRefused op.item e))

/-- **What an upload that failed leaves behind.**  There was a document to set the value in, and no
version has changed.  The document with the value is kept no more if the version was refused, and kept
otherwise. -/
theorem failed_cases (hs : Sound settings s) (h : UploadFails settings op s) :
    (∃ before, latest (s.server.versionsOf (secretId settings op.item)) = .ok before)
      ∧ Server.Same s.server (apply settings op s).state.server
      ∧ (UploadRefused settings op s →
        (apply settings op s).state.session.find? op.item = none)
      ∧ (¬ UploadRefused settings op s →
        ∃ d d' : Document, (apply settings op s).state.session.find? op.item = some d'
          ∧ d.assign op.assignment = .ok d') := by
  obtain ⟨⟨f, hresult⟩, hcount⟩ := h
  have hends := apply_ends settings op s
  rw [UploadRefused]
  rw [hresult] at hends ⊢
  generalize (apply settings op s).state = t at hends hcount ⊢
  have hasked : ∀ {t : State}, s.server.count .add < t.server.count .add →
      ¬ Asks (· ≠ .add) s.server t.server := fun hcount hasks =>
    absurd (hasks.count_eq (not_not.mpr rfl)) (Nat.ne_of_gt hcount)
  cases hends with
  | unread hstill => exact absurd hstill.asks (hasked hcount)
  | unfit _ _ _ hasks _ => exact absurd hasks (hasked hcount)
  | refused hworks _ hserver _ hsession =>
    exact ⟨(hworks.usable hs).2, hserver, fun _ => by rw [hsession, if_pos rfl],
      fun h => absurd ⟨_, rfl⟩ h⟩
  | @broken d d' f _ hworks hd hserver _ hkind hsession =>
    refine ⟨(hworks.usable hs).2, hserver, fun ⟨e, he⟩ => ?_,
      fun _ => ⟨d, d', by rw [hsession, if_pos rfl], hd⟩⟩
    cases f with
    | refused e => exact absurd rfl (hkind e)
    | _ => cases he

/-- After a refusal nothing is kept, and the stored document is the one before. -/
theorem retains_of_refused {before : Document} (hsame : Server.Same s.server t.server)
    (hkept : t.session.find? op.item = none)
    (hbefore : latest (s.server.versionsOf (secretId settings op.item)) = .ok before) :
    Retains settings op (inSlot? before op.assignment.slot) t := by
  refine ⟨fun d hd => ?_, fun e he => ?_⟩
  · rw [hkept] at hd
    cases hd
  · rw [hsame.versions] at he
    cases hbefore.symm.trans he
    exact .refl _

/-- An operation that is done uploads the kept document, with what stands in other slots. -/
theorem saves_kept {later : Operation} {a : Assignment} {d : Document} {v : Json}
    (hs : Sound settings s) (hkept : s.session.find? later.item = some d)
    (hv : inSlot? d a.slot = some v) (hholds : a.Holds v) (hslot : later.assignment.slot ≠ a.slot)
    (hdone : (apply settings later s).result = .ok ()) :
    ∃ after, latest ((apply settings later s).state.server.versionsOf
        (secretId settings later.item)) = .ok after ∧ inSlot? after a.slot = some v := by
  have hends := apply_ends settings later s
  rw [hdone] at hends
  generalize (apply settings later s).state = t at hends ⊢
  cases hends with
  | @done e e' _ hworks he _ hversions _ =>
    obtain rfl : e = d := by
      rw [Works, hkept] at hworks
      rcases hworks with h | ⟨h, -⟩ <;> cases h
      rfl
    have hexact := exact_assign (hworks.usable hs).1 he
    refine ⟨_, latest_added hexact hversions, eq_some_of_alike hholds ?_⟩
    rw [← hv, ← inSlot?_assign_of_ne he (Ne.symm hslot)]
    exact alike_inSlot?_sortedEntries hexact

/-- **What a later upload holds in the slot of a failed one.**  If the version was refused, it holds what
the latest document held before, whatever happens in between, as long as the slot is not set.  If the
upload met another fault, the next document of the item that is added holds the value that failed.

Neither hypothesis on the server is about the fault.  If a version that exists could be reported as
missing, a later operation would start from the empty document, and the slot would lose what it held
even though nothing had failed before (`HidesNothing`).  And what is compared are documents of which one
has been written and read again: without doubles it is what was written (`FloatFree`). -/
theorem failed_upload (settings : Settings) (server : Server) (past : List Step) (op : Operation)
    (hhides : server.HidesNothing) (hfloat : FloatFree server)
    (hfails : UploadFails settings op (run settings past ⟨{}, server⟩).2) :
    let s := (run settings past ⟨{}, server⟩).2
    let t := (apply settings op s).state
    let id := secretId settings op.item
    let slot := op.assignment.slot
    (∀ key, t.server.versionsOf key = s.server.versionsOf key)
      ∧ ∃ before, latest (s.server.versionsOf id) = .ok before
        ∧ (UploadRefused settings op s → ∀ (steps : List Step) (later : Operation),
          (∀ step ∈ steps, step.Spares op) → later.item = op.item → later.assignment.slot ≠ slot →
          let u := (run settings steps t).2
          (apply settings later u).result = .ok () →
          ∃ after, latest ((apply settings later u).state.server.versionsOf id) = .ok after
            ∧ Alike (inSlot? before slot) (inSlot? after slot))
        ∧ (¬ UploadRefused settings op s → ∀ (others : List Operation) (later : Operation),
          (∀ o ∈ others, o.item ≠ op.item) → later.item = op.item → later.assignment.slot ≠ slot →
          let u := (run settings (others.map .set) t).2
          (apply settings later u).result = .ok () →
          ∃ after v, latest ((apply settings later u).state.server.versionsOf id) = .ok after
            ∧ inSlot? after slot = some v ∧ op.assignment.Holds v) := by
  intro s t id slot
  have hs : Sound settings s := run_sound past _ (sound_start hhides hfloat)
  have ht : Sound settings t := apply_sound hs op
  obtain ⟨⟨before, hbefore⟩, hsame, hrefused, hbroken⟩ := failed_cases hs hfails
  refine ⟨hsame.versions, before, hbefore, ?_, ?_⟩
  · intro h steps later hsteps hitem hslot u hdone
    have hu : Sound settings u := run_sound steps t ht
    have hretains : Retains settings op (inSlot? before slot) u :=
      run_retains steps t ht (retains_of_refused hsame (hrefused h) hbefore) hsteps
    obtain ⟨after, hafter⟩ := exists_latest_of_done hu hdone
    rw [hitem] at hafter
    exact ⟨after, hafter, (apply_retains hu hretains fun _ => hslot).stored after hafter⟩
  · intro h others later hothers hitem hslot u hdone
    obtain ⟨d, d', hkept, hd⟩ := hbroken h
    obtain ⟨v, hv, hholds⟩ := exists_inSlot?_assign hd
    have hu : Sound settings u := run_sound _ t ht
    have hfind : u.session.find? later.item = some d' := by
      rw [hitem]
      exact (find?_run_of_ne others hothers t).trans hkept
    obtain ⟨after, hafter, hslot'⟩ := saves_kept hu hfind hv hholds hslot hdone
    rw [hitem] at hafter
    exact ⟨after, v, hafter, hslot', hholds⟩

/-! ### A connection that is lost -/

/-- A server that holds one document.  The connection is lost at the first version it is sent, and the
third one is refused. -/
def unsteadyServer : Server where
  secrets := [("a", [[0x7b, 0x7d]])]
  plan := [⟨.add, some 1, .broken "connection lost"⟩, ⟨.add, some 3, .refused ⟨.aborted, "busy"⟩⟩]

def unsteadySettings : Settings := ⟨"p", none, true⟩

def lostPassword : Operation := ⟨"a", .password [0x70]⟩

def storedNotes : Operation := ⟨"a", .notes "n"⟩

def refusedNotes : Operation := ⟨"a", .notes "m"⟩

def afterLost : State := (apply unsteadySettings lostPassword ⟨{}, unsteadyServer⟩).state

def afterStored : State := (apply unsteadySettings storedNotes afterLost).state

def afterRefused : State := (apply unsteadySettings refusedNotes afterStored).state

theorem afterLost_eq :
    (apply unsteadySettings lostPassword ⟨{}, unsteadyServer⟩).state = afterLost := rfl

theorem afterRefused_eq :
    (apply unsteadySettings refusedNotes afterStored).state = afterRefused := rfl

theorem run_afterStored : (run unsteadySettings [.set lostPassword, .set storedNotes]
    ⟨{}, unsteadyServer⟩).2 = afterStored := by
  rw [run_set, run_set, run_nil, afterLost_eq, afterStored]

theorem hidesNothing_unsteadyServer : unsteadyServer.HidesNothing := by
  intro f hf e he hkind
  rcases List.mem_pair.mp hf with rfl | rfl
  · cases he
  · cases he
    cases hkind

theorem lostPassword_result : (apply unsteadySettings lostPassword ⟨{}, unsteadyServer⟩).result
    = .error (.failed (.broken "connection lost")) := by decide +kernel

theorem uploadFails_lostPassword :
    UploadFails unsteadySettings lostPassword ⟨{}, unsteadyServer⟩ :=
  ⟨⟨_, lostPassword_result⟩, by decide +kernel⟩

theorem not_uploadRefused_lostPassword :
    ¬ UploadRefused unsteadySettings lostPassword ⟨{}, unsteadyServer⟩ := fun ⟨_, he⟩ => by
  cases lostPassword_result.symm.trans he

theorem storedNotes_done : (apply unsteadySettings storedNotes afterLost).result = .ok () := by
  decide +kernel

theorem uploadRefused_refusedNotes : UploadRefused unsteadySettings refusedNotes afterStored :=
  ⟨⟨.aborted, "busy"⟩, by decide +kernel⟩

theorem uploadFails_refusedNotes : UploadFails unsteadySettings refusedNotes afterStored :=
  ⟨⟨_, uploadRefused_refusedNotes.choose_spec⟩, by decide +kernel⟩

theorem lostPassword_done : (apply unsteadySettings lostPassword afterRefused).result = .ok () := by
  decide +kernel

/-- The password whose upload failed is in the document that the notes are uploaded in; the notes that
were refused then are not in the next one. -/
theorem failed_upload_unsteady :
    unsteadyServer.HidesNothing ∧ FloatFree unsteadyServer
      ∧ UploadFails unsteadySettings lostPassword ⟨{}, unsteadyServer⟩
      ∧ (∃ after v, latest (afterStored.server.versionsOf (secretId unsteadySettings "a")) = .ok after
        ∧ inSlot? after lostPassword.assignment.slot = some v ∧ lostPassword.assignment.Holds v)
      ∧ UploadFails unsteadySettings refusedNotes afterStored
      ∧ ∃ before after,
        latest (afterStored.server.versionsOf (secretId unsteadySettings "a")) = .ok before
        ∧ latest ((apply unsteadySettings lostPassword afterRefused).state.server.versionsOf
          (secretId unsteadySettings "a")) = .ok after
        ∧ Alike (inSlot? before refusedNotes.assignment.slot)
          (inSlot? after refusedNotes.assignment.slot) := by
  have hfloat : FloatFree unsteadyServer := floatFree_of_empty rfl
  have hlost := failed_upload unsteadySettings unsteadyServer [] lostPassword
    hidesNothing_unsteadyServer hfloat uploadFails_lostPassword
  have hrefused := failed_upload unsteadySettings unsteadyServer [.set lostPassword, .set storedNotes]
    refusedNotes hidesNothing_unsteadyServer hfloat
    (by rw [run_afterStored]; exact uploadFails_refusedNotes)
  simp only [run_nil, afterLost_eq] at hlost
  simp only [run_afterStored, afterRefused_eq] at hrefused
  obtain ⟨-, -, -, -, hkept⟩ := hlost
  obtain ⟨-, before, hbefore, hdropped, -⟩ := hrefused
  have hkept := hkept not_uploadRefused_lostPassword [] storedNotes (fun _ h => nomatch h) rfl
    (by decide)
  have hdropped := hdropped uploadRefused_refusedNotes [] lostPassword (fun _ h => nomatch h) rfl
    (by decide)
  rw [List.map_nil, run_nil, ← afterStored] at hkept
  rw [run_nil] at hdropped
  obtain ⟨after, hafter, halike⟩ := hdropped lostPassword_done
  exact ⟨hidesNothing_unsteadyServer, hfloat, uploadFails_lostPassword, hkept storedNotes_done,
    uploadFails_refusedNotes, before, after, hbefore, hafter, halike⟩

/-- **A value that was reported as failed can be uploaded later.**  The connection is lost while the
password is uploaded; then the notes are, and the version that holds them holds the password. -/
theorem broken_upload_resurfaces :
    UploadFails unsteadySettings lostPassword ⟨{}, unsteadyServer⟩
      ∧ (∀ id, afterLost.server.versionsOf id = unsteadyServer.versionsOf id)
      ∧ storedNotes.item = lostPassword.item
      ∧ storedNotes.assignment.slot ≠ lostPassword.assignment.slot
      ∧ (apply unsteadySettings storedNotes afterLost).result = .ok ()
      ∧ ∃ before after,
        latest (unsteadyServer.versionsOf (secretId unsteadySettings "a")) = .ok before
        ∧ latest (afterStored.server.versionsOf (secretId unsteadySettings "a")) = .ok after
        ∧ inSlot? after lostPassword.assignment.slot = some (.ofString "p")
        ∧ ¬ Alike (inSlot? before lostPassword.assignment.slot)
          (inSlot? after lostPassword.assignment.slot) := by
  have hbefore : latest (unsteadyServer.versionsOf (secretId unsteadySettings "a")) = .ok [] :=
    latest_of_empty rfl _
  have hafter : latest (afterStored.server.versionsOf (secretId unsteadySettings "a"))
      = .ok (texts "p" "n") := by
    have hversions : afterStored.server.versionsOf (secretId unsteadySettings "a")
        = [[0x7b, 0x7d], write (texts "p" "n")] := by decide +kernel
    rw [hversions]
    exact read_write_texts "p" "n"
  have hslot : inSlot? (texts "p" "n") lostPassword.assignment.slot = some (.ofString "p") :=
    inSlot?_texts_password "p" "n"
  have hunchanged : ∀ id, afterLost.server.versionsOf id = unsteadyServer.versionsOf id := by
    have hsecrets : afterLost.server.secrets = unsteadyServer.secrets := by decide +kernel
    intro id
    rw [versionsOf, versions?, hsecrets, versionsOf, versions?]
  refine ⟨uploadFails_lostPassword, hunchanged, rfl, by decide, storedNotes_done, [], texts "p" "n",
    hbefore, hafter, hslot, ?_⟩
  have hempty : inSlot? [] lostPassword.assignment.slot = some (.ofString "") := rfl
  rw [hslot, hempty]
  intro h
  cases h

end SecretForge.Versioned
