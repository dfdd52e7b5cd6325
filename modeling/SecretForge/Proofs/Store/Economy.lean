import SecretForge.Proofs.Store.Refinement

/-!
# How often a document is read

A document that was read is kept, so an operation reads only what no earlier one has left behind.  What an
operation sends is told by three parts in a fixed order: the connection, if there is none yet; the latest
version, if the document is not kept, and the creation of the secret, if that version is missing; and the
new version.  An operation that fails may leave the document to be read once more, but no other can: the
reads of a session are paid for by the failures in it and by one document that is kept.

* `Makes` — the requests between two states, in order; `apply_makes` — those of an operation.
* `Visit`, `visits` — what each step of a run sent and whether it was done.
* `Orderly` — the requests of an operation on an item, in the order of their kinds.
* `visit_reads`, `visits_reads` — reads and a kept document are paid for by failures, in one step and in a
  run without an end of the session.
* **`reads_bounded`** — what a run sends, and how often it reads a document between two ends of the session.
-/

namespace SecretForge

namespace Server

/-- No connection is planned to be refused as missing. -/
def ConnectionKnown (s : Server) : Prop :=
  ∀ f ∈ s.plan, f.method = .client → ∀ e, f.fault = .refused e → e.kind ≠ .notFound

/-! ### What a request adds to the requests -/

theorem note_requests (s : Server) (r : Request) : (s.note r).2.requests = s.requests ++ [r] := by
  rw [note]
  split <;> rfl

theorem access_requests (name : String) (s : Server) :
    (s.access name).2.requests = s.requests ++ [.access name] := by
  have hnote := note_requests s (.access name)
  rw [access]
  split
  · next h =>
    rw [h] at hnote
    exact hnote
  · next h =>
    rw [h] at hnote
    split <;> exact hnote

theorem create_requests (parent id : String) (s : Server) :
    (s.create parent id).2.requests = s.requests ++ [.create parent id] := by
  have hnote := note_requests s (.create parent id)
  rw [create]
  split
  · next h =>
    rw [h] at hnote
    exact hnote
  · next h =>
    rw [h] at hnote
    split <;> exact hnote

theorem add_requests (parent : String) (version : List UInt8) (s : Server) :
    (s.add parent version).2.requests = s.requests ++ [.add parent version] := by
  have hnote := note_requests s (.add parent version)
  rw [add]
  split
  · next h =>
    rw [h] at hnote
    exact hnote
  · next h =>
    rw [h] at hnote
    simp only
    split <;> exact hnote

end Server

namespace Versioned

open Act Server Document

variable {settings : Settings} {s t u : State} {item : String} {op : Operation}
  {opening reading made more : List Request}

/-! ### The requests between two states -/

/-- The requests made from one state to another, in order. -/
def Makes (made : List Request) (s t : State) : Prop :=
  t.server.requests = s.server.requests ++ made

theorem Makes.refl (s : State) : Makes [] s s := (List.append_nil _).symm

theorem Makes.trans (h : Makes made s t) (h' : Makes more t u) : Makes (made ++ more) s u := by
  rw [Makes, h', h, List.append_assoc]

def readRequest (settings : Settings) (item : String) : Request :=
  .access s!"{secretName settings item}/versions/latest"

def createRequest (settings : Settings) (item : String) : Request :=
  .create s!"projects/{settings.project}" item

def addRequest (settings : Settings) (item : String) (version : List UInt8) : Request :=
  .add (secretName settings item) version

/-! ### The connection -/

/-- The requests that a connection takes: one, or none if it is there. -/
def Opens (settings : Settings) (opening : List Request) : Prop :=
  opening <+: [.client settings.credentials]

theorem opens_nil (settings : Settings) : Opens settings [] := List.nil_prefix

theorem connect_connected (h : s.session.connected = true) : connect settings s = ⟨.ok (), [], s⟩ := by
  rw [connect, get_bind_run, if_pos h]
  rfl

/-- A connection that is there takes no request, and one that succeeds is there. -/
theorem connect_makes (settings : Settings) (s : State) :
    ∃ opening, Makes opening s (connect settings s).state ∧ Opens settings opening
      ∧ (s.session.connected = true → opening = [])
      ∧ ((connect settings s).result = .ok () →
        (connect settings s).state.session.connected = true) := by
  by_cases hconnected : s.session.connected = true
  · rw [connect_connected hconnected]
    exact ⟨[], .refl s, opens_nil settings, fun _ => rfl, fun _ => hconnected⟩
  · have hnote := note_requests s.server (.client settings.credentials)
    rw [connect, get_bind_run, if_neg hconnected]
    rcases hc : s.server.connect settings.credentials with ⟨f | u, server⟩ <;>
      rw [← Server.connect, hc] at hnote
    · rw [bind_run_error (by rw [request_run, hc])]
      exact ⟨_, hnote, List.prefix_refl _, fun h => absurd h hconnected, fun h => by cases h⟩
    · rw [bind_run_ok (by rw [request_run, hc])]
      exact ⟨_, hnote, List.prefix_refl _, fun h => absurd h hconnected, fun _ => rfl⟩

/-! ### Reading an item -/

/-- The requests that reading an item takes: none if its document is kept, else one for the latest version,
and a second one for the secret if there is no version. -/
def Consults (settings : Settings) (item : String) (reading : List Request) : Prop :=
  reading <+: [readRequest settings item, createRequest settings item]

theorem consults_nil (settings : Settings) (item : String) : Consults settings item [] :=
  List.nil_prefix

theorem create_makes (settings : Settings) (item : String) (h : s.session.connected = true) :
    Makes [createRequest settings item] s (create settings item s).state
      ∧ (create settings item s).state.session.connected = true := by
  have hrequests := create_requests s!"projects/{settings.project}" item s.server
  rw [Versioned.create, log_bind_run, bind_run_ok (attempt_run _ s), bind_run_ok (connect_connected h),
    request_run]
  rcases (s.server.create s!"projects/{settings.project}" item).1 with (e | _ | _ | _) | _
  · simp only
    split <;> exact ⟨hrequests, h⟩
  all_goals exact ⟨hrequests, h⟩

/-- Reading an item asks for its latest version first and for its secret only after that, if the connection
is not refused as missing; and if it succeeds, there is a connection. -/
theorem stored_makes (settings : Settings) (item : String) (hknown : s.server.ConnectionKnown) :
    ∃ opening reading, Makes (opening ++ reading) s (stored settings item s).state
      ∧ Opens settings opening ∧ Consults settings item reading
      ∧ ∀ d, (stored settings item s).result = .ok d →
        (stored settings item s).state.session.connected = true := by
  obtain ⟨opening, hmakes, hopens, -, hconnects⟩ := connect_makes settings s
  rw [stored, bind_run_ok (attempt_run _ s), fetch]
  rcases hc : connect settings s with ⟨f | u, es, t⟩ <;> rw [hc] at hmakes hconnects
  · -- the connection failed, so there is nothing to create
    obtain ⟨p, hp, hfault, hmethod⟩ := connect_error (f := f) (by rw [hc])
    have hends : ∀ g : Stop StoreFailure, Makes (opening ++ []) s t ∧ Opens settings opening
        ∧ Consults settings item [] ∧ ∀ d, (.error g : Except _ Document) = .ok d →
          t.session.connected = true := fun g =>
      ⟨(List.append_nil opening).symm ▸ hmakes, hopens, consults_nil settings item, fun _ h => by cases h⟩
    rw [bind_run_error hc]
    cases f with
    | refused e =>
      simp only
      rw [if_neg (hknown p hp hmethod e hfault)]
      exact ⟨opening, [], hends _⟩
    | _ => exact ⟨opening, [], hends _⟩
  · have hconnected := hconnects rfl
    have hread : Makes (opening ++ [readRequest settings item]) s
        { t with server := (t.server.access s!"{secretName settings item}/versions/latest").2 } :=
      hmakes.trans (access_requests _ t.server)
    have hfirst : Consults settings item [readRequest settings item] := List.prefix_append _ _
    rw [bind_run_ok hc, request_run]
    rcases (t.server.access s!"{secretName settings item}/versions/latest").1 with f | version
    · cases f with
      | refused e =>
        simp only
        split
        · obtain ⟨hcreates, hstays⟩ := create_makes settings item (s := { t with
            server := (t.server.access s!"{secretName settings item}/versions/latest").2 }) hconnected
          refine ⟨opening, [readRequest settings item, createRequest settings item], ?_, hopens,
            List.prefix_refl _, fun _ _ => ?_⟩
          · have hboth := hread.trans hcreates
            rw [List.append_assoc] at hboth
            rwa [bind_state fun _ _ => rfl]
          · rwa [bind_state fun _ _ => rfl]
        · exact ⟨opening, _, hread, hopens, hfirst, fun _ _ => hconnected⟩
      | _ => exact ⟨opening, _, hread, hopens, hfirst, fun _ _ => hconnected⟩
    · simp only
      cases Document.read version <;> exact ⟨opening, _, hread, hopens, hfirst, fun _ _ => hconnected⟩

/-- A document that is kept is loaded without a request; any other is read, and then there is a
connection. -/
theorem load_makes (settings : Settings) (item : String) (hknown : s.server.ConnectionKnown) :
    ∃ opening reading, Makes (opening ++ reading) s (load settings item s).state
      ∧ Opens settings opening ∧ Consults settings item reading
      ∧ (s.session.find? item ≠ none → reading = [])
      ∧ ∀ d, (load settings item s).result = .ok d →
        opening = [] ∧ reading = [] ∨ (load settings item s).state.session.connected = true := by
  have hidle : Makes ([] ++ []) s s := .refl s
  have hnone : Opens settings [] := opens_nil settings
  have hnothing : Consults settings item [] := consults_nil settings item
  cases hkept : s.session.find? item with
  | some d =>
    rw [load_kept hkept]
    exact ⟨[], [], hidle, hnone, hnothing, fun _ => rfl, fun _ _ => .inl ⟨rfl, rfl⟩⟩
  | none =>
    by_cases hname : allowsName item
    · obtain ⟨opening, reading, hmakes, hopens, hconsults, hconnected⟩ :=
        stored_makes settings item hknown
      refine ⟨opening, reading, ?_⟩
      rw [load_read hkept hname]
      rcases hc : stored settings item s with ⟨f | d, es, t⟩ <;> rw [hc] at hmakes hconnected
      · rw [bind_run_error hc]
        exact ⟨hmakes, hopens, hconsults, fun h => absurd rfl h, fun _ h => by cases h⟩
      · rw [bind_run_ok hc]
        exact ⟨hmakes, hopens, hconsults, fun h => absurd rfl h, fun _ _ => .inr (hconnected d rfl)⟩
    · rw [load_nameless hkept hname]
      exact ⟨[], [], hidle, hnone, hnothing, fun _ => rfl, fun _ h => by cases h⟩

/-! ### Operations -/

/-- Saving sends the document once there is a connection. -/
theorem save_makes (settings : Settings) (item : String) (d : Document) (s : State) :
    ∃ opening adding, Makes (opening ++ adding) s (save settings item d s).state
      ∧ Opens settings opening ∧ (s.session.connected = true → opening = [])
      ∧ (adding = [] ∨ ∃ version, adding = [addRequest settings item version]) := by
  obtain ⟨opening, hmakes, hopens, hconnected, -⟩ := connect_makes settings s
  rw [save, bind_run_ok (attempt_run _ s)]
  rcases hc : connect settings s with ⟨f | u, es, t⟩ <;> rw [hc] at hmakes
  · rw [bind_run_error hc]
    have hall : Makes (opening ++ []) s t := (List.append_nil opening).symm ▸ hmakes
    cases f <;> exact ⟨opening, [], hall, hopens, hconnected, .inl rfl⟩
  · have hsent : Makes (opening ++ [addRequest settings item d.write]) s
        { t with server := (t.server.add (secretName settings item) d.write).2 } :=
      hmakes.trans (add_requests (secretName settings item) d.write t.server)
    rw [bind_run_ok hc, request_run]
    rcases (t.server.add (secretName settings item) d.write).1 with (e | _ | _ | _) | _
    all_goals exact ⟨opening, _, hsent, hopens, hconnected, .inr ⟨_, rfl⟩⟩

/-- The requests of an operation on an item, in order: a connection if there is none, the latest version and
then the secret if the document has to be read, and the new version.  Each of them is left out or made
once. -/
def Orderly (settings : Settings) (item : String) (made : List Request) : Prop :=
  ∃ opening reading adding, made = opening ++ (reading ++ adding)
    ∧ Opens settings opening ∧ Consults settings item reading
    ∧ (adding = [] ∨ ∃ version, adding = [addRequest settings item version])

/-- **What an operation sends**; it reads nothing that is kept. -/
theorem apply_makes (settings : Settings) (op : Operation) (hknown : s.server.ConnectionKnown) :
    ∃ opening reading adding, Makes (opening ++ (reading ++ adding)) s (apply settings op s).state
      ∧ Opens settings opening ∧ Consults settings op.item reading
      ∧ (adding = [] ∨ ∃ version, adding = [addRequest settings op.item version])
      ∧ (s.session.find? op.item ≠ none → reading = []) := by
  obtain ⟨opening, reading, hmakes, hopens, hconsults, hkept, hconnected⟩ :=
    load_makes settings op.item hknown
  rcases hload : load settings op.item s with ⟨f | d, es, t⟩ <;> rw [hload] at hmakes hconnected
  · obtain ⟨_, happly⟩ := apply_unloaded hload
    rw [happly]
    exact ⟨opening, reading, [], (List.append_nil reading).symm ▸ hmakes, hopens, hconsults, .inl rfl, hkept⟩
  cases hassign : d.assign op.assignment with
  | error f =>
    obtain ⟨_, happly⟩ := apply_unfit hload hassign
    rw [happly]
    exact ⟨opening, reading, [], (List.append_nil reading).symm ▸ hmakes, hopens, hconsults, .inl rfl, hkept⟩
  | ok d' =>
    obtain ⟨opening', adding, hsaves, hopens', hstays, hadding⟩ :=
      save_makes settings op.item d' { t with session := t.session.keep op.item d' }
    rcases hsave : save settings op.item d' { t with session := t.session.keep op.item d' }
      with ⟨r, fs, u⟩
    rw [hsave] at hsaves
    obtain ⟨_, happly⟩ := apply_fit hload hassign hsave
    rw [happly]
    have hboth : Makes ((opening ++ reading) ++ (opening' ++ adding)) s u := hmakes.trans hsaves
    rcases hconnected d rfl with ⟨rfl, rfl⟩ | hthere
    · exact ⟨opening', [], adding, hboth, hopens', hconsults, hadding, fun _ => rfl⟩
    · -- the connection that was opened to read serves to save as well
      obtain rfl := hstays hthere
      rw [List.append_assoc, List.nil_append] at hboth
      exact ⟨opening, reading, adding, hboth, hopens, hconsults, hadding, hkept⟩

theorem logout_makes (s : State) : ∃ made, Makes made s (logout s).state ∧ made <+: [.close] := by
  have hnote := note_requests s.server .close
  rw [logout, get_bind_run]
  by_cases hconnected : s.session.connected = true
  · rw [if_pos hconnected, bind_run_ok (attempt_run _ s), request_run]
    rcases hc : s.server.close with ⟨f | u, server⟩ <;> rw [← Server.close, hc] at hnote
    · exact ⟨_, hnote, List.prefix_refl _⟩
    · exact ⟨_, hnote, List.prefix_refl _⟩
  · rw [if_neg hconnected]
    exact ⟨[], .refl s, List.nil_prefix⟩

/-- The end of a session leaves no document kept if it succeeds, and the session as it was if it fails. -/
theorem logout_session (s : State) :
    ((logout s).result = .ok () ∧ (logout s).state.session = {})
      ∨ (∃ f, (logout s).result = .error f) ∧ (logout s).state.session = s.session := by
  rw [logout, get_bind_run]
  by_cases hconnected : s.session.connected = true
  · rw [if_pos hconnected, bind_run_ok (attempt_run _ s), request_run]
    rcases hc : s.server.close with ⟨f | u, server⟩
    · exact .inr ⟨⟨_, rfl⟩, rfl⟩
    · exact .inl ⟨rfl, rfl⟩
  · rw [if_neg hconnected]
    exact .inl ⟨rfl, rfl⟩

/-! ### Visits -/

/-- What a step of a run did: the requests that it made, in order, and whether it was done. -/
structure Visit where
  step : Step
  made : List Request
  done : Bool
  deriving DecidableEq, Repr

variable (settings) in
def visit (step : Step) (s : State) : Visit :=
  let o := perform settings step s
  ⟨step, o.state.server.requests.drop s.server.requests.length, o.result.isOk⟩

variable (settings) in
def visits : List Step → State → List Visit
  | [], _ => []
  | step :: steps, s => visit settings step s :: visits steps (perform settings step s).state

def Visit.EndsSession (v : Visit) : Prop := v.step = .logout ∧ v.done = true

instance : DecidablePred Visit.EndsSession := fun _ => inferInstanceAs (Decidable (_ ∧ _))

def Visit.failedAt (item : String) (v : Visit) : Bool :=
  match v.step with
  | .set op => op.item == item && !v.done
  | .logout => false

def readsOf (settings : Settings) (item : String) (vs : List Visit) : Nat :=
  (vs.flatMap Visit.made).count (readRequest settings item)

/-- How many operations on an item failed. -/
def failuresAt (item : String) (vs : List Visit) : Nat := vs.countP (Visit.failedAt item)

theorem visit_made (settings : Settings) {step : Step} (h : Makes made s (perform settings step s).state) :
    (visit settings step s).made = made := by
  show (perform settings step s).state.server.requests.drop _ = _
  rw [h, List.drop_left]

/-- A visit has all requests of its step. -/
theorem perform_makes (hknown : s.server.ConnectionKnown) (step : Step) :
    Makes (visit settings step s).made s (perform settings step s).state := by
  obtain ⟨made, hmakes⟩ : ∃ made, Makes made s (perform settings step s).state := by
    cases step with
    | set op =>
      obtain ⟨_, _, _, hmakes, -⟩ := apply_makes settings op hknown
      exact ⟨_, hmakes⟩
    | logout =>
      obtain ⟨_, hmakes, -⟩ := logout_makes s
      exact ⟨_, hmakes⟩
  rwa [visit_made settings hmakes]

theorem perform_known (hknown : s.server.ConnectionKnown) (settings : Settings) (step : Step) :
    (perform settings step s).state.server.ConnectionKnown := by
  have hplan : (perform settings step s).state.server.plan = s.server.plan := by
    cases step with
    | set op => exact apply_plan settings op s
    | logout => exact (logout_cases s).1.plan
  rw [ConnectionKnown, hplan]
  exact hknown

theorem run_known (hknown : s.server.ConnectionKnown) (settings : Settings) (steps : List Step) :
    (run settings steps s).2.server.ConnectionKnown := by
  induction steps generalizing s with
  | nil => exact hknown
  | cons step steps ih => exact ih (perform_known hknown settings step)

/-- The visits of a run have all its requests. -/
theorem run_makes (hknown : s.server.ConnectionKnown) (steps : List Step) :
    Makes ((visits settings steps s).flatMap Visit.made) s (run settings steps s).2 := by
  induction steps generalizing s with
  | nil => exact .refl s
  | cons step steps ih => exact (perform_makes hknown step).trans (ih (perform_known hknown settings step))

/-- Where the visits of a run are divided, so are its steps. -/
theorem exists_of_visits_append {steps : List Step} {vs ws : List Visit}
    (h : visits settings steps s = vs ++ ws) :
    ∃ early late, steps = early ++ late ∧ visits settings early s = vs
      ∧ visits settings late (run settings early s).2 = ws := by
  induction vs generalizing steps s with
  | nil => exact ⟨[], steps, rfl, rfl, h⟩
  | cons v vs ih =>
    cases steps with
    | nil => cases h
    | cons step steps =>
      obtain ⟨hv, hvs⟩ := List.cons.inj h
      obtain ⟨early, late, rfl, hearly, hlate⟩ := ih hvs
      exact ⟨step :: early, late, rfl, congrArg₂ List.cons hv hearly, hlate⟩

/-! ### Reads -/

theorem readRequest_inj {item' : String} :
    readRequest settings item = readRequest settings item' ↔ item = item' := by
  refine ⟨fun h => ?_, fun h => h ▸ rfl⟩
  have hname : secretName settings item ++ "/versions/latest"
      = secretName settings item' ++ "/versions/latest" := Request.access.inj h
  exact (String.append_right_inj _).mp ((String.append_left_inj _).mp hname)

/-- An operation on an item reads that item at most once, and no other. -/
theorem count_read_le (item : String) {item' : String} {opening reading adding : List Request}
    (hopens : Opens settings opening) (hconsults : Consults settings item' reading)
    (hadding : adding = [] ∨ ∃ version, adding = [addRequest settings item' version]) :
    (opening ++ (reading ++ adding)).count (readRequest settings item)
      ≤ if item' = item ∧ reading ≠ [] then 1 else 0 := by
  have hopening : opening.count (readRequest settings item) = 0 :=
    List.count_eq_zero.mpr fun h => by cases List.mem_singleton.mp (hopens.subset h)
  have hadded : adding.count (readRequest settings item) = 0 := by
    rcases hadding with rfl | ⟨version, rfl⟩
    · rfl
    · exact List.count_eq_zero.mpr fun h => by cases List.mem_singleton.mp h
  have hreading : reading.count (readRequest settings item) ≤ if item' = item then 1 else 0 := by
    refine Nat.le_trans (hconsults.sublist.count_le _) (Nat.le_of_eq ?_)
    rw [List.count_cons, List.count_eq_zero.mpr fun h => by cases List.mem_singleton.mp h]
    simp only [beq_iff_eq, readRequest_inj, Nat.zero_add]
  rw [List.count_append, List.count_append, hopening, hadded, Nat.zero_add, Nat.add_zero]
  by_cases hnone : reading = []
  · rw [hnone]
    exact Nat.zero_le _
  · simpa only [hnone, ne_eq, not_false_eq_true, and_true] using hreading

def held (item : String) (s : State) : Nat := if s.session.find? item = none then 0 else 1

theorem held_le (item : String) (s : State) : held item s ≤ 1 := by
  rw [held]
  split <;> decide

/-- An operation that is done keeps the document of its item. -/
theorem held_of_done (h : (apply settings op s).result = .ok ()) :
    held op.item (apply settings op s).state = 1 := by
  have hends := apply_ends settings op s
  rw [h] at hends
  generalize (apply settings op s).state = t at hends ⊢
  cases hends with
  | done _ _ _ _ hsession => rw [held, hsession, if_pos rfl, if_neg nofun]

/-- An operation reads its item once, and not at all if the document is kept. -/
theorem reads_own (settings : Settings) (hknown : s.server.ConnectionKnown) (op : Operation) :
    (visit settings (.set op) s).made.count (readRequest settings op.item) + held op.item s ≤ 1 := by
  obtain ⟨opening, reading, adding, hmakes, hopens, hconsults, hadding, hkept⟩ :=
    apply_makes settings op hknown
  have hreads := count_read_le op.item hopens hconsults hadding
  rw [visit_made settings hmakes, held]
  split
  · split at hreads <;> omega
  · next hfind =>
    rw [if_neg fun h => h.2 (hkept hfind)] at hreads
    omega

/-- An operation reads no other item. -/
theorem reads_other (hknown : s.server.ConnectionKnown) (hne : op.item ≠ item) :
    (visit settings (.set op) s).made.count (readRequest settings item) = 0 := by
  obtain ⟨opening, reading, adding, hmakes, hopens, hconsults, hadding, -⟩ :=
    apply_makes settings op hknown
  have hreads := count_read_le item hopens hconsults hadding
  rw [if_neg fun h => hne h.1] at hreads
  rw [visit_made settings hmakes]
  exact Nat.le_zero.mp hreads

theorem held_of_ne (hne : op.item ≠ item) :
    held item (perform settings (.set op) s).state = held item s := by
  have hfind : (perform settings (.set op) s).state.session.find? item = s.session.find? item :=
    find?_apply_of_ne hne
  rw [held, hfind, held]

/-- A logout reads nothing, and nothing changes where it ends no session. -/
theorem logout_reads (hstays : ¬ (visit settings .logout s).EndsSession) (item : String) :
    (visit settings .logout s).made.count (readRequest settings item) = 0
      ∧ held item (perform settings .logout s).state = held item s := by
  constructor
  · obtain ⟨made, hmakes, hmade⟩ := logout_makes s
    rw [visit_made settings hmakes]
    exact List.count_eq_zero.mpr fun h => by cases List.mem_singleton.mp (hmade.subset h)
  · rcases logout_session s with ⟨hdone, -⟩ | ⟨-, hsession⟩
    · exact absurd ⟨rfl, congrArg Except.isOk hdone⟩ hstays
    · rw [held, show (perform settings .logout s).state.session = s.session from hsession, held]

/-- **A read is paid for**: by the failure of its operation, or by the document that is kept from then
on. -/
theorem visit_reads (hknown : s.server.ConnectionKnown) (step : Step)
    (hstays : ¬ (visit settings step s).EndsSession) (item : String) :
    (visit settings step s).made.count (readRequest settings item) + held item s
      ≤ (if (visit settings step s).failedAt item then 1 else 0)
        + held item (perform settings step s).state := by
  cases step with
  | logout =>
    obtain ⟨hnone, hheld⟩ := logout_reads hstays item
    rw [hnone, hheld]
    omega
  | set op =>
    by_cases hitem : op.item = item
    · subst hitem
      have hpaid := reads_own settings hknown op
      have hfailed : (visit settings (.set op) s).failedAt op.item
          = !(apply settings op s).result.isOk := by
        show (op.item == op.item && _) = _
        rw [beq_self_eq_true, Bool.true_and]
        rfl
      rw [hfailed]
      cases hresult : (apply settings op s).result with
      | error f => exact Nat.le_trans hpaid (Nat.le_add_right 1 _)
      | ok _ =>
        have hheld : held op.item (perform settings (.set op) s).state = 1 := held_of_done hresult
        rw [hheld]
        exact hpaid
    · rw [reads_other hknown hitem, held_of_ne hitem]
      omega

/-- **The reads of a run are paid for** by its failures and the document that is kept at its end. -/
theorem visits_reads (hknown : s.server.ConnectionKnown) {steps : List Step}
    (hstays : ∀ v ∈ visits settings steps s, ¬ v.EndsSession) (item : String) :
    readsOf settings item (visits settings steps s) + held item s
      ≤ failuresAt item (visits settings steps s) + held item (run settings steps s).2 := by
  induction steps generalizing s with
  | nil => exact Nat.le_refl _
  | cons step steps ih =>
    rw [visits, List.forall_mem_cons] at hstays
    have hfirst := visit_reads hknown step hstays.1 item
    have hrest := ih (perform_known hknown settings step) hstays.2
    have hrun : (run settings (step :: steps) s).2
        = (run settings steps (perform settings step s).state).2 := rfl
    rw [visits, readsOf, List.flatMap_cons, List.count_append, failuresAt, List.countP_cons, hrun]
    rw [readsOf, failuresAt] at hrest
    omega

/-- Nothing is kept where the session was just ended. -/
theorem held_of_ends {step : Step} (h : (visit settings step s).EndsSession) (item : String) :
    held item (perform settings step s).state = 0 := by
  obtain ⟨rfl, hdone⟩ : step = .logout ∧ (perform settings step s).result.isOk = true := h
  rcases logout_session s with ⟨-, hsession⟩ | ⟨⟨f, hfailed⟩, -⟩
  · rw [held, show (perform settings .logout s).state.session = {} from hsession]
    rfl
  · rw [show (perform settings .logout s).result = .error f from hfailed] at hdone
    cases hdone

/-- Each request of a visit is where its kind belongs. -/
theorem visit_orderly (hknown : s.server.ConnectionKnown) :
    Orderly settings op.item (visit settings (.set op) s).made := by
  obtain ⟨opening, reading, adding, hmakes, hopens, hconsults, hadding, -⟩ :=
    apply_makes settings op hknown
  exact ⟨opening, reading, adding, visit_made settings hmakes, hopens, hconsults, hadding⟩

/-- A secret is created right after the read of the same item. -/
theorem Orderly.read_before (h : Orderly settings item made) {front back : List Request}
    {parent id : String} (hmade : made = front ++ .create parent id :: back) :
    front.getLast? = some (readRequest settings id) := by
  obtain ⟨opening, reading, adding, rfl, hopens, hconsults, hadding⟩ := h
  have hopening : .create parent id ∉ opening := fun h => by
    cases List.mem_singleton.mp (hopens.subset h)
  have hadded : .create parent id ∉ adding := by
    rcases hadding with rfl | ⟨version, rfl⟩
    · exact List.not_mem_nil
    · exact fun h => by cases List.mem_singleton.mp h
  have hmem : .create parent id ∈ opening ++ (reading ++ adding) :=
    hmade ▸ List.mem_append_right front List.mem_cons_self
  rw [List.mem_append, List.mem_append, or_iff_right hopening, or_iff_left hadded] at hmem
  rcases List.prefix_cons_iff.mp hconsults with rfl | ⟨rest, rfl, hrest⟩
  · cases hmem
  rcases List.prefix_cons_iff.mp hrest with rfl | ⟨none, rfl, hnone⟩
  · cases List.mem_singleton.mp hmem
  obtain rfl := List.prefix_nil.mp hnone
  -- nothing else in the visit is a creation, so the two divisions of it are one
  rw [List.cons_append, List.singleton_append, List.append_cons,
    List.append_cons_inj_of_notMem (by simpa [readRequest] using hopening) hadded] at hmade
  obtain ⟨rfl, hcreate, -⟩ := hmade
  cases hcreate
  exact List.getLast?_concat

/-- What holds of every visit on a server whose connections are not refused as missing holds of the visits
of a run. -/
theorem forall_visits {P : Visit → Prop} (hknown : s.server.ConnectionKnown)
    (hP : ∀ s : State, s.server.ConnectionKnown → ∀ step, P (visit settings step s))
    (steps : List Step) : ∀ v ∈ visits settings steps s, P v := by
  induction steps generalizing s with
  | nil => exact fun v hv => nomatch hv
  | cons step steps ih =>
    rw [visits, List.forall_mem_cons]
    exact ⟨hP s hknown step, ih (perform_known hknown settings step)⟩

theorem steps_visits (settings : Settings) (steps : List Step) (s : State) :
    (visits settings steps s).map Visit.step = steps := by
  induction steps generalizing s with
  | nil => rfl
  | cons step steps ih => exact congrArg (step :: ·) (ih _)

/-- Nothing is kept where the last visit of a run ended the session. -/
theorem held_of_last {steps : List Step} {v : Visit}
    (hlast : (visits settings steps s).getLast? = some v) (hv : v.EndsSession) (item : String) :
    held item (run settings steps s).2 = 0 := by
  induction steps generalizing s with
  | nil => cases hlast
  | cons step steps ih =>
    cases steps with
    | nil =>
      obtain rfl : visit settings step s = v := Option.some.inj hlast
      exact held_of_ends hv item
    | cons next steps =>
      rw [visits, visits, List.getLast?_cons_cons] at hlast
      exact ih hlast

/-- **Documents are read no more than needed.**  In any run of a store that was just opened, on a server
with any plan of faults in which no connection is refused as missing, the visits have all requests.  Each
operation makes its requests in order, every one at most once and for its own item; a secret is created
right after the read that found no version.  Between two ends of the session, or from the opening on, an
item is read at most once more than operations on it failed. -/
theorem reads_bounded (settings : Settings) {server : Server} (hknown : server.ConnectionKnown)
    (steps : List Step) :
    let vs := visits settings steps ⟨{}, server⟩
    (vs.map Visit.step = steps ∧ (run settings steps ⟨{}, server⟩).2.server.requests
        = server.requests ++ vs.flatMap Visit.made)
      ∧ (∀ v ∈ vs, ∀ op, v.step = .set op → Orderly settings op.item v.made)
      ∧ (∀ v ∈ vs, v.step = .logout → v.made <+: [.close])
      ∧ (∀ v ∈ vs, ∀ front parent id back, v.made = front ++ .create parent id :: back →
        front.getLast? = some (readRequest settings id))
      ∧ ∀ before within after, vs = before ++ (within ++ after) →
        (∀ v ∈ before.getLast?, v.EndsSession) → (∀ v ∈ within, ¬ v.EndsSession) →
        ∀ item, readsOf settings item within ≤ failuresAt item within + 1 := by
  intro vs
  have hopened : (⟨{}, server⟩ : State).server.ConnectionKnown := hknown
  have hlogout : ∀ s : State, (visit settings .logout s).made <+: [.close] := fun s => by
    obtain ⟨made, hmakes, hmade⟩ := logout_makes s
    rwa [visit_made settings hmakes]
  refine ⟨⟨steps_visits settings steps _, run_makes hopened steps⟩, ?_, ?_, ?_, ?_⟩
  · refine forall_visits hopened (fun s hs step op hstep => ?_) steps
    obtain rfl : step = .set op := hstep
    exact visit_orderly hs
  · refine forall_visits hopened (fun s hs step hstep => ?_) steps
    obtain rfl : step = .logout := hstep
    exact hlogout s
  · refine forall_visits hopened (fun s hs step front parent id back hmade => ?_) steps
    cases step with
    | set op => exact (visit_orderly hs).read_before hmade
    | logout =>
      have hmem : .create parent id ∈ (visit settings .logout s).made :=
        hmade ▸ List.mem_append_right front List.mem_cons_self
      cases List.mem_singleton.mp ((hlogout s).subset hmem)
  · intro before within after hvs hbefore hwithin item
    obtain ⟨early, late, -, hearly, hlate⟩ := exists_of_visits_append hvs
    obtain ⟨middle, rest, -, rfl, -⟩ := exists_of_visits_append hlate
    -- nothing is kept when the session begins
    have hheld : held item (run settings early ⟨{}, server⟩).2 = 0 := by
      cases hlast : before.getLast? with
      | none =>
        rw [List.getLast?_eq_none_iff] at hlast
        rw [hlast, ← List.map_eq_nil_iff (f := Visit.step), steps_visits] at hearly
        rw [hearly]
        rfl
      | some v => exact held_of_last (hearly ▸ hlast) (hbefore v hlast) item
    have hreads := visits_reads (run_known hopened settings early) hwithin item
    have hlast := held_le item (run settings middle (run settings early ⟨{}, server⟩).2).2
    omega

/-! ### A session with a failure -/

/-- A server with a secret, which refuses the first version that is sent. -/
def hesitantServer : Server where
  secrets := [("a", [[0x7B, 0x7D]])]
  plan := [⟨.add, some 1, .refused ⟨.serviceUnavailable, "try again"⟩⟩]

/-- Notes set three times between two ends of the session. -/
def hesitantSteps : List Step :=
  [.logout, .set ⟨"a", .notes "x"⟩, .set ⟨"a", .notes "x"⟩, .set ⟨"b", .notes "x"⟩, .logout]

/-- The session reads an item twice, and one of its operations failed: the bound is met. -/
theorem reads_bounded_hesitant :
    let settings : Settings := ⟨"p", none, true⟩
    let within := ((visits settings hesitantSteps ⟨{}, hesitantServer⟩).drop 1).take 3
    hesitantServer.ConnectionKnown ∧ (∀ v ∈ within, ¬ v.EndsSession)
      ∧ readsOf settings "a" within = 2 ∧ failuresAt "a" within = 1
      ∧ ∀ item, readsOf settings item within ≤ failuresAt item within + 1 := by
  intro settings within
  have hknown : hesitantServer.ConnectionKnown := by
    intro f hf hmethod
    rw [List.mem_singleton.mp hf] at hmethod
    cases hmethod
  have hstays : ∀ v ∈ within, ¬ v.EndsSession := by decide +kernel
  refine ⟨hknown, hstays, by decide +kernel, by decide +kernel, ?_⟩
  obtain ⟨-, -, -, -, hbound⟩ := reads_bounded settings hknown hesitantSteps
  exact hbound ((visits settings hesitantSteps ⟨{}, hesitantServer⟩).take 1) within
    (((visits settings hesitantSteps ⟨{}, hesitantServer⟩).drop 1).drop 3)
    (by rw [List.take_append_drop, List.take_append_drop]) (by decide +kernel) hstays

end Versioned

end SecretForge
