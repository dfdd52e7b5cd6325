import SecretForge.Proofs.Store.Failure
import SecretForge.Proofs.Store.Refinement

/-!
# The names that reach the server

An item whose name cannot be the name of a secret is refused before anything is done for it, unless its
document is kept already.  No such document is ever kept, so the check cannot be passed by: whatever the
server does, all names that a session keeps or sends have been checked.  The check takes one text for a
name that is none: a name followed by a line feed.

* `LegalName` — the names that a secret can have; `TakenForName` — the texts that pass the check.
* `About` — the requests for the secret of an item; `Proper` — those that a session may make.
* `apply_sends` — an operation makes no requests but for its item.
* `Named` — a session that keeps and has sent nothing but certain names; `apply_named`, `logout_named` —
  every step preserves it.
* **`names_reach`** — which operations fail for their names, and which names are kept and sent.
-/

namespace SecretForge.Versioned

open Act Server

/-! ### Names -/

/-- The name of a secret: one to 255 letters, digits, underscores and hyphens. -/
def LegalName (item : String) : Prop :=
  (1 ≤ item.length ∧ item.length ≤ 255)
    ∧ ∀ c ∈ item.toList, ('a' ≤ c ∧ c ≤ 'z') ∨ ('A' ≤ c ∧ c ≤ 'Z') ∨ ('0' ≤ c ∧ c ≤ '9')
      ∨ c = '_' ∨ c = '-'

/-- A text that is taken for the name of a secret: a name, or one that is followed by a line feed. -/
def TakenForName (item : String) : Prop :=
  LegalName item ∨ ∃ name, LegalName name ∧ item = name ++ "\n"

theorem isNameChar_iff {c : Char} : isNameChar c ↔ ('a' ≤ c ∧ c ≤ 'z') ∨ ('A' ≤ c ∧ c ≤ 'Z')
    ∨ ('0' ≤ c ∧ c ≤ '9') ∨ c = '_' ∨ c = '-' := by
  have hlower : c.isLower ↔ 'a' ≤ c ∧ c ≤ 'z' := by
    show (decide ('a' ≤ c) && decide (c ≤ 'z')) ↔ _
    rw [Bool.and_eq_true, decide_eq_true_iff, decide_eq_true_iff]
  have hupper : c.isUpper ↔ 'A' ≤ c ∧ c ≤ 'Z' := by
    show decide ('A' ≤ c ∧ c ≤ 'Z') ↔ _
    rw [decide_eq_true_iff]
  have hdigit : c.isDigit ↔ '0' ≤ c ∧ c ≤ '9' := by
    show (decide ('0' ≤ c) && decide (c ≤ '9')) ↔ _
    rw [Bool.and_eq_true, decide_eq_true_iff, decide_eq_true_iff]
  have hchar : isNameChar c
      = (c.isUpper || c.isLower || c.isDigit || decide (c = '_') || decide (c = '-')) := rfl
  simp only [hchar, Bool.or_eq_true, decide_eq_true_iff, hlower, hupper, hdigit, or_assoc]
  exact or_left_comm

theorem isName_iff {item : String} : isName item.toList ↔ LegalName item := by
  simp only [isName, LegalName, Bool.and_eq_true, List.all_eq_true, isNameChar_iff,
    decide_eq_true_eq, String.length_toList]
  tauto

instance : DecidablePred LegalName := fun item => decidable_of_iff (isName item.toList) isName_iff

/-- **The check passes names, and names followed by a line feed.** -/
theorem allowsName_iff {item : String} : allowsName item ↔ TakenForName item := by
  rw [allowsName, Bool.or_eq_true, Bool.and_eq_true, decide_eq_true_iff, isName_iff, TakenForName]
  refine or_congr_right ⟨fun ⟨hlast, hname⟩ => ?_, ?_⟩
  · refine ⟨String.ofList item.toList.dropLast, ?_, ?_⟩
    · rwa [← isName_iff, String.toList_ofList]
    · rw [← String.toList_inj, String.toList_append, String.toList_ofList]
      exact (List.dropLast_append_getLast? _ hlast).symm
  · rintro ⟨name, hname, rfl⟩
    have hlist : (name ++ "\n").toList = name.toList ++ ['\n'] := String.toList_append
    rw [hlist, List.getLast?_concat, List.dropLast_concat]
    exact ⟨rfl, isName_iff.mpr hname⟩

/-! ### Requests -/

variable {settings : Settings} {items : String → Prop} {server : Server} {s : State} {op : Operation}
  {item : String}

def About (settings : Settings) (item : String) : Request → Prop
  | .access name => name = secretName settings item ++ "/versions/latest"
  | .create parent id => parent = "projects/" ++ settings.project ∧ id = item
  | .add parent _ => parent = secretName settings item
  | .client _ | .close => False

/-- The request opens or closes the connection, or is for the secret of one of the items. -/
def Proper (settings : Settings) (items : String → Prop) (r : Request) : Prop :=
  r = .client settings.credentials ∨ r = .close ∨ ∃ item, items item ∧ About settings item r

/-- The requests between two states are proper. -/
def SendsProper (settings : Settings) (items : String → Prop) (s t : State) : Prop :=
  Sends (Proper settings items) s.server t.server

theorem SendsProper.refl (s : State) : SendsProper settings items s s := Sends.refl _

theorem SendsProper.trans {s t u : State} (h : SendsProper settings items s t)
    (h' : SendsProper settings items t u) : SendsProper settings items s u := Sends.trans h h'

theorem sends_reading (h : items item) : KeptByReading settings item (SendsProper settings items) where
  refl := .refl
  trans := .trans
  connected s := .refl s
  client s := note_sends s.server (.inl rfl)
  access s := access_sends (.inr (.inr ⟨item, h, rfl⟩)) s.server
  create s := create_sends (.inr (.inr ⟨item, h, rfl, rfl⟩)) s.server

theorem load_sends (h : items item) : Leads (SendsProper settings items) (load settings item) := by
  intro s
  cases hkept : s.session.find? item with
  | some d =>
    rw [load_kept hkept]
    exact .refl s
  | none =>
    by_cases hname : allowsName item
    · rw [load_read hkept hname]
      refine Leads.bind .trans (sends_reading h).stored (fun _ => ?_) s
      exact .refl
    · rw [load_nameless hkept hname]
      exact .refl s

theorem save_sends (h : items item) (d : Document) :
    Leads (SendsProper settings items) (save settings item d) := by
  have hadd : Leads (SendsProper settings items)
      (request (Server.add (secretName settings item) d.write)) :=
    fun s => add_sends (.inr (.inr ⟨item, h, rfl⟩)) s.server
  refine .bind .trans (.attempt (.bind .trans (sends_reading h).connect fun _ => hadd)) fun r => ?_
  rcases r with (e | _ | _ | _) | _
  all_goals exact .refl

/-- **An operation makes no requests but for its item.** -/
theorem apply_sends (h : items op.item) : Leads (SendsProper settings items) (apply settings op) := by
  refine .bind .trans (fun s => ?_) fun _ => .bind .trans (load_sends h) fun d => ?_
  · obtain ⟨es, hannounce⟩ := announce_run settings op.assignment s
    rw [hannounce]
    exact .refl s
  · cases d.assign op.assignment with
    | error f => exact .refl
    | ok d' => exact .bind .trans .refl fun _ => save_sends h d'

theorem logout_sends : Leads (SendsProper settings items) logout := by
  intro s
  have hclose : Sends (Proper settings items) s.server s.server.close.2 :=
    note_sends s.server (.inr (.inl rfl))
  rw [logout, get_bind_run]
  by_cases hconnected : s.session.connected = true
  · rw [if_pos hconnected, bind_run_ok (attempt_run _ s), request_run]
    rcases hc : s.server.close with ⟨f | u, server⟩ <;> rw [hc] at hclose <;> exact hclose
  · rw [if_neg hconnected]
    exact .refl s

/-! ### What a session keeps and has sent -/

/-- An item that is not kept and has no name that is allowed changes nothing. -/
theorem apply_nameless (hkept : s.session.find? op.item = none) (hname : ¬ allowsName op.item) :
    (apply settings op s).result = .error (.failed (.invalidName op.item))
      ∧ (apply settings op s).state = s := by
  have hload : load settings op.item s = ⟨.error (.failed (.invalidName op.item)), [], s⟩ :=
    load_nameless hkept hname
  obtain ⟨_, happly⟩ := apply_unloaded hload
  rw [happly]
  exact ⟨rfl, rfl⟩

/-- An operation does not fail for a name that is allowed. -/
theorem apply_ne_invalidName (hname : allowsName op.item) (name : String) :
    (apply settings op s).result ≠ .error (.failed (.invalidName name)) := by
  intro h
  rcases apply_failures h with ⟨-, -, hrefused⟩ | hhindered | ⟨d, g, -, hassign, hg⟩
  · exact hrefused hname
  · generalize hf : Stop.failed (StoreFailure.invalidName name) = f at hhindered
    cases hhindered with
    | @passed p _ _ => cases hp : p.fault <;> rw [hp] at hf <;> cases hf
    | _ => cases hf
  · cases hg
    rcases Document.assign_ends d op.assignment with ⟨-, d', hassigned⟩ | ⟨-, g, hassigned, hg⟩ <;>
      cases hassign.symm.trans hassigned
    exact hg trivial

/-- Nothing is kept but documents of the items, and no requests were made but those that are proper. -/
structure Named (settings : Settings) (items : String → Prop) (server : Server) (s : State) : Prop where
  kept : ∀ item d, s.session.find? item = some d → items item
  sent : Sends (Proper settings items) server s.server

theorem Named.unkept (hs : Named settings items server s) (hitems : ∀ item, items item → allowsName item)
    (hname : ¬ allowsName item) : s.session.find? item = none :=
  Option.eq_none_iff_forall_ne_some.mpr fun d hkept => hname (hitems item (hs.kept item d hkept))

theorem exists_find?_of_mem {e : String × Document} (h : e ∈ s.session.kept) :
    ∃ d, s.session.find? e.1 = some d := by
  rw [← Option.isSome_iff_exists, Session.find?, Option.isSome_map, List.find?_isSome]
  exact ⟨e, h, decide_eq_true rfl⟩

/-- A store that was just opened has neither kept nor sent anything. -/
theorem named_start (settings : Settings) (items : String → Prop) (server : Server) :
    Named settings items server ⟨{}, server⟩ := ⟨nofun, .refl server⟩

/-- **An operation preserves it**, if its item is among the items or has no name that is allowed; and in
the second case it changes nothing. -/
theorem apply_named (hitems : ∀ item, items item → allowsName item)
    (hop : allowsName op.item → items op.item) (hs : Named settings items server s) :
    Named settings items server (apply settings op s).state := by
  by_cases hname : allowsName op.item
  · refine ⟨fun item d hd => ?_, hs.sent.trans (apply_sends (hop hname) s)⟩
    by_cases hitem : op.item = item
    · exact hitem ▸ hop hname
    · exact hs.kept item d (find?_apply_of_ne hitem ▸ hd)
  · rw [(apply_nameless (hs.unkept hitems hname) hname).2]
    exact hs

theorem logout_named (hs : Named settings items server s) :
    Named settings items server (logout s).state := by
  refine ⟨fun item d hd => ?_, hs.sent.trans (logout_sends s)⟩
  obtain ⟨-, hsession | hsession⟩ := logout_cases s <;> rw [hsession] at hd
  · exact hs.kept item d hd
  · cases hd

/-- **Every run preserves it.** -/
theorem run_named (hitems : ∀ item, items item → allowsName item) (steps : List Step)
    (hsteps : ∀ op, .set op ∈ steps → allowsName op.item → items op.item)
    (hs : Named settings items server s) : Named settings items server (run settings steps s).2 := by
  induction steps generalizing s with
  | nil => exact hs
  | cons step steps ih =>
    have hrest := fun op h => hsteps op (List.mem_cons_of_mem step h)
    cases step with
    | set op => exact ih hrest (apply_named hitems (hsteps op List.mem_cons_self) hs)
    | logout => exact ih hrest (logout_named hs)

/-- **Which names reach the server.** After any steps, on any server, an operation whose item has
neither a legal name nor one followed by a line feed fails for it and changes nothing, no request being
made; one whose item has such a name does not fail for it.  Such names have all items whose documents
are kept, and all that were ever sent to the server. -/
theorem names_reach (settings : Settings) (server : Server) (steps : List Step) (op : Operation) :
    let s := (run settings steps ⟨{}, server⟩).2
    let o := apply settings op s
    let items := fun item => TakenForName item ∧ ∃ earlier, .set earlier ∈ steps ∧ earlier.item = item
    (¬ TakenForName op.item →
        o.result = .error (.failed (.invalidName op.item)) ∧ o.state = s)
      ∧ (TakenForName op.item → ∀ name, o.result ≠ .error (.failed (.invalidName name)))
      ∧ (∀ e ∈ s.session.kept, items e.1)
      ∧ ∃ made, s.server.requests = server.requests ++ made ∧ ∀ r ∈ made, Proper settings items r := by
  intro s o items
  have hitems : ∀ item, items item → allowsName item := fun _ h => allowsName_iff.mpr h.1
  have hnamed : Named settings items server s :=
    run_named hitems steps (fun op hop hname => ⟨allowsName_iff.mp hname, op, hop, rfl⟩)
      (named_start settings items server)
  refine ⟨fun hname => ?_, fun hname => apply_ne_invalidName (allowsName_iff.mpr hname),
    fun e he => ?_, hnamed.sent⟩
  · rw [← allowsName_iff] at hname
    exact apply_nameless (hnamed.unkept hitems hname) hname
  · obtain ⟨d, hd⟩ := exists_find?_of_mem he
    exact hnamed.kept e.1 d hd

/-! ### A name with a line feed -/

/-- **A text that is no legal name can reach the server.** A name followed by a line feed passes the
check: a secret of this name is created and holds the notes, and the document is kept. -/
theorem line_feed_reaches :
    let o := apply ⟨"p", none, true⟩ ⟨"a\n", .notes "n"⟩ ⟨{}, {}⟩
    ¬ LegalName "a\n" ∧ o.result = .ok () ∧ .create "projects/p" "a\n" ∈ o.state.server.requests
      ∧ o.state.session.kept.map (·.1) = ["a\n"] := by
  decide +kernel

end SecretForge.Versioned
