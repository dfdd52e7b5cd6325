import SecretForge.Proofs.Store.Form
import SecretForge.Proofs.Store.Refinement

/-!
# Operations told from the secrets alone

On a server without faults there is nothing but the secrets that an operation could depend on: whether it
is done, and which version it adds, is a function of the secrets before it.  This function is written down
here without a session, and what follows from it for many operations is a matter of forms.  Operations on
different items do not meet, since the name of a secret is never the name of another item's secret.  An
operation is answered alike before and after any other operation.  So the operations that are done can be
told in advance, and the latest version of a secret is that of a form in which their values are set.

* `answered`, `addition` — how an operation ends, and the version that it adds.
* `after`, `afterAll` — the secrets after an operation, and after many.
* `Stored` — the form of the latest document of a secret.
* **`answered_after`** — an operation is answered alike at any time.
* **`latest_afterAll`** — the latest version of a secret after operations.
* **`isSome_afterAll`** — the secrets that are there after operations.
-/

namespace SecretForge.Versioned

open Server Document

/-- The secrets of a server, each with its versions. -/
abbrev Secrets := String → Option (List (List UInt8))

/-- The versions of a secret; one that is missing has none. -/
def versionsIn (V : Secrets) (id : String) : List (List UInt8) := (V id).getD []

section

variable (settings : Settings)

/-- Loading the document of an item calls for a secret of the item's name. -/
def Creates (V : Secrets) (item : String) : Prop :=
  allowsName item ∧ (versionsIn V (secretId settings item)).getLast? = none

instance (V : Secrets) (item : String) : Decidable (Creates settings V item) :=
  inferInstanceAs (Decidable (_ ∧ _))

/-- The secrets once the document of an item is loaded. -/
def opened (V : Secrets) (item : String) : Secrets := fun id =>
  if id = item ∧ Creates settings V item then some (versionsIn V id) else V id

/-- The secret of an item can be given a version once the document is loaded. -/
def Reachable (V : Secrets) (item : String) : Prop :=
  (V (secretId settings item)).isSome ∨ secretId settings item = item

instance (V : Secrets) (item : String) : Decidable (Reachable settings V item) :=
  inferInstanceAs (Decidable (_ ∨ _))

/-- The version that an operation adds, or why it is refused. -/
def addition (V : Secrets) (op : Operation) : Except StoreFailure (List UInt8) :=
  if !allowsName op.item then .error (.invalidName op.item)
  else match latest (versionsIn V (secretId settings op.item)) with
    | .error f => .error (.noDocument op.item f)
    | .ok d =>
      match (complete d).assign op.assignment with
      | .error f => .error f
      | .ok d' =>
        if Reachable settings V op.item then .ok d'.write
        else .error (.addRefused op.item ⟨.notFound, "no such secret"⟩)

def answered (V : Secrets) (op : Operation) : Except StoreFailure Unit :=
  (addition settings V op).map fun _ => ()

def accepts (V : Secrets) (op : Operation) : Bool := (answered settings V op).isOk

def after (V : Secrets) (op : Operation) : Secrets := fun id =>
  match addition settings V op with
  | .ok version =>
    if id = secretId settings op.item then some (versionsIn V id ++ [version])
    else opened settings V op.item id
  | .error _ => opened settings V op.item id

def afterAll (V : Secrets) (ops : List Operation) : Secrets := ops.foldl (after settings) V

end

variable {settings : Settings} {V : Secrets} {op op' : Operation} {item id : String}

/-! ### Secrets that are there -/

/-- A name that is allowed has no slash. -/
theorem slash_notMem_of_allowsName (h : allowsName item) : '/' ∉ item.toList := by
  have hname : ∀ {cs : List Char}, isName cs → '/' ∉ cs := fun {cs} h hmem => by
    simp only [isName, Bool.and_eq_true, List.all_eq_true] at h
    exact absurd (h.1.1 '/' hmem) (by decide)
  rw [allowsName, Bool.or_eq_true, Bool.and_eq_true, decide_eq_true_iff] at h
  rcases h with h | ⟨hlast, h⟩
  · exact hname h
  · rw [← List.dropLast_append_getLast? _ hlast, List.mem_append, not_or]
    exact ⟨hname h, by decide⟩

/-- A secret is created under the name of another item's secret for no item. -/
theorem eq_of_creates (h : Creates settings V item) {item' : String}
    (hid : secretId settings item' = item) : item' = item :=
  eq_of_secretId_eq (slash_notMem_of_allowsName h.1) hid

theorem versionsIn_opened : versionsIn (opened settings V item) id = versionsIn V id := by
  rw [versionsIn, opened]
  split <;> rfl

theorem isSome_opened :
    (opened settings V item id).isSome ↔ (V id).isSome ∨ id = item ∧ Creates settings V item := by
  rw [opened]
  split
  · next h => exact ⟨fun _ => .inr h, fun _ => rfl⟩
  · next h => exact ⟨.inl, fun h' => h'.resolve_right h⟩

theorem creates_of_opened (h : Creates settings (opened settings V item) item) :
    Creates settings V item := by
  rw [Creates, versionsIn_opened] at h
  exact h

theorem opened_of_not_creates (h : ¬ Creates settings V item) : opened settings V item = V :=
  funext fun _ => if_neg fun h' => h h'.2

theorem isSome_of_getLast? {version : List UInt8} (h : (versionsIn V id).getLast? = some version) :
    (V id).isSome := by
  cases hV : V id with
  | none =>
    rw [versionsIn, hV] at h
    cases h
  | some vs => rfl

theorem allowsName_of_addition {version : List UInt8} (h : addition settings V op = .ok version) :
    allowsName op.item := by
  rw [addition] at h
  split at h
  · cases h
  · next hname => simpa using hname

theorem reachable_of_addition {version : List UInt8} (h : addition settings V op = .ok version) :
    Reachable settings V op.item := by
  rw [addition] at h
  split at h
  · cases h
  split at h
  · cases h
  split at h
  · cases h
  split at h
  · assumption
  · cases h

theorem reachable_iff (hname : allowsName item) :
    Reachable settings V item ↔ (opened settings V item (secretId settings item)).isSome := by
  rw [isSome_opened, Reachable]
  refine ⟨fun h => ?_, Or.imp_right And.left⟩
  rcases h with h | h
  · exact .inl h
  · cases hlast : (versionsIn V (secretId settings item)).getLast? with
    | none => exact .inr ⟨h, hname, hlast⟩
    | some version => exact .inl (isSome_of_getLast? hlast)

theorem after_of_ok {version : List UInt8} (h : addition settings V op = .ok version) (id : String) :
    after settings V op id
      = if id = secretId settings op.item then some (versionsIn V id ++ [version])
        else opened settings V op.item id := by
  simp only [after, h]

theorem after_of_error {f : StoreFailure} (h : addition settings V op = .error f) :
    after settings V op = opened settings V op.item :=
  funext fun id => by simp only [after, h]

/-- A version is added to a secret that was there, or that was created for it. -/
theorem isSome_after : (after settings V op id).isSome ↔ (opened settings V op.item id).isSome := by
  cases hadd : addition settings V op with
  | error f => rw [after_of_error hadd]
  | ok version =>
    rw [after_of_ok hadd]
    split
    · next hid =>
      have hreachable := (reachable_iff (allowsName_of_addition hadd)).mp (reachable_of_addition hadd)
      exact ⟨fun _ => hid ▸ hreachable, fun _ => rfl⟩
    · rfl

theorem versionsIn_after : versionsIn (after settings V op) id
    = versionsIn V id ++ if id = secretId settings op.item then (addition settings V op).toOption.toList
      else [] := by
  cases hadd : addition settings V op with
  | ok version =>
    rw [versionsIn, after_of_ok hadd]
    split
    · rfl
    · rw [List.append_nil]
      exact versionsIn_opened
  | error f =>
    rw [after_of_error hadd, versionsIn_opened]
    split <;> exact (List.append_nil _).symm

theorem creates_of_after (h : Creates settings (after settings V op) item) :
    Creates settings V item := by
  have hlast := h.2
  rw [versionsIn_after, List.getLast?_eq_none_iff, List.append_eq_nil_iff] at hlast
  exact ⟨h.1, List.getLast?_eq_none_iff.mpr hlast.1⟩

theorem creates_of_afterAll {ops : List Operation}
    (h : Creates settings (afterAll settings V ops) item) : Creates settings V item := by
  induction ops generalizing V with
  | nil => exact h
  | cons op ops ih => exact creates_of_after (ih h)

theorem versionsIn_after_of_ne (h : id ≠ secretId settings op.item) :
    versionsIn (after settings V op) id = versionsIn V id := by
  rw [versionsIn_after, if_neg h, List.append_nil]

/-- An operation that is not done, or is done to another secret, adds no version. -/
theorem versionsIn_after_of_not (h : ¬ (accepts settings V op = true ∧ secretId settings op.item = id)) :
    versionsIn (after settings V op) id = versionsIn V id := by
  by_cases hid : id = secretId settings op.item
  · rw [versionsIn_after, if_pos hid]
    cases hadd : addition settings V op with
    | ok version => exact absurd ⟨by rw [accepts, answered, hadd]; rfl, hid.symm⟩ h
    | error f => exact List.append_nil _
  · exact versionsIn_after_of_ne hid

theorem reachable_after :
    Reachable settings (after settings V op) item ↔ Reachable settings V item := by
  rw [Reachable, isSome_after, isSome_opened, Reachable]
  refine ⟨?_, fun h => h.imp_left .inl⟩
  rintro ((h | ⟨hid, hcreates⟩) | h)
  · exact .inl h
  · exact .inr (hid.trans (eq_of_creates hcreates hid).symm)
  · exact .inr h

/-! ### Stored forms -/

/-- The latest document of a secret has no double in it. -/
def ExactAt (V : Secrets) (id : String) : Prop :=
  ∀ d, latest (versionsIn V id) = .ok d → Json.Exact (.object d)

/-- The latest document of a secret has the form, once the sections that it lacks are filled. -/
def Stored (V : Secrets) (id : String) (f : Form) : Prop :=
  ∃ (d : Document) (hd : Json.Exact (.object d)), latest (versionsIn V id) = .ok d
    ∧ f = Form.ofDocument d hd

variable {f g : Form}

theorem Stored.unique (h : Stored V id f) (h' : Stored V id g) : f = g := by
  obtain ⟨d, hd, hlatest, rfl⟩ := h
  obtain ⟨d', hd', hlatest', rfl⟩ := h'
  cases hlatest.symm.trans hlatest'
  rfl

theorem Stored.congr {W : Secrets} (h : Stored V id f) (hW : versionsIn W id = versionsIn V id) :
    Stored W id f := by
  rw [Stored, hW]
  exact h

/-- A form that was written is stored. -/
theorem stored_of_getLast? (h : (versionsIn V id).getLast? = some f.entries.write) : Stored V id f := by
  refine ⟨f.entries, f.exact, ?_, f.ofDocument_entries.symm⟩
  rw [latest, h]
  exact f.read_write

theorem Stored.exactAt (h : Stored V id f) : ExactAt V id := by
  obtain ⟨d, hd, hlatest, -⟩ := h
  intro d' hlatest'
  cases hlatest.symm.trans hlatest'
  exact hd

/-- An operation adds the stored form with its value set, if the form takes the value. -/
theorem Stored.addition (h : Stored V (secretId settings op.item) f) (hname : allowsName op.item) :
    addition settings V op = (f.answer op.assignment).bind fun _ =>
      if Reachable settings V op.item then .ok (f.put op.assignment).entries.write
      else .error (.addRefused op.item ⟨.notFound, "no such secret"⟩) := by
  obtain ⟨d, hd, hlatest, rfl⟩ := h
  obtain ⟨hanswer, hput⟩ := (Form.of_complete hd).assign op.assignment
  rw [Versioned.addition, ← hanswer]
  simp only [hname, Bool.not_true, Bool.false_eq_true, if_false, hlatest]
  cases hassign : (complete d).assign op.assignment with
  | error f => rfl
  | ok d' =>
    rw [← (hput d' hassign).write]
    rfl

/-- An operation is done if the stored form takes its value and the secret can be given a version. -/
theorem Stored.answered (h : Stored V (secretId settings op.item) f) (hname : allowsName op.item) :
    answered settings V op = (f.answer op.assignment).bind fun _ =>
      if Reachable settings V op.item then .ok ()
      else .error (.addRefused op.item ⟨.notFound, "no such secret"⟩) := by
  rw [Versioned.answered, h.addition hname]
  cases f.answer op.assignment with
  | error e => rfl
  | ok u =>
    simp only [Except.bind]
    split <;> rfl

/-- An operation that is done found a document. -/
theorem exists_stored (hexact : ExactAt V (secretId settings op.item)) (h : accepts settings V op) :
    ∃ f, Stored V (secretId settings op.item) f := by
  rw [accepts, answered, addition] at h
  split at h
  · cases h
  split at h
  · cases h
  · next d hlatest => exact ⟨_, d, hexact d hlatest, hlatest, rfl⟩

theorem allowsName_of_accepts (h : accepts settings V op) : allowsName op.item := by
  rw [accepts, answered] at h
  cases hadd : addition settings V op with
  | ok version => exact allowsName_of_addition hadd
  | error f => rw [hadd] at h; cases h

/-- **An operation that is done leaves the stored form with its value set.** -/
theorem Stored.after (h : Stored V (secretId settings op.item) f) (hdone : accepts settings V op) :
    (versionsIn (after settings V op) (secretId settings op.item)).getLast?
      = some (f.put op.assignment).entries.write := by
  have hadd := h.addition (allowsName_of_accepts hdone)
  rw [accepts, Versioned.answered] at hdone
  rw [versionsIn_after, if_pos rfl]
  rcases hresult : Versioned.addition settings V op with e | version
  · rw [hresult] at hdone
    cases hdone
  · rw [hadd] at hresult
    obtain ⟨-, -, hversion⟩ := exists_of_bind_ok hresult
    split at hversion
    · cases hversion
      exact List.getLast?_concat
    · cases hversion

/-- An operation leaves every latest document without doubles. -/
theorem ExactAt.after (h : ExactAt V id) : ExactAt (after settings V op) id := by
  by_cases hdone : accepts settings V op = true ∧ secretId settings op.item = id
  · obtain ⟨hdone, rfl⟩ := hdone
    obtain ⟨f, hf⟩ := exists_stored h hdone
    exact (stored_of_getLast? (hf.after hdone)).exactAt
  · rw [ExactAt, versionsIn_after_of_not hdone]
    exact h

theorem ExactAt.afterAll (h : ExactAt V id) (ops : List Operation) :
    ExactAt (afterAll settings V ops) id := by
  induction ops generalizing V with
  | nil => exact h
  | cons op ops ih => exact ih h.after

/-! ### Answers -/

/-- How an operation ends depends on the versions of its secret and on whether it can be given one. -/
theorem answered_congr {W : Secrets} (hversions : versionsIn W (secretId settings op.item)
      = versionsIn V (secretId settings op.item))
    (hreachable : Reachable settings W op.item ↔ Reachable settings V op.item) :
    answered settings W op = answered settings V op := by
  simp only [answered, addition, hversions, hreachable]

/-- **An operation is answered alike** before another operation and after it. -/
theorem answered_after (hexact : ExactAt V (secretId settings op.item)) (op' : Operation) :
    answered settings (after settings V op) op' = answered settings V op' := by
  by_cases hdone : accepts settings V op = true ∧ secretId settings op.item = secretId settings op'.item
  · obtain ⟨hdone, hid⟩ := hdone
    have hitem : op'.item = op.item := (secretId_injective settings hid).symm
    obtain ⟨f, hf⟩ := exists_stored hexact hdone
    have hname : allowsName op'.item := hitem ▸ allowsName_of_accepts hdone
    have hafter : Stored (after settings V op) (secretId settings op'.item) (f.put op.assignment) := by
      rw [hitem]
      exact stored_of_getLast? (hf.after hdone)
    rw [← hitem] at hf
    rw [hf.answered hname, hafter.answered hname, Form.answer_put]
    simp only [reachable_after]
  · exact answered_congr (versionsIn_after_of_not hdone) reachable_after

theorem accepts_after (hexact : ExactAt V (secretId settings op.item)) :
    accepts settings (after settings V op) = accepts settings V := by
  funext op'
  rw [accepts, answered_after hexact, accepts]

/-- **Operations are answered alike** before other operations and after them. -/
theorem answered_afterAll {ops : List Operation}
    (hexact : ∀ op ∈ ops, ExactAt V (secretId settings op.item)) (op' : Operation) :
    answered settings (afterAll settings V ops) op' = answered settings V op' := by
  induction ops generalizing V with
  | nil => rfl
  | cons op ops ih =>
    rw [List.forall_mem_cons] at hexact
    exact (ih fun o ho => (hexact.2 o ho).after).trans (answered_after hexact.1 op')

/-! ### Many operations -/

/-- The values that operations set in the documents of a secret. -/
def valuesFor (settings : Settings) (V : Secrets) (id : String) (ops : List Operation) :
    List Assignment :=
  assignmentsTo settings id (ops.filter (accepts settings V))

theorem valuesFor_cons (id : String) (ops : List Operation) :
    valuesFor settings V id (op :: ops)
      = if accepts settings V op = true ∧ secretId settings op.item = id
        then op.assignment :: valuesFor settings V id ops else valuesFor settings V id ops := by
  simp only [valuesFor, assignmentsTo, List.filter_filter]
  rw [List.filter_cons]
  simp only [Bool.and_eq_true, decide_eq_true_eq, and_comm]
  split <;> rfl

/-- **The latest version of a secret after operations**: as before, if none of them is done to it, or else
its stored form with the values of those that are. -/
theorem latest_afterAll {ops : List Operation}
    (hexact : ∀ op ∈ ops, ExactAt V (secretId settings op.item)) (id : String) :
    valuesFor settings V id ops = []
        ∧ versionsIn (afterAll settings V ops) id = versionsIn V id
      ∨ valuesFor settings V id ops ≠ [] ∧ ∃ f, Stored V id f
        ∧ (versionsIn (afterAll settings V ops) id).getLast?
          = some ((valuesFor settings V id ops).foldl Form.put f).entries.write := by
  induction ops generalizing V with
  | nil => exact .inl ⟨rfl, rfl⟩
  | cons op ops ih =>
    rw [List.forall_mem_cons] at hexact
    have hrest := ih (V := after settings V op) fun o ho => (hexact.2 o ho).after
    have hvalues : valuesFor settings (after settings V op) id ops = valuesFor settings V id ops := by
      rw [valuesFor, accepts_after hexact.1, valuesFor]
    rw [hvalues] at hrest
    by_cases hdone : accepts settings V op = true ∧ secretId settings op.item = id
    · obtain ⟨hdone, rfl⟩ := hdone
      obtain ⟨f, hf⟩ := exists_stored hexact.1 hdone
      rw [valuesFor_cons, if_pos ⟨hdone, rfl⟩]
      have hlast := hf.after hdone
      refine .inr ⟨List.cons_ne_nil _ _, f, hf, ?_⟩
      rw [List.foldl_cons]
      rcases hrest with ⟨hnone, hsame⟩ | ⟨-, g, hg, hlater⟩
      · rw [hnone, List.foldl_nil, ← hlast]
        exact congrArg List.getLast? hsame
      · rw [(stored_of_getLast? hlast).unique hg]
        exact hlater
    · have hsame := versionsIn_after_of_not hdone
      rw [valuesFor_cons, if_neg hdone]
      rcases hrest with ⟨hnone, hlater⟩ | ⟨hsome, g, hg, hlater⟩
      · exact .inl ⟨hnone, hlater.trans hsame⟩
      · exact .inr ⟨hsome, g, hg.congr hsame.symm, hlater⟩

/-- **The secrets that are there after operations** are those that were there, and those that loading the
documents of the items calls for. -/
theorem isSome_afterAll (ops : List Operation) (id : String) :
    (afterAll settings V ops id).isSome
      ↔ (V id).isSome ∨ ∃ op ∈ ops, id = op.item ∧ Creates settings V op.item := by
  induction ops generalizing V with
  | nil => simp [afterAll]
  | cons op ops ih =>
    have hcreates : ∀ {item}, item ≠ op.item →
        (Creates settings (after settings V op) item ↔ Creates settings V item) := fun hne => by
      rw [Creates, versionsIn_after_of_ne fun h => hne (secretId_injective settings h), Creates]
    refine (ih (V := after settings V op)).trans ?_
    rw [isSome_after, isSome_opened]
    constructor
    · rintro ((h | ⟨rfl, h⟩) | ⟨o, ho, rfl, h⟩)
      · exact .inl h
      · exact .inr ⟨op, List.mem_cons_self, rfl, h⟩
      · exact .inr ⟨o, List.mem_cons_of_mem _ ho, rfl, creates_of_after h⟩
    · rintro (h | ⟨o, ho, rfl, h⟩)
      · exact .inl (.inl h)
      · by_cases hitem : o.item = op.item
        · exact .inl (.inr ⟨hitem, hitem ▸ h⟩)
        · refine .inr ⟨o, (List.mem_cons.mp ho).resolve_left fun heq => hitem (heq ▸ rfl), rfl, ?_⟩
          exact (hcreates hitem).mpr h

end SecretForge.Versioned
