import SecretForge.Trace

/-!
# Running computations that leave a trace

How a computation built from smaller ones runs from a state: the steps that touch nothing disappear,
the others hand their state and their events on.  A proof about a run rewrites with these lemmas and
does not open the definition of `Act`.

* `bind_run_ok`, `bind_run_error` — a sequence runs its second part from where the first one ended.
* `Leads` — every run goes from a state to a related one; a relation that is reflexive and transitive
  passes from the parts of a computation to the whole.
* `Emits` — the trace of every run has a property; a property that `Joins` passes from the parts of a
  computation to the whole.
* `Yields` — every value that a run ends with has a property.
* `FailsOnly` — every run from a certain state fails in one way only, and ends in such a state.
-/

namespace SecretForge.Act

variable {σ ε δ α β : Type}

@[simp] theorem pure_run (a : α) (s : σ) :
    (Pure.pure a : Act σ ε α) s = ⟨.ok a, [], s⟩ := rfl

@[simp] theorem fail_run (e : ε) (s : σ) : (Act.fail e : Act σ ε α) s = ⟨.error e, [], s⟩ := rfl

@[simp] theorem get_run (s : σ) : (Act.get : Act σ ε σ) s = ⟨.ok s, [], s⟩ := rfl

@[simp] theorem set_run (s t : σ) : (Act.set t : Act σ ε Unit) s = ⟨.ok (), [], t⟩ := rfl

@[simp] theorem modify_run (f : σ → σ) (s : σ) :
    (Act.modify f : Act σ ε Unit) s = ⟨.ok (), [], f s⟩ := rfl

@[simp] theorem emit_run (e : Event) (s : σ) : (Act.emit e : Act σ ε Unit) s = ⟨.ok (), [e], s⟩ :=
  rfl

@[simp] theorem log_run (l : Level) (o : Origin) (m : String) (s : σ) :
    (Act.log l o m : Act σ ε Unit) s = ⟨.ok (), [.logged ⟨l, o, m⟩], s⟩ := rfl

/-- **A sequence runs its second part from where the first one ended.** -/
theorem bind_run_ok {x : Act σ ε α} {f : α → Act σ ε β} {s t : σ} {a : α} {es : List Event}
    (h : x s = ⟨.ok a, es, t⟩) :
    (x >>= f) s = ⟨(f a t).result, es ++ (f a t).events, (f a t).state⟩ := by
  show Act.bind x f s = _
  simp only [Act.bind, h]

/-- **A sequence ends with the failure of its first part.** -/
theorem bind_run_error {x : Act σ ε α} {f : α → Act σ ε β} {s t : σ} {e : ε} {es : List Event}
    (h : x s = ⟨.error e, es, t⟩) : (x >>= f) s = ⟨.error e, es, t⟩ := by
  show Act.bind x f s = _
  simp only [Act.bind, h]

/-- `bind_run_ok` from the result of the first part alone. -/
theorem bind_run_of_result {x : Act σ ε α} {f : α → Act σ ε β} {s : σ} {a : α}
    (h : (x s).result = .ok a) :
    (x >>= f) s
      = ⟨(f a (x s).state).result, (x s).events ++ (f a (x s).state).events,
          (f a (x s).state).state⟩ :=
  bind_run_ok (by rw [← h])

/-- `bind_run_error` from the result of the first part alone. -/
theorem bind_run_of_failure {x : Act σ ε α} {f : α → Act σ ε β} {s : σ} {e : ε}
    (h : (x s).result = .error e) : (x >>= f) s = ⟨.error e, (x s).events, (x s).state⟩ :=
  bind_run_error (by rw [← h])

/-- A sequence ends as its second part does that runs from where the first one ended. -/
theorem bind_result (x : Act σ ε α) (f : α → Act σ ε β) (s : σ) :
    ((x >>= f) s).result = (x s).result >>= fun a => (f a (x s).state).result := by
  rcases h : x s with ⟨e | a, es, t⟩
  · rw [bind_run_error h]
    rfl
  · rw [bind_run_ok h]
    rfl

/-- What follows a computation and keeps the state does not change where it ends. -/
theorem bind_state {x : Act σ ε α} {f : α → Act σ ε β} (hf : ∀ a s, (f a s).state = s) (s : σ) :
    ((x >>= f) s).state = (x s).state := by
  rcases h : x s with ⟨e | a, es, t⟩
  · rw [bind_run_error h]
  · rw [bind_run_ok h]
    exact hf a t

@[simp] theorem pure_bind_run (a : α) (f : α → Act σ ε β) (s : σ) :
    ((Pure.pure a : Act σ ε α) >>= f) s = f a s := bind_run_ok rfl

@[simp] theorem fail_bind_run (e : ε) (f : α → Act σ ε β) (s : σ) :
    ((Act.fail e : Act σ ε α) >>= f) s = ⟨.error e, [], s⟩ := bind_run_error rfl

@[simp] theorem get_bind_run (f : σ → Act σ ε β) (s : σ) : (Act.get >>= f) s = f s s :=
  bind_run_ok rfl

@[simp] theorem set_bind_run (t : σ) (f : Unit → Act σ ε β) (s : σ) :
    (Act.set t >>= f) s = f () t := bind_run_ok rfl

@[simp] theorem modify_bind_run (g : σ → σ) (f : Unit → Act σ ε β) (s : σ) :
    (Act.modify g >>= f) s = f () (g s) := bind_run_ok rfl

theorem emit_bind_run (e : Event) (f : Unit → Act σ ε β) (s : σ) :
    (Act.emit e >>= f) s = ⟨(f () s).result, e :: (f () s).events, (f () s).state⟩ :=
  bind_run_ok rfl

theorem log_bind_run (l : Level) (o : Origin) (m : String) (f : Unit → Act σ ε β) (s : σ) :
    (Act.log l o m >>= f) s
      = ⟨(f () s).result, .logged ⟨l, o, m⟩ :: (f () s).events, (f () s).state⟩ :=
  bind_run_ok rfl

theorem attempt_run (x : Act σ ε α) (s : σ) :
    (Act.attempt x : Act σ δ (Except ε α)) s = ⟨.ok (x s).result, (x s).events, (x s).state⟩ := rfl

theorem ofExcept_run (r : Except ε α) (s : σ) : Act.ofExcept r s = ⟨r, [], s⟩ := by
  cases r <;> rfl

/-- What a settled computation ends with, from what the computation ended with. -/
def settled : Except (Stop ε) α → Except Interrupted (Except ε α)
  | .ok a => .ok (.ok a)
  | .error (.failed e) => .ok (.error e)
  | .error .interrupted => .error .byUser

theorem settle_run (x : Act σ (Stop ε) α) (s : σ) :
    Act.settle x s = ⟨settled (x s).result, (x s).events, (x s).state⟩ := by
  rcases h : x s with ⟨r, es, t⟩
  rcases r with (e | _) | a <;> simp only [Act.settle, h, settled]

/-! ### What every run keeps -/

/-- Every run of the computation goes from a state to a related one. -/
def Leads (R : σ → σ → Prop) (x : Act σ ε α) : Prop := ∀ s, R s (x s).state

section

variable {R : σ → σ → Prop}

theorem Leads.bind {x : Act σ ε α} {f : α → Act σ ε β} (htrans : ∀ {s t u}, R s t → R t u → R s u)
    (hx : Leads R x) (hf : ∀ a, Leads R (f a)) : Leads R (x >>= f) := by
  intro s
  have hfirst := hx s
  rcases h : x s with ⟨e | a, es, t⟩
  · rw [bind_run_error h]
    rwa [h] at hfirst
  · rw [bind_run_ok h]
    rw [h] at hfirst
    exact htrans hfirst (hf a t)

theorem leads_of_state {x : Act σ ε α} (hrefl : ∀ s, R s s) (hx : ∀ s, (x s).state = s) :
    Leads R x := fun s => (hx s).symm ▸ hrefl s

theorem Leads.attempt {x : Act σ ε α} (hx : Leads R x) :
    Leads R (Act.attempt x : Act σ δ (Except ε α)) := fun s => by
  rw [attempt_run]
  exact hx s

end

/-! ### What every run leaves in its trace -/

/-- The property holds of the empty trace, and of two traces joined when it holds of each. -/
structure Joins (P : List Event → Prop) : Prop where
  nil : P []
  append : ∀ {es fs}, P es → P fs → P (es ++ fs)

/-- A property of every event joins. -/
theorem joins_forall (Q : Event → Prop) : Joins fun es => ∀ e ∈ es, Q e :=
  ⟨fun _ he => absurd he List.not_mem_nil,
    fun hes hfs e he => (List.mem_append.mp he).elim (hes e) (hfs e)⟩

/-- The trace of every run of the computation has the property. -/
def Emits (P : List Event → Prop) (x : Act σ ε α) : Prop := ∀ s, P (x s).events

section

variable {P : List Event → Prop}

theorem Emits.bind (hP : Joins P) {x : Act σ ε α} {f : α → Act σ ε β} (hx : Emits P x)
    (hf : ∀ a, Emits P (f a)) : Emits P (x >>= f) := by
  intro s
  have hfirst := hx s
  rcases h : x s with ⟨e | a, es, t⟩ <;> rw [h] at hfirst
  · rwa [bind_run_error h]
  · rw [bind_run_ok h]
    exact hP.append hfirst (hf a t)

/-- A computation without events. -/
theorem emits_of_silent (hP : Joins P) {x : Act σ ε α} (hx : ∀ s, (x s).events = []) : Emits P x :=
  fun s => (hx s).symm ▸ hP.nil

theorem Emits.pure (hP : Joins P) (a : α) : Emits P (Pure.pure a : Act σ ε α) :=
  emits_of_silent hP fun _ => rfl

theorem Emits.fail (hP : Joins P) (e : ε) : Emits P (Act.fail e : Act σ ε α) :=
  emits_of_silent hP fun _ => rfl

theorem Emits.ofExcept (hP : Joins P) (r : Except ε α) : Emits P (Act.ofExcept r : Act σ ε α) :=
  emits_of_silent hP fun s => by rw [ofExcept_run]

theorem Emits.emit {e : Event} (h : P [e]) : Emits P (Act.emit e : Act σ ε Unit) := fun _ => h

theorem Emits.attempt {x : Act σ ε α} (hx : Emits P x) :
    Emits P (Act.attempt x : Act σ δ (Except ε α)) := fun s => by
  rw [attempt_run]
  exact hx s

theorem Emits.settle {x : Act σ (Stop ε) α} (hx : Emits P x) : Emits P (Act.settle x) := fun s => by
  rw [settle_run]
  exact hx s

theorem Emits.within {τ : Type} {part : τ → σ} {put : σ → τ → τ} {x : Act σ ε α} (hx : Emits P x) :
    Emits P (x.within part put) := fun t => hx (part t)

end

/-! ### What every run ends with -/

/-- Every value that a run of the computation ends with has the property. -/
def Yields (V : α → Prop) (x : Act σ ε α) : Prop := ∀ s a, (x s).result = .ok a → V a

section

variable {V : α → Prop} {U : β → Prop}

theorem Yields.bind {x : Act σ ε α} {f : α → Act σ ε β} (hf : ∀ a, Yields U (f a)) :
    Yields U (x >>= f) := by
  intro s b hb
  rcases h : x s with ⟨e | a, es, t⟩
  · rw [bind_run_error h] at hb
    cases hb
  · rw [bind_run_ok h] at hb
    exact hf a t b hb

theorem Yields.pure {a : α} (h : V a) : Yields V (Pure.pure a : Act σ ε α) :=
  fun _ _ ha => Except.ok.inj ha ▸ h

theorem Yields.fail (e : ε) : Yields V (Act.fail e : Act σ ε α) := fun _ _ ha => nomatch ha

end

/-! ### What every run fails with -/

/-- Every run of the computation from a state with the one property ends in such a state, and its failure,
if it fails, has the other. -/
def FailsOnly (I : σ → Prop) (F : ε → Prop) (x : Act σ ε α) : Prop :=
  ∀ s, I s → I (x s).state ∧ ∀ e, (x s).result = .error e → F e

section

variable {I : σ → Prop} {F : ε → Prop} {G : δ → Prop}

theorem FailsOnly.bind {x : Act σ ε α} {f : α → Act σ ε β} (hx : FailsOnly I F x)
    (hf : ∀ a, FailsOnly I F (f a)) : FailsOnly I F (x >>= f) := by
  intro s hs
  have hfirst := hx s hs
  rcases h : x s with ⟨e | a, es, t⟩ <;> rw [h] at hfirst
  · rw [bind_run_error h]
    exact ⟨hfirst.1, fun e' he => hfirst.2 e' (Except.error.inj he ▸ rfl)⟩
  · rw [bind_run_ok h]
    exact hf a t hfirst.1

/-- A computation that does not fail, and whose state keeps the property. -/
theorem failsOnly_of_ok {x : Act σ ε α} (hstate : ∀ s, I s → I (x s).state)
    (hok : ∀ s, ∃ a, (x s).result = .ok a) : FailsOnly I F x := fun s hs =>
  ⟨hstate s hs, fun e he => by
    obtain ⟨a, ha⟩ := hok s
    cases ha.symm.trans he⟩

theorem FailsOnly.pure (a : α) : FailsOnly I F (Pure.pure a : Act σ ε α) :=
  failsOnly_of_ok (fun _ hs => hs) fun _ => ⟨a, rfl⟩

theorem FailsOnly.fail {e : ε} (h : F e) : FailsOnly I F (Act.fail e : Act σ ε α) := fun _ hs =>
  ⟨hs, fun _ he => Except.error.inj he ▸ h⟩

theorem FailsOnly.log (l : Level) (o : Origin) (m : String) :
    FailsOnly I F (Act.log l o m : Act σ ε Unit) := failsOnly_of_ok (fun _ hs => hs) fun _ => ⟨(), rfl⟩

/-- What follows an attempt is given a value or a failure of the one kind, and fails with the other. -/
theorem FailsOnly.attempt_bind {x : Act σ ε α} {f : Except ε α → Act σ δ β} (hx : FailsOnly I F x)
    (hf : ∀ r, (∀ e, r = .error e → F e) → FailsOnly I G (f r)) :
    FailsOnly I G (Act.attempt x >>= f) := by
  intro s hs
  rw [bind_run_ok (attempt_run x s)]
  exact hf _ (hx s hs).2 _ (hx s hs).1

end

end SecretForge.Act
