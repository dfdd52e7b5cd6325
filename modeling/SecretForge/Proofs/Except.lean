/-!
# Results that are values

A sequence of steps that can fail ends with a value only where each step does.  These lemmas take such
a result apart, from its end to its first step.

* `exists_of_bind_ok`, `exists_of_bind_error`, `mem_of_mapM_ok`, `exists_of_mapM_ok` — what a value or a
  failure comes from.
* `EndsAs`, `FailsAs` — a result whose failure is of one kind, and whose value is of another;
  `EndsAs.bind` passes from the steps to the whole.
-/

namespace SecretForge

variable {ε α β : Type} {x : Except ε α} {b : β}

theorem exists_of_bind_ok {f : α → Except ε β} (h : (x >>= f) = .ok b) :
    ∃ a, x = .ok a ∧ f a = .ok b := by
  cases x with
  | error e => cases h
  | ok a => exact ⟨a, rfl, h⟩

theorem exists_of_bind_error {f : α → Except ε β} {e : ε} (h : (x >>= f) = .error e) :
    x = .error e ∨ ∃ a, x = .ok a ∧ f a = .error e := by
  cases x with
  | error e' =>
    cases h
    exact .inl rfl
  | ok a => exact .inr ⟨a, rfl, h⟩

theorem exists_of_map_ok {f : α → β} (h : x.map f = .ok b) : ∃ a, x = .ok a ∧ f a = b := by
  cases x with
  | error e => cases h
  | ok a => exact ⟨a, rfl, Except.ok.inj h⟩

theorem ok_of_mapError_ok {δ : Type} {f : ε → δ} {a : α} (h : x.mapError f = .ok a) : x = .ok a := by
  cases x with
  | error e => cases h
  | ok a' =>
    cases h
    rfl

/-- A pass over a list that ends keeps what each member gives. -/
theorem mem_of_mapM_ok {f : α → Except ε β} {as : List α} {bs : List β} (h : as.mapM f = .ok bs)
    {a : α} (ha : a ∈ as) (hb : f a = .ok b) : b ∈ bs := by
  induction as generalizing bs with
  | nil => cases ha
  | cons a' as ih =>
    rw [List.mapM_cons] at h
    obtain ⟨b', hb', h⟩ := exists_of_bind_ok h
    obtain ⟨rest, hrest, h⟩ := exists_of_bind_ok h
    cases h
    rcases List.mem_cons.mp ha with rfl | ha
    · cases hb.symm.trans hb'
      exact List.mem_cons_self
    · exact List.mem_cons_of_mem _ (ih hrest ha)

/-- A pass over a list that ends has ended at each member. -/
theorem exists_of_mapM_ok {f : α → Except ε β} {as : List α} {bs : List β} (h : as.mapM f = .ok bs)
    {a : α} (ha : a ∈ as) : ∃ b, f a = .ok b := by
  induction as generalizing bs with
  | nil => cases ha
  | cons a' as ih =>
    rw [List.mapM_cons] at h
    obtain ⟨b', hb', h⟩ := exists_of_bind_ok h
    obtain ⟨rest, hrest, -⟩ := exists_of_bind_ok h
    rcases List.mem_cons.mp ha with rfl | ha
    · exact ⟨b', hb'⟩
    · exact ih hrest ha

/-- A pass over a list fails only with the failure of a member. -/
theorem exists_of_mapM_error {f : α → Except ε β} {as : List α} {e : ε}
    (h : as.mapM f = .error e) : ∃ a ∈ as, f a = .error e := by
  induction as with
  | nil => cases h
  | cons a as ih =>
    rw [List.mapM_cons] at h
    rcases exists_of_bind_error h with h | ⟨b, -, h⟩
    · exact ⟨a, List.mem_cons_self, h⟩
    rcases exists_of_bind_error h with h | ⟨bs, -, h⟩
    · obtain ⟨a', ha', h⟩ := ih h
      exact ⟨a', List.mem_cons_of_mem _ ha', h⟩
    · cases h

/-! ### How a result ends -/

/-- A failure is of one kind, and a value of another. -/
def EndsAs (F : ε → Prop) (Q : α → Prop) : Except ε α → Prop
  | .error e => F e
  | .ok a => Q a

/-- A failure is of a kind. -/
abbrev FailsAs (F : ε → Prop) (x : Except ε α) : Prop := EndsAs F (fun _ => True) x

namespace EndsAs

variable {F : ε → Prop} {Q : α → Prop} {R : β → Prop}

theorem pure {a : α} (h : Q a) : EndsAs F Q (Pure.pure a : Except ε α) := h

theorem given (a : α) : FailsAs F (Pure.pure a : Except ε α) := trivial

theorem error {e : ε} (h : F e) : EndsAs F Q (.error e : Except ε α) := h

theorem throw {e : ε} (h : F e) : EndsAs F Q (MonadExcept.throw e : Except ε α) := h

theorem anyway (x : Except ε α) : FailsAs (fun _ => True) x := by
  cases x <;> trivial

theorem bind {f : α → Except ε β} (hx : EndsAs F Q x) (hf : ∀ a, Q a → EndsAs F R (f a)) :
    EndsAs F R (x >>= f) := by
  cases x with
  | error e => exact hx
  | ok a => exact hf a hx

theorem map {f : α → β} (hx : EndsAs F Q x) (hf : ∀ a, Q a → R (f a)) : EndsAs F R (x.map f) := by
  cases x with
  | error e => exact hx
  | ok a => exact hf a hx

theorem mapError {δ : Type} {G : δ → Prop} {f : ε → δ} (hx : EndsAs F Q x) (hf : ∀ e, F e → G (f e)) :
    EndsAs G Q (x.mapError f) := by
  cases x with
  | error e => exact hf e hx
  | ok a => exact hx

theorem mono {Q' : α → Prop} (hx : EndsAs F Q x) (h : ∀ a, Q a → Q' a) : EndsAs F Q' x := by
  cases x with
  | error e => exact hx
  | ok a => exact h a hx

theorem imp {F' : ε → Prop} {Q' : α → Prop} (hx : EndsAs F Q x) (hF : ∀ e, F e → F' e)
    (hQ : ∀ a, Q a → Q' a) : EndsAs F' Q' x := by
  cases x with
  | error e => exact hF e hx
  | ok a => exact hQ a hx

theorem ite {c : Prop} [Decidable c] {y : Except ε α} (hx : EndsAs F Q x) (hy : EndsAs F Q y) :
    EndsAs F Q (if c then x else y) := by
  split
  · exact hx
  · exact hy

/-- A step that only gives up under a condition. -/
theorem guard {c : Prop} [Decidable c] {e : ε} {k : Unit → Except ε α} (h : F e)
    (hk : EndsAs F Q (k ())) :
    EndsAs F Q (if c then (MonadExcept.throw e : Except ε Unit) >>= k else k ()) :=
  ite (bind (Q := fun _ => False) (throw h) fun _ hf => hf.elim) hk

theorem mapM {f : α → Except ε β} {as : List α} (hf : ∀ a ∈ as, EndsAs F R (f a)) :
    EndsAs F (fun bs => ∀ b ∈ bs, R b) (as.mapM f) := by
  induction as with
  | nil => exact pure fun b hb => nomatch hb
  | cons a as ih =>
    rw [List.mapM_cons]
    refine bind (hf a List.mem_cons_self) fun b hb =>
      bind (ih fun a ha => hf a (List.mem_cons_of_mem _ ha)) fun bs hbs => pure fun c hc => ?_
    rcases List.mem_cons.mp hc with rfl | hc
    · exact hb
    · exact hbs c hc

theorem foldlM {f : β → α → Except ε β} {as : List α} {b : β} (hb : R b)
    (hf : ∀ b, R b → ∀ a ∈ as, EndsAs F R (f b a)) : EndsAs F R (as.foldlM f b) := by
  induction as generalizing b with
  | nil => exact pure hb
  | cons a as ih =>
    rw [List.foldlM_cons]
    exact bind (hf b hb a List.mem_cons_self) fun b hb =>
      ih hb fun b hb a ha => hf b hb a (List.mem_cons_of_mem _ ha)

/-- A pass over a list that fails does so at a member, and one that ends has ended at each member. -/
theorem mapM_each {G : α → ε → Prop} {P : α → Prop} {f : α → Except ε β} {as : List α}
    (hf : ∀ a ∈ as, EndsAs (G a) (fun _ => P a) (f a)) :
    EndsAs (fun e => ∃ a ∈ as, G a e) (fun _ => ∀ a ∈ as, P a) (as.mapM f) := by
  induction as with
  | nil => exact pure fun a ha => nomatch ha
  | cons a as ih =>
    rw [List.forall_mem_cons] at hf
    rw [List.mapM_cons]
    refine bind (hf.1.imp (fun e he => ⟨a, List.mem_cons_self, he⟩) fun _ h => h) fun _ ha =>
      bind ((ih hf.2).imp ?_ fun _ h => h) fun _ has => pure (List.forall_mem_cons.mpr ⟨ha, has⟩)
    rintro e ⟨a', ha', he⟩
    exact ⟨a', List.mem_cons_of_mem a ha', he⟩

theorem foldlM_each {G : α → ε → Prop} {P : α → Prop} {f : β → α → Except ε β} {as : List α} {b : β}
    (hf : ∀ b, ∀ a ∈ as, EndsAs (G a) (fun _ => P a) (f b a)) :
    EndsAs (fun e => ∃ a ∈ as, G a e) (fun _ => ∀ a ∈ as, P a) (as.foldlM f b) := by
  induction as generalizing b with
  | nil => exact pure fun a ha => nomatch ha
  | cons a as ih =>
    rw [List.foldlM_cons]
    have hrest := fun b => ih (b := b) fun b a' ha' => hf b a' (List.mem_cons_of_mem a ha')
    refine bind ((hf b a List.mem_cons_self).imp (fun e he => ⟨a, List.mem_cons_self, he⟩) fun _ h => h)
      fun b ha => (hrest b).imp ?_ fun _ has => List.forall_mem_cons.mpr ⟨ha, has⟩
    rintro e ⟨a', ha', he⟩
    exact ⟨a', List.mem_cons_of_mem a ha', he⟩

end EndsAs

end SecretForge
