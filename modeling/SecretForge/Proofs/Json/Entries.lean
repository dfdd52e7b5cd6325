import Mathlib.Data.List.Sort
import SecretForge.Json.Write

/-!
# The entries of an object

An object is looked up by key, so two lists of entries with the same lookups stand for one object.
Writing a document sorts the entries of every object; that changes no lookup, except that the value
found is sorted too, and sorting a second time changes nothing.

* `find?_put`, `find?_putNew` — what is found after a change.
* `find?_eq_some_iff` — with distinct keys, a lookup says which entries there are.
* **`find?_sortedEntries`** — what is found in the sorted entries; `sorted_sorted` says that sorting
  is settled after the first time.
* **`sortedEntries_congr`** — the lookups settle the sorted entries.
-/

namespace SecretForge.Json

def keys (es : List (CodePoints × Json)) : List CodePoints := es.map (·.1)

@[simp] theorem keys_nil : keys [] = [] := rfl

@[simp] theorem keys_cons (k : CodePoints) (v : Json) (es : List (CodePoints × Json)) :
    keys ((k, v) :: es) = k :: keys es := rfl

variable {k : CodePoints} {v : Json} {es : List (CodePoints × Json)}

/-! ### Looking up -/

theorem find?_eq_none_iff : find? k es = none ↔ k ∉ keys es := by
  induction es with
  | nil => simp [find?]
  | cons e es ih =>
    obtain ⟨k', v'⟩ := e
    rw [find?, keys_cons, List.mem_cons, not_or, ← ih]
    by_cases h : k' = k
    · simp [h]
    · simp [h, Ne.symm h]

theorem mem_of_find? (h : find? k es = some v) : (k, v) ∈ es := by
  induction es with
  | nil => cases h
  | cons e es ih =>
    obtain ⟨k', v'⟩ := e
    rw [find?] at h
    split at h
    · next hk =>
      cases h
      exact hk ▸ List.mem_cons_self
    · exact List.mem_cons_of_mem _ (ih h)

/-- With distinct keys, a lookup says which entries there are. -/
theorem find?_eq_some_iff (hes : (keys es).Nodup) : find? k es = some v ↔ (k, v) ∈ es := by
  refine ⟨mem_of_find?, fun h => ?_⟩
  induction es with
  | nil => cases h
  | cons e es ih =>
    obtain ⟨k', v'⟩ := e
    rw [keys_cons, List.nodup_cons] at hes
    rw [find?]
    rcases List.mem_cons.mp h with heq | hmem
    · cases heq
      rw [if_pos rfl]
    · have hne : k' ≠ k := fun hk => hes.1 (hk ▸ List.mem_map_of_mem (f := (·.1)) hmem)
      rw [if_neg hne, ih hes.2 hmem]

/-- Lookups in two lists of the same entries agree. -/
theorem find?_perm {es' : List (CodePoints × Json)} (hes : (keys es).Nodup) (h : es.Perm es') :
    find? k es = find? k es' := by
  have hes' : (keys es').Nodup := (h.map Prod.fst).nodup_iff.mp hes
  apply Option.ext
  intro v
  rw [find?_eq_some_iff hes, find?_eq_some_iff hes', h.mem_iff]

theorem find?_map (f : Json → Json) :
    find? k (es.map fun e => (e.1, f e.2)) = (find? k es).map f := by
  induction es with
  | nil => rfl
  | cons e es ih =>
    rw [List.map_cons, find?, find?, ih]
    split <;> rfl

/-! ### Putting in -/

variable {key : CodePoints}

theorem find?_put :
    find? k (put key v es) = if key = k then some v else find? k es := by
  induction es with
  | nil => rfl
  | cons e es ih =>
    obtain ⟨k', v'⟩ := e
    rw [put]
    by_cases hk : k' = key
    · subst hk
      rw [if_pos rfl, find?, find?]
      split <;> rfl
    · rw [if_neg hk, find?, find?, ih]
      by_cases h : k' = k
      · rw [if_pos h, if_pos h, if_neg fun h' => hk (h.trans h'.symm)]
      · rw [if_neg h, if_neg h]

theorem find?_putNew :
    find? k (putNew key v es) = (find? k es).or (if key = k then some v else none) := by
  rw [putNew]
  by_cases hk : key = k
  · subst hk
    rw [if_pos rfl]
    cases h : find? key es with
    | none => rw [if_neg (by simp), find?_put, if_pos rfl]; rfl
    | some w => rw [if_pos (by simp), h]; rfl
  · rw [if_neg hk, Option.or_none]
    split
    · rfl
    · rw [find?_put, if_neg hk]

/-- A key that is not there comes last. -/
theorem put_of_notMem (h : key ∉ keys es) : put key v es = es ++ [(key, v)] := by
  induction es with
  | nil => rfl
  | cons e es ih =>
    obtain ⟨k', v'⟩ := e
    rw [keys_cons, List.mem_cons, not_or] at h
    rw [put, if_neg (Ne.symm h.1), ih h.2, List.cons_append]

theorem keys_put_of_mem (h : key ∈ keys es) : keys (put key v es) = keys es := by
  induction es with
  | nil => cases h
  | cons e es ih =>
    obtain ⟨k', v'⟩ := e
    rw [put]
    by_cases hk : k' = key
    · rw [if_pos hk, keys_cons, keys_cons]
    · rw [keys_cons, List.mem_cons] at h
      rw [if_neg hk, keys_cons, keys_cons, ih (h.resolve_left (Ne.symm hk))]

theorem keys_put : keys (put key v es) = if key ∈ keys es then keys es else keys es ++ [key] := by
  split
  · next h => exact keys_put_of_mem h
  · next h =>
    rw [put_of_notMem h]
    exact List.map_append

theorem nodup_put (hes : (keys es).Nodup) : (keys (put key v es)).Nodup := by
  rw [keys_put]
  split
  · exact hes
  · next h => exact List.nodup_append.mpr ⟨hes, List.nodup_singleton _, by grind⟩

theorem mem_put {e : CodePoints × Json} (h : e ∈ put key v es) : e ∈ es ∨ e = (key, v) := by
  induction es with
  | nil => exact .inr (List.mem_singleton.mp h)
  | cons e' es ih =>
    obtain ⟨k', v'⟩ := e'
    rw [put] at h
    split at h
    · next hk =>
      rcases List.mem_cons.mp h with rfl | hmem
      · exact .inr (by rw [hk])
      · exact .inl (List.mem_cons_of_mem _ hmem)
    · rcases List.mem_cons.mp h with rfl | hmem
      · exact .inl List.mem_cons_self
      · exact (ih hmem).imp_left (List.mem_cons_of_mem _)

/-! ### Sorting -/

theorem keyBefore_total (a b : CodePoints) : keyBefore a b = false ∨ keyBefore b a = false := by
  induction a generalizing b with
  | nil => cases b <;> simp [keyBefore]
  | cons x as ih =>
    cases b with
    | nil => simp [keyBefore]
    | cons y bs =>
      have := ih bs
      simp only [keyBefore, Bool.or_eq_false_iff, Bool.and_eq_false_iff, decide_eq_false_iff_not]
      grind

theorem keyBefore_trans {a b c : CodePoints} (hab : keyBefore b a = false)
    (hbc : keyBefore c b = false) : keyBefore c a = false := by
  induction a generalizing b c with
  | nil => cases c <;> rfl
  | cons x as ih =>
    cases b with
    | nil => cases hab
    | cons y bs =>
      cases c with
      | nil => cases hbc
      | cons z cs =>
        have := @ih bs cs
        simp only [keyBefore, Bool.or_eq_false_iff, Bool.and_eq_false_iff,
          decide_eq_false_iff_not] at hab hbc ⊢
        grind

/-- Keys neither of which comes before the other are the same. -/
theorem keyBefore_antisymm {a b : CodePoints} (hab : keyBefore a b = false)
    (hba : keyBefore b a = false) : a = b := by
  induction a generalizing b with
  | nil =>
    cases b with
    | nil => rfl
    | cons y bs => cases hab
  | cons x as ih =>
    cases b with
    | nil => cases hba
    | cons y bs =>
      have := @ih bs
      simp only [keyBefore, Bool.or_eq_false_iff, Bool.and_eq_false_iff,
        decide_eq_false_iff_not] at hab hba
      grind

/-- The order that sorting establishes between an entry and a later one. -/
def InOrder (a b : CodePoints × Json) : Prop := keyBefore b.1 a.1 = false

instance : DecidableRel InOrder := fun a b => inferInstanceAs (Decidable (keyBefore b.1 a.1 = false))

instance : Std.Total InOrder := ⟨fun a b => keyBefore_total b.1 a.1⟩

instance : IsTrans (CodePoints × Json) InOrder := ⟨fun _ _ _ => keyBefore_trans⟩

theorem insertSorted_eq (e : CodePoints × Json) : insertSorted e es = es.orderedInsert InOrder e := by
  induction es with
  | nil => rfl
  | cons e' es ih =>
    rw [insertSorted, List.orderedInsert_cons, ih]
    by_cases h : InOrder e e'
    · rw [if_pos h, if_neg (by rw [show keyBefore e'.1 e.1 = false from h]; decide)]
    · rw [if_neg h, if_pos (eq_true_of_ne_false h)]

theorem sortedEntries_eq (es : List (CodePoints × Json)) :
    sortedEntries es = (es.map fun e => (e.1, e.2.sorted)).insertionSort InOrder := by
  induction es with
  | nil => rfl
  | cons e es ih =>
    rw [sortedEntries, List.map_cons, List.insertionSort_cons, ← ih, insertSorted_eq]

theorem sortedItems_eq (vs : List Json) : sortedItems vs = vs.map sorted := by
  induction vs with
  | nil => rfl
  | cons v vs ih => rw [sortedItems, ih, List.map_cons]

theorem sortedEntries_perm (es : List (CodePoints × Json)) :
    (sortedEntries es).Perm (es.map fun e => (e.1, e.2.sorted)) := by
  rw [sortedEntries_eq]
  exact List.perm_insertionSort _ _

theorem keys_sortedEntries_perm (es : List (CodePoints × Json)) :
    (keys (sortedEntries es)).Perm (keys es) := by
  refine ((sortedEntries_perm es).map (·.1)).trans ?_
  rw [List.map_map]
  exact .refl _

theorem nodup_sortedEntries (hes : (keys es).Nodup) : (keys (sortedEntries es)).Nodup :=
  (keys_sortedEntries_perm es).nodup_iff.mpr hes

/-- **Sorting the entries changes no lookup, except that the value found is sorted.** -/
theorem find?_sortedEntries (hes : (keys es).Nodup) :
    find? k (sortedEntries es) = (find? k es).map sorted := by
  rw [find?_perm (nodup_sortedEntries hes) (sortedEntries_perm es), find?_map]

theorem pairwise_sortedEntries (es : List (CodePoints × Json)) :
    (sortedEntries es).Pairwise InOrder := by
  rw [sortedEntries_eq]
  exact List.pairwise_insertionSort _ _

mutual

/-- What is sorted stays as it is. -/
theorem sorted_sorted : ∀ v : Json, v.sorted.sorted = v.sorted
  | .null | .bool _ | .int _ | .float _ | .text _ => rfl
  | .list vs => by
    rw [sorted, sorted, sortedItems_eq (sortedItems vs), sortedItems_sorted vs]
  | .object es => by
    rw [sorted, sorted, sortedEntries_eq (sortedEntries es)]
    -- each value is sorted already, and so is the order of the keys
    have hvalues : (sortedEntries es).map (fun e => (e.1, e.2.sorted)) = sortedEntries es := by
      rw [List.map_congr_left (g := id), List.map_id]
      intro e he
      rw [(sortedEntries_perm es).mem_iff] at he
      exact Prod.ext rfl (values_sorted es e he)
    rw [hvalues, List.Pairwise.insertionSort_eq (pairwise_sortedEntries es)]

theorem sortedItems_sorted : ∀ vs : List Json, (sortedItems vs).map sorted = sortedItems vs
  | [] => rfl
  | v :: vs => by rw [sortedItems, List.map_cons, sorted_sorted v, sortedItems_sorted vs]

theorem values_sorted : ∀ (es : List (CodePoints × Json)),
    ∀ e ∈ es.map (fun e => (e.1, e.2.sorted)), e.2.sorted = e.2
  | [], _, h => by cases h
  | (k, v) :: es, e, h => by
    rcases List.mem_cons.mp h with rfl | hmem
    · exact sorted_sorted v
    · exact values_sorted es e hmem

end

/-- **Objects with the same lookups have the same sorted entries.** -/
theorem sortedEntries_congr {fs : List (CodePoints × Json)} (hes : (keys es).Nodup)
    (hfs : (keys fs).Nodup) (h : ∀ k, (find? k es).map sorted = (find? k fs).map sorted) :
    sortedEntries es = sortedEntries fs := by
  have hes' := nodup_sortedEntries hes
  have hfs' := nodup_sortedEntries hfs
  have hmem : ∀ e, e ∈ sortedEntries es ↔ e ∈ sortedEntries fs := fun ⟨k, v⟩ => by
    rw [← find?_eq_some_iff hes', ← find?_eq_some_iff hfs', find?_sortedEntries hes,
      find?_sortedEntries hfs, h]
  have hperm : (sortedEntries es).Perm (sortedEntries fs) :=
    (List.perm_ext_iff_of_nodup (.of_map _ hes') (.of_map _ hfs')).mpr hmem
  -- two entries in the same place of the order have one key, under which there is one value
  have hplace : ∀ e f, e ∈ sortedEntries es → f ∈ sortedEntries fs → InOrder e f → InOrder f e →
      e = f := by
    rintro ⟨k, v⟩ ⟨k', v'⟩ he hf hle hle'
    obtain rfl : k = k' := keyBefore_antisymm hle' hle
    rw [← hmem, ← find?_eq_some_iff hes'] at hf
    rw [← find?_eq_some_iff hes', hf] at he
    rw [Option.some.inj he]
  exact hperm.eq_of_pairwise hplace (pairwise_sortedEntries es) (pairwise_sortedEntries fs)

end SecretForge.Json
