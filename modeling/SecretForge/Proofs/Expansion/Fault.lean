import SecretForge.Json.Value
import SecretForge.Proofs.Except
import SecretForge.Proofs.Expansion.Product

/-!
# Templates that do not expand

A param whose values were not read from a config may hold any JSON value, and is iterated over as it
stands.  The expansion of a template looks at every param before it begins, and at the values of a param
only if there is an item to put them into; so it fails exactly when a param holds nothing to iterate
over, or when the values of a param are not all texts while every param before it has a value.

* `Reaches` — a member of a list with one property, behind members that all have another.
* `spread_error_iff`, `foldlM_spread_error_iff` — one param fails, and a row of params does.
* `Template.expand_error_iff` — a template fails.
* `Json.isAtomic`, `Json.iterated` — what a JSON value is iterated as; `Template.Fails` — the condition
  on the params of a template.
* **`expandAll_isolates`** — the templates that fail are left out and reported, each by its name; of the
  others all items are there, in order.
-/

namespace SecretForge

/-! ### The first obstacle in a row -/

section

variable {α : Type} {A B : α → Prop} {a : α} {as : List α}

/-- Some member of the list has the first property, and every member before it the second. -/
def Reaches (A B : α → Prop) (as : List α) : Prop :=
  ∃ before a after, as = before ++ a :: after ∧ A a ∧ ∀ b ∈ before, B b

theorem not_reaches_nil : ¬ Reaches A B [] := fun ⟨before, _, _, h, _⟩ => by
  cases before <;> cases h

theorem reaches_cons : Reaches A B (a :: as) ↔ A a ∨ B a ∧ Reaches A B as := by
  constructor
  · rintro ⟨- | ⟨b, before⟩, a', after, heq, ha, hbefore⟩
    · cases heq
      exact .inl ha
    · cases heq
      rw [List.forall_mem_cons] at hbefore
      exact .inr ⟨hbefore.1, before, a', after, rfl, ha, hbefore.2⟩
  · rintro (ha | ⟨ha, before, a', after, rfl, ha', hbefore⟩)
    · exact ⟨[], a, as, rfl, ha, fun _ hb => nomatch hb⟩
    · exact ⟨a :: before, a', after, rfl, ha', List.forall_mem_cons.mpr ⟨ha, hbefore⟩⟩

end

/-! ### Params that fail -/

namespace Range

def list : Range → List Choice
  | .choices cs => cs
  | .scalar _ => []

end Range

/-- Some choice is no text. -/
def Uneven (cs : List Choice) : Prop := ∃ kind, Choice.other kind ∈ cs

/-- Choices are texts unless some of them is none. -/
theorem exists_texts {cs : List Choice} (h : ¬ Uneven cs) :
    ∃ values : List String, cs = values.map .text := by
  induction cs with
  | nil => exact ⟨[], rfl⟩
  | cons c cs ih =>
    obtain ⟨values, rfl⟩ := ih fun ⟨kind, hkind⟩ => h ⟨kind, List.mem_cons_of_mem _ hkind⟩
    cases c with
    | text s => exact ⟨s :: values, rfl⟩
    | other kind => exact absurd ⟨kind, List.mem_cons_self⟩ h

/-- Putting choices into items fails exactly when there is an item and some choice is no text. -/
theorem spread_error_iff {param : String} {cs : List Choice} {items : List Item} :
    (∃ fault, spread param cs items = .error fault) ↔ items ≠ [] ∧ Uneven cs := by
  constructor
  · rintro ⟨fault, h⟩
    rw [spread] at h
    rcases exists_of_bind_error h with h | ⟨parts, -, h⟩
    · obtain ⟨item, hitem, h⟩ := exists_of_mapM_error h
      obtain ⟨c, hc, h⟩ := exists_of_mapM_error h
      cases c with
      | text s => cases h
      | other kind => exact ⟨List.ne_nil_of_mem hitem, kind, hc⟩
    · cases h
  · rintro ⟨hitems, kind, hkind⟩
    obtain ⟨item, hitem⟩ := List.exists_mem_of_ne_nil items hitems
    cases h : spread param cs items with
    | error fault => exact ⟨fault, rfl⟩
    | ok items' =>
      -- a result would hold what the choice that is no text gives in the first item
      rw [spread] at h
      obtain ⟨parts, hparts, -⟩ := exists_of_bind_ok h
      obtain ⟨part, hpart⟩ := exists_of_mapM_ok hparts hitem
      obtain ⟨_, hother⟩ := exists_of_mapM_ok hpart hkind
      cases hother

/-- A row of params fails exactly at a param with a choice that is no text, before which every param has
a choice. -/
theorem foldlM_spread_error_iff {α : Type} (name : α → String) (choices : α → List Choice)
    (ps : List α) (items : List Item) :
    (∃ fault, (ps.map fun p => (name p, choices p)).foldlM (fun items p => spread p.1 p.2 items) items
        = .error fault)
      ↔ items ≠ [] ∧ Reaches (fun p => Uneven (choices p)) (fun p => choices p ≠ []) ps := by
  induction ps generalizing items with
  | nil => exact iff_of_false (fun ⟨_, h⟩ => nomatch h) fun h => not_reaches_nil h.2
  | cons p ps ih =>
    rw [List.map_cons, List.foldlM_cons, reaches_cons]
    by_cases huneven : Uneven (choices p)
    · simp only [huneven, true_or, and_true]
      constructor
      · rintro ⟨fault, h⟩ rfl
        rw [show spread (name p) (choices p) [] = .ok [] from rfl] at h
        obtain ⟨hne, -⟩ := (ih []).mp ⟨fault, h⟩
        exact hne rfl
      · intro hitems
        obtain ⟨fault, h⟩ := spread_error_iff.mpr ⟨hitems, huneven⟩
        exact ⟨fault, by rw [h]; rfl⟩
    · obtain ⟨values, hvalues⟩ := exists_texts huneven
      simp only [huneven, false_or]
      rw [hvalues, spread_texts]
      refine (ih _).trans ?_
      rw [← and_assoc]
      refine and_congr_left fun _ => ?_
      cases items <;> cases values <;> simp

namespace Template

variable {ρ : Type} {range : ρ → Range}

/-- The ranges of the params are known unless one of them is a scalar. -/
theorem ranges_eq {t : Template ρ} (h : ∀ p ∈ t.params, ∀ kind, range p.2 ≠ .scalar kind) :
    t.ranges range = .ok (t.params.map fun p => (p.1, (range p.2).list)) := by
  rw [ranges]
  generalize t.params = params at h
  induction params with
  | nil => rfl
  | cons p params ih =>
    rw [List.forall_mem_cons] at h
    rw [List.mapM_cons, ih h.2]
    cases hrange : range p.2 with
    | scalar kind => exact absurd hrange (h.1 kind)
    | choices cs => rw [List.map_cons, hrange]; rfl

/-- **A template does not expand** exactly when some param ranges over a scalar, or when some choice of a
param is no text while every param before it has a choice. -/
theorem expand_error_iff (t : Template ρ) :
    (∃ fault, t.expand range = .error fault)
      ↔ (∃ p ∈ t.params, ∃ kind, range p.2 = .scalar kind)
        ∨ Reaches (fun p => Uneven (range p.2).list) (fun p => (range p.2).list ≠ []) t.params := by
  by_cases hscalar : ∃ p ∈ t.params, ∃ kind, range p.2 = .scalar kind
  · refine iff_of_true ?_ (.inl hscalar)
    obtain ⟨p, hp, kind, hkind⟩ := hscalar
    cases h : t.ranges range with
    | error fault => exact ⟨fault, by rw [expand, h]; rfl⟩
    | ok rs =>
      obtain ⟨_, hchoices⟩ := exists_of_mapM_ok h hp
      rw [hkind] at hchoices
      cases hchoices
  · rw [or_iff_right hscalar]
    have hranges : t.ranges range = .ok (t.params.map fun p => (p.1, (range p.2).list)) :=
      ranges_eq fun p hp kind hkind => hscalar ⟨p, hp, kind, hkind⟩
    have hfold := foldlM_spread_error_iff (fun p : String × ρ => p.1) (fun p => (range p.2).list)
      t.params [t.toItem]
    rw [and_iff_right (List.cons_ne_nil _ _)] at hfold
    rw [← hfold, expand, hranges]
    refine exists_congr fun fault => ⟨fun h => ?_, fun h => ?_⟩
    · rcases exists_of_bind_error h with h | ⟨rs, hrs, h⟩
      · cases h
      cases hrs
      rcases exists_of_bind_error h with h | ⟨items, -, h⟩
      · exact h
      · cases h
    · simp only [bind, Except.bind, h]

end Template

/-- The templates that fail and the others make up what the expansion of all comes to. -/
theorem expandedItems_blocks {ρ : Type} {range : ρ → Range} {P : Template ρ → Prop} [DecidablePred P]
    (hP : ∀ t, (∃ fault, t.expand range = .error fault) ↔ P t) (ts : List (Template ρ)) :
    ∃ blocks : List (List (Template (List String))), expandedItems range ts = blocks.flatten
      ∧ List.Forall₂ (fun t block => t.expand range = .ok block) (ts.filter fun t => ¬ P t) blocks
      ∧ List.Forall₂ (fun t failure => failure.item = t.name ∧ t.expand range = .error failure.fault)
        (ts.filter fun t => P t) (unexpanded range ts) := by
  induction ts with
  | nil => exact ⟨[], rfl, .nil, .nil⟩
  | cons t ts ih =>
    obtain ⟨blocks, hitems, hblocks, hfailures⟩ := ih
    cases h : t.expand range with
    | error fault =>
      have ht : P t := (hP t).mp ⟨fault, h⟩
      rw [expandedItems_cons_of_error h, unexpanded_cons_of_error h]
      refine ⟨blocks, hitems, ?_, ?_⟩
      · rwa [List.filter_cons_of_neg (by simpa using ht)]
      · rw [List.filter_cons_of_pos (by simpa using ht)]
        exact .cons ⟨rfl, h⟩ hfailures
    | ok items =>
      have ht : ¬ P t := fun ht => by
        obtain ⟨fault, hfault⟩ := (hP t).mpr ht
        cases h.symm.trans hfault
      rw [expandedItems_cons_of_ok h, unexpanded_cons_of_ok h]
      refine ⟨items :: blocks, by rw [hitems, List.flatten_cons], ?_, ?_⟩
      · rw [List.filter_cons_of_pos (by simpa using ht)]
        exact .cons h hblocks
      · rwa [List.filter_cons_of_neg (by simpa using ht)]

/-! ### Params that hold JSON values -/

namespace Json

/-- What a param ranges over that holds a JSON value. -/
def range (v : Json) : Range := .ofValue v.toValue

/-- Whether there is nothing to iterate over: null, booleans and numbers. -/
def isAtomic : Json → Bool
  | .null | .bool _ | .int _ | .float _ => true
  | .text _ | .list _ | .object _ => false

/-- What iterating over a value yields: the members of a list, the characters of a text and the keys of
an object. -/
def iterated : Json → List Json
  | .list items => items
  | .text s => s.map fun c => .text [c]
  | .object entries => entries.map fun e => .text e.1
  | .null | .bool _ | .int _ | .float _ => []

/-- The value is a text. -/
def IsText (v : Json) : Prop := ∃ s, v = .text s

theorem range_eq_scalar_iff (v : Json) : (∃ kind, v.range = .scalar kind) ↔ v.isAtomic = true := by
  cases v <;> simp [range, toValue, Range.ofValue, isAtomic]

theorem toValues_eq_map (vs : List Json) : toValues vs = vs.map toValue := by
  induction vs with
  | nil => rfl
  | cons v vs ih => rw [toValues, ih, List.map_cons]

theorem keys_toEntries (es : List (CodePoints × Json)) :
    (toEntries es).map Prod.fst = es.map fun e => Value.text (ofCodePoints e.1) := by
  induction es with
  | nil => rfl
  | cons e es ih => rw [toEntries, List.map_cons, ih, List.map_cons]

/-- The choices of a JSON value are what iterating over it yields. -/
theorem list_range (v : Json) : v.range.list = v.iterated.map fun w => Choice.ofValue w.toValue := by
  cases v with
  | null | bool | int | float => rfl
  | list items =>
    show (toValues items).map Choice.ofValue = _
    rw [toValues_eq_map, List.map_map]
    rfl
  | object entries =>
    show (toEntries entries).map (Choice.ofValue ∘ Prod.fst) = _
    rw [← List.map_map, keys_toEntries, iterated, List.map_map, List.map_map]
    rfl
  | text s =>
    show (ofCodePoints s).toList.map (fun c => Choice.text c.toString) = _
    rw [ofCodePoints, String.toList_ofList, iterated, List.map_map, List.map_map]
    rfl

theorem ofValue_eq_other_iff (v : Json) :
    (∃ kind, Choice.ofValue v.toValue = .other kind) ↔ ¬ v.IsText := by
  cases v <;> simp [toValue, Choice.ofValue, IsText]

theorem uneven_range_iff (v : Json) : Uneven v.range.list ↔ ∃ w ∈ v.iterated, ¬ w.IsText := by
  simp only [Uneven, list_range, List.mem_map, ← ofValue_eq_other_iff]
  constructor
  · rintro ⟨kind, w, hw, hkind⟩
    exact ⟨w, hw, kind, hkind⟩
  · rintro ⟨w, hw, kind, hkind⟩
    exact ⟨kind, w, hw, hkind⟩

end Json

/-- Some param holds nothing to iterate over; or iterating over one yields something that is no text,
while iterating over each param before it yields something. -/
def Template.Fails (t : Template Json) : Prop :=
  (∃ p ∈ t.params, p.2.isAtomic = true)
    ∨ Reaches (fun p => ∃ v ∈ p.2.iterated, ¬ v.IsText) (fun p => p.2.iterated ≠ []) t.params

theorem Template.fails_iff (t : Template Json) :
    (∃ fault, t.expand Json.range = .error fault) ↔ t.Fails := by
  have hsome (v : Json) : v.range.list ≠ [] ↔ v.iterated ≠ [] := by
    rw [Json.list_range, ne_eq, List.map_eq_nil_iff]
  simp only [expand_error_iff, Fails, Json.range_eq_scalar_iff, Json.uneven_range_iff, hsome]

open Classical in
/-- **A template that fails is left out and reported, and the others are unaffected.** The items of all
templates are those of the templates that do not fail, one block after the other, and there is one
failure for each of the others, in order, which names it. -/
theorem expandAll_isolates {σ ε : Type} (ts : List (Template Json)) (s : σ) :
    ∃ (blocks : List (List (Template (List String)))) (failures : List ExpansionFailure),
      ((expandAll Json.range ts : Act σ ε _) s).result = .ok (blocks.flatten, failures)
      ∧ List.Forall₂ (fun t block => t.expand Json.range = .ok block)
        (ts.filter fun t => ¬ t.Fails) blocks
      ∧ List.Forall₂ (fun t failure => failure.item = t.name ∧ t.expand Json.range = .error failure.fault
          ∧ failure.message = "error copying item " ++ t.name ++ ": " ++ failure.fault.message)
        (ts.filter fun t => t.Fails) failures := by
  obtain ⟨es, hrun⟩ := expandAll_run Json.range ts
  obtain ⟨blocks, hitems, hblocks, hfailures⟩ := expandedItems_blocks Template.fails_iff ts
  refine ⟨blocks, unexpanded Json.range ts, by rw [hrun s, hitems], hblocks, ?_⟩
  refine hfailures.imp fun t failure h => ⟨h.1, h.2, ?_⟩
  rw [← h.1]
  rfl

end SecretForge
