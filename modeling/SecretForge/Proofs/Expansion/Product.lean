import Mathlib.Data.List.Basic
import Mathlib.Data.List.Forall2
import Mathlib.Logic.ExistsUnique
import SecretForge.Expansion
import SecretForge.Proofs.Trace

/-!
# Expansion as a product

The params of a template that was read from a config range over texts.  A selection takes one value for
each of them, and the selections stand in the order in which the last param varies fastest.  Expanding
the template substitutes one selection after the other, so the items are counted by the product of the
numbers of values, and the index of an item spells its selection in the mixed radix of these numbers.

* `selections` — the selections in order; `mem_selections_iff` says that there are no others and none
  is left out.
* `expand_ofTexts` — the items are the template with each selection substituted.
* `expandedItems`, `unexpanded` — the items of the templates that expand, and the failures of the others;
  `expandAll_run` says that the expansion of all templates comes to these, whatever the state.
* `digit` — the position of a param's value in the selection at an index.
* **`expand_cross_product`** — how many items there are, and which one stands at each index.
-/

namespace SecretForge

/-- One value for each of some params, with their names. -/
abbrev Selection := List (String × String)

/-- The selections from the values of the params, in the order in which the last param varies
fastest. -/
def selections : List (String × List String) → List Selection
  | [] => [[]]
  | p :: params => p.2.flatMap fun v => (selections params).map ((p.1, v) :: ·)

def combinations : List (String × List String) → Nat
  | [] => 1
  | p :: params => p.2.length * combinations params

/-- The item with each value of a selection substituted, in order. -/
def Item.fill (s : Selection) (item : Item) : Item :=
  s.foldl (fun item c => item.substitute c.1 c.2) item

/-- The template with each value of a selection substituted, in order. -/
def Template.fill {ρ : Type} (s : Selection) (t : Template ρ) : Template ρ :=
  s.foldl (fun t c => t.substitute c.1 c.2) t

variable {params : List (String × List String)} {s : Selection}

/-! ### Substituting a selection -/

theorem Template.fill_eq {ρ : Type} (s : Selection) (t : Template ρ) :
    t.fill s = { t with toItem := t.toItem.fill s } := by
  induction s generalizing t with
  | nil => rfl
  | cons c s ih => exact ih (t.substitute c.1 c.2)

theorem Item.length_fields_fill (s : Selection) (item : Item) :
    (item.fill s).fields.length = item.fields.length := by
  induction s generalizing item with
  | nil => rfl
  | cons c s ih => exact (ih (item.substitute c.1 c.2)).trans (List.length_map _)

theorem Item.length_attachments_fill (s : Selection) (item : Item) :
    (item.fill s).attachments.length = item.attachments.length := by
  induction s generalizing item with
  | nil => rfl
  | cons c s ih => exact (ih (item.substitute c.1 c.2)).trans (List.length_map _)

/-! ### The items of a template -/

/-- One param turns every item into one item for each value. -/
theorem spread_texts (param : String) (values : List String) (items : List Item) :
    spread param (values.map .text) items
      = .ok (items.flatMap fun item => values.map fun v => item.substitute param v) := by
  have hitem : ∀ item : Item,
      ((values.map Choice.text).mapM fun c => return item.substitute param (← c.text?))
        = (Except.ok (values.map fun v => item.substitute param v)
          : Except RangeFault (List Item)) := by
    intro item
    rw [List.mapM_map]
    exact List.mapM_pure
  rw [spread]
  simp only [hitem]
  rw [show (items.mapM fun item => Except.ok (values.map fun v => item.substitute param v))
      = (Except.ok (items.map fun item => values.map fun v => item.substitute param v)
        : Except RangeFault (List (List Item))) from List.mapM_pure]
  rw [List.flatMap_def]
  rfl

/-- All params turn every item into one item for each selection. -/
theorem foldlM_spread (params : List (String × List String)) (items : List Item) :
    (params.map fun p => (p.1, p.2.map Choice.text)).foldlM
        (fun items p => spread p.1 p.2 items) items
      = .ok (items.flatMap fun item => (selections params).map fun s => item.fill s) := by
  induction params generalizing items with
  | nil =>
    rw [List.map_nil, List.foldlM_nil]
    exact congrArg Except.ok (List.flatMap_singleton' items).symm
  | cons p params ih =>
    rw [List.map_cons, List.foldlM_cons, spread_texts]
    refine (ih _).trans (congrArg Except.ok ?_)
    rw [List.flatMap_assoc]
    refine List.flatMap_congr fun item _ => ?_
    rw [selections, List.map_flatMap, List.flatMap_map]
    refine List.flatMap_congr fun v _ => ?_
    rw [List.map_map]
    rfl

/-- **The items of a template are the template with each selection substituted.** -/
theorem expand_ofTexts (t : Template (List String)) :
    t.expand Range.ofTexts = .ok ((selections t.params).map fun s => t.fill s) := by
  have hranges : t.ranges Range.ofTexts
      = .ok (t.params.map fun p => (p.1, p.2.map Choice.text)) := List.mapM_pure
  have hparams : ((t.params.map fun p => (p.1, p.2.map Choice.text)).map fun p =>
      (p.1, p.2.filterMap fun c => c.text?.toOption)) = t.params := by
    rw [List.map_map]
    refine (List.map_congr_left fun p _ => ?_).trans (List.map_id t.params)
    refine Prod.ext rfl ?_
    show (p.2.map Choice.text).filterMap _ = p.2
    rw [List.filterMap_map]
    exact List.filterMap_some
  rw [Template.expand, hranges]
  simp only [bind, Except.bind, foldlM_spread]
  refine congrArg Except.ok ?_
  rw [hparams, List.flatMap_singleton, List.map_map]
  exact List.map_congr_left fun s _ => (t.fill_eq s).symm

/-! ### Counting the selections -/

theorem length_selections (params : List (String × List String)) :
    (selections params).length = combinations params := by
  induction params with
  | nil => rfl
  | cons p params ih =>
    rw [selections, combinations]
    induction p.2 with
    | nil => exact (Nat.zero_mul _).symm
    | cons v values ihv =>
      rw [List.flatMap_cons, List.length_append, ihv, List.length_map, ih, List.length_cons,
        Nat.succ_mul, Nat.add_comm]

/-- A selection takes a value of every param, in order. -/
theorem mem_selections_iff :
    s ∈ selections params ↔ List.Forall₂ (fun c p => c.1 = p.1 ∧ c.2 ∈ p.2) s params := by
  induction params generalizing s with
  | nil => simp [selections]
  | cons p params ih =>
    rw [selections, List.mem_flatMap]
    constructor
    · rintro ⟨v, hv, hs⟩
      obtain ⟨s', hs', rfl⟩ := List.mem_map.mp hs
      exact .cons ⟨rfl, hv⟩ (ih.mp hs')
    · rintro (_ | ⟨⟨hname, hv⟩, hs⟩)
      exact ⟨_, hv, List.mem_map.mpr ⟨_, ih.mpr hs, by rw [← hname]⟩⟩

/-! ### Digits -/

/-- The position of the value of the `k`th param in the selection at an index: the digit of the index
whose weight is the number of selections from the params after it. -/
def digit (params : List (String × List String)) (i : Nat) (k : Fin params.length) : Nat :=
  i / combinations (params.drop (k + 1)) % params[k].2.length

theorem digit_zero (p : String × List String) (i : Nat) :
    digit (p :: params) i 0 = i / combinations params % p.2.length := rfl

/-- The weight of a param times the number of its values divides the number of selections. -/
theorem weight_mul_dvd (k : Fin params.length) :
    combinations (params.drop (k + 1)) * params[k].2.length ∣ combinations params := by
  induction params with
  | nil => exact k.elim0
  | cons p params ih =>
    cases k using Fin.cases with
    | zero =>
      rw [combinations, Nat.mul_comm]
      exact Nat.dvd_refl _
    | succ k => exact Nat.dvd_trans (ih k) (Nat.dvd_mul_left _ _)

/-- The digits after the first one are those of the remainder. -/
theorem digit_succ (p : String × List String) (i : Nat) (k : Fin params.length) :
    digit (p :: params) i k.succ = digit params (i % combinations params) k := by
  obtain ⟨a, ha⟩ := weight_mul_dvd k
  show i / combinations (params.drop (k + 1)) % params[k].2.length
    = i % combinations params / combinations (params.drop (k + 1)) % params[k].2.length
  rw [ha, Nat.mul_assoc, Nat.mod_mul_right_div_self, Nat.mod_mul_right_mod]

/-- The first digit of an index within bounds is its quotient. -/
theorem digit_zero_of_lt {p : String × List String} {i : Nat}
    (hi : i < combinations (p :: params)) :
    digit (p :: params) i 0 = i / combinations params := by
  rw [digit_zero, Nat.mod_eq_of_lt (Nat.div_lt_of_lt_mul (by rwa [combinations, Nat.mul_comm] at hi))]

/-- **Each combination of positions stands at exactly one index.** -/
theorem existsUnique_digits (choice : (k : Fin params.length) → Fin params[k].2.length) :
    ∃! i, i < combinations params ∧ ∀ k, digit params i k = choice k := by
  induction params with
  | nil => exact ⟨0, ⟨Nat.one_pos, fun k => k.elim0⟩, fun i hi => Nat.lt_one_iff.mp hi.1⟩
  | cons p params ih =>
    obtain ⟨j, ⟨hj, hdigits⟩, hunique⟩ := ih fun k => choice k.succ
    have hpos : 0 < combinations params := Nat.zero_lt_of_lt hj
    have hlt : ((choice 0 : Nat) * combinations params + j) < combinations (p :: params) := by
      rw [combinations]
      calc (choice 0 : Nat) * combinations params + j
          < (choice 0 : Nat) * combinations params + combinations params := Nat.add_lt_add_left hj _
        _ = ((choice 0 : Nat) + 1) * combinations params := (Nat.succ_mul _ _).symm
        _ ≤ p.2.length * combinations params := Nat.mul_le_mul_right _ (choice 0).isLt
    refine ⟨(choice 0 : Nat) * combinations params + j, ⟨hlt, fun k => ?_⟩, fun i hi => ?_⟩
    · cases k using Fin.cases with
      | zero =>
        rw [digit_zero_of_lt hlt, Nat.mul_comm, Nat.mul_add_div hpos, Nat.div_eq_of_lt hj,
          Nat.add_zero]
      | succ k => rw [digit_succ, Nat.mul_comm, Nat.mul_add_mod, Nat.mod_eq_of_lt hj, hdigits]
    · obtain ⟨hi, hchoice⟩ := hi
      have hfirst := hchoice 0
      rw [digit_zero_of_lt hi] at hfirst
      have hrest := hunique (i % combinations params)
        ⟨Nat.mod_lt _ hpos, fun k => by rw [← digit_succ, hchoice]⟩
      rw [← hrest, ← hfirst, Nat.mul_comm, Nat.div_add_mod]

/-! ### The selection at an index -/

/-- The selection at an index takes from each param the value at the digit of the index. -/
structure Picks (params : List (String × List String)) (i : Nat) (s : Selection) : Prop where
  length : s.length = params.length
  value : ∀ k : Fin params.length, ∃ v, params[k].2[digit params i k]? = some v
    ∧ s[(k : Nat)]? = some (params[k].1, v)

/-- Blocks of one length, one after the other: the quotient of an index is the block, the remainder
the place in it. -/
theorem getElem?_flatMap {α β : Type} {f : α → List β} {n : Nat} (xs : List α)
    (hf : ∀ x, (f x).length = n) {i : Nat} (hi : i < xs.length * n) :
    (xs.flatMap f)[i]? = xs[i / n]?.bind fun x => (f x)[i % n]? := by
  induction xs generalizing i with
  | nil =>
    rw [List.length_nil, Nat.zero_mul] at hi
    exact absurd hi (Nat.not_lt_zero i)
  | cons x xs ih =>
    have hn : 0 < n := Nat.pos_of_ne_zero fun h => by
      rw [h, Nat.mul_zero] at hi
      exact Nat.not_lt_zero i hi
    rw [List.flatMap_cons]
    by_cases h : i < n
    · rw [List.getElem?_append_left (by rwa [hf]), Nat.div_eq_of_lt h, Nat.mod_eq_of_lt h]
      rfl
    · have hle : n ≤ i := Nat.le_of_not_lt h
      rw [List.length_cons, Nat.succ_mul] at hi
      rw [List.getElem?_append_right (by rwa [hf]), hf, ih (by omega),
        ← Nat.mod_eq_sub_mod hle, Nat.div_eq_sub_div hn hle, List.getElem?_cons_succ]

theorem getElem?_selections {i : Nat} (hi : i < combinations params) :
    ∃ s, (selections params)[i]? = some s ∧ Picks params i s := by
  induction params generalizing i with
  | nil =>
    rw [Nat.lt_one_iff.mp hi]
    exact ⟨[], rfl, rfl, fun k => k.elim0⟩
  | cons p params ih =>
    have hpos : 0 < combinations params := Nat.pos_of_ne_zero fun h => by
      rw [combinations, h, Nat.mul_zero] at hi
      exact Nat.not_lt_zero i hi
    have hblock : i / combinations params < p.2.length :=
      Nat.div_lt_of_lt_mul (by rwa [combinations, Nat.mul_comm] at hi)
    obtain ⟨s, hs, hpicks⟩ := ih (Nat.mod_lt i hpos)
    refine ⟨(p.1, p.2[i / combinations params]) :: s, ?_, congrArg Nat.succ hpicks.length,
      fun k => ?_⟩
    · rw [selections, getElem?_flatMap _ (fun v => by rw [List.length_map, length_selections]) hi,
        List.getElem?_eq_getElem hblock, Option.bind_some, List.getElem?_map, hs, Option.map_some]
    · cases k using Fin.cases with
      | zero =>
        refine ⟨p.2[i / combinations params], ?_, rfl⟩
        rw [digit_zero_of_lt hi]
        exact List.getElem?_eq_getElem hblock
      | succ k =>
        obtain ⟨v, hv, hsv⟩ := hpicks.value k
        refine ⟨v, ?_, hsv⟩
        rw [digit_succ]
        exact hv

/-! ### All templates -/

section

open Act

variable {ρ : Type} (range : ρ → Range)

/-- The items of the templates that expand, in order. -/
def expandedItems (ts : List (Template ρ)) : List (Template (List String)) :=
  ts.flatMap fun t => (t.expand range).toOption.getD []

def Template.expansionFailure? (t : Template ρ) : Option ExpansionFailure :=
  match t.expand range with
  | .ok _ => none
  | .error fault => some ⟨t.name, fault⟩

def unexpanded (ts : List (Template ρ)) : List ExpansionFailure :=
  ts.filterMap (Template.expansionFailure? range)

/-- No failure is left exactly when every template expands. -/
theorem unexpanded_eq_nil_iff (ts : List (Template ρ)) :
    unexpanded range ts = [] ↔ ∀ t ∈ ts, ∃ items, t.expand range = .ok items := by
  rw [unexpanded, List.filterMap_eq_nil_iff]
  refine forall₂_congr fun t _ => ?_
  rw [Template.expansionFailure?]
  cases t.expand range <;> simp

variable {range} {t : Template ρ}

theorem expandedItems_cons_of_ok {items : List (Template (List String))} (h : t.expand range = .ok items)
    (ts : List (Template ρ)) : expandedItems range (t :: ts) = items ++ expandedItems range ts := by
  rw [expandedItems, List.flatMap_cons, h]
  rfl

theorem expandedItems_cons_of_error {fault : RangeFault} (h : t.expand range = .error fault)
    (ts : List (Template ρ)) : expandedItems range (t :: ts) = expandedItems range ts := by
  rw [expandedItems, List.flatMap_cons, h]
  rfl

theorem unexpanded_cons_of_ok {items : List (Template (List String))} (h : t.expand range = .ok items)
    (ts : List (Template ρ)) : unexpanded range (t :: ts) = unexpanded range ts :=
  List.filterMap_cons_none (by rw [Template.expansionFailure?, h])

theorem unexpanded_cons_of_error {fault : RangeFault} (h : t.expand range = .error fault)
    (ts : List (Template ρ)) : unexpanded range (t :: ts) = ⟨t.name, fault⟩ :: unexpanded range ts :=
  List.filterMap_cons_some (by rw [Template.expansionFailure?, h])

variable (range)

/-- **The expansion of all templates** leaves the state as it is, and neither what it ends with nor its
trace depends on it. -/
theorem expandAll_run (ts : List (Template ρ)) :
    ∃ es, ∀ {σ ε : Type} (s : σ), (expandAll range ts : Act σ ε _) s
      = ⟨.ok (expandedItems range ts, unexpanded range ts), es, s⟩ := by
  induction ts with
  | nil => exact ⟨[], fun s => rfl⟩
  | cons t ts ih =>
    obtain ⟨es, ih⟩ := ih
    cases h : t.expand range with
    | error fault =>
      refine ⟨.logged ⟨.error, .expansion, s!"Failed to expand item {t.name}: {fault.message}"⟩ :: es,
        fun s => ?_⟩
      rw [expandedItems_cons_of_error h, unexpanded_cons_of_error h]
      simp only [expandAll, h, log_bind_run, bind_run_ok (ih s), pure_run, List.append_nil]
    | ok expanded =>
      rw [expandedItems_cons_of_ok h, unexpanded_cons_of_ok h]
      by_cases hparams : (!t.params.isEmpty) = true
      · refine ⟨.logged ⟨.debug, .expansion, s!"Expanded {t.name} into {expanded.length} items"⟩ :: es,
          fun s => ?_⟩
        simp only [expandAll, h, if_pos hparams, log_bind_run, bind_run_ok (ih s), pure_run,
          List.append_nil]
      · refine ⟨es, fun s => ?_⟩
        simp only [expandAll, h, if_neg hparams, bind_run_ok (ih s), pure_run, List.append_nil]

end

/-- **Templates that were read from a config all expand.** -/
theorem expandAll_ofTexts {σ ε : Type} (ts : List (Template (List String))) (s : σ) :
    ((expandAll Range.ofTexts ts : Act σ ε _) s).result
        = .ok (ts.flatMap fun t => (selections t.params).map fun sel => t.fill sel, [])
      ∧ ((expandAll Range.ofTexts ts : Act σ ε _) s).state = s := by
  have hitems : expandedItems Range.ofTexts ts
      = ts.flatMap fun t => (selections t.params).map fun sel => t.fill sel := by
    simp only [expandedItems, expand_ofTexts]
    rfl
  have hfailures : unexpanded Range.ofTexts ts = [] :=
    (unexpanded_eq_nil_iff Range.ofTexts ts).mpr fun t _ => ⟨_, expand_ofTexts t⟩
  obtain ⟨es, hexpand⟩ := expandAll_run Range.ofTexts ts
  rw [hexpand s, hitems, hfailures]
  exact ⟨rfl, rfl⟩

/-! ### The full product -/

/-- **Expansion yields the full product, in order.**  There is one item for each combination of values;
the item at an index has the values at the digits of the index substituted in the order of the params;
each combination of positions is spelled by the digits of exactly one index; and every item keeps the
params and the numbers of fields and attachments. -/
theorem expand_cross_product (t : Template (List String)) :
    ∃ items, t.expand Range.ofTexts = .ok items
      ∧ items.length = combinations t.params
      ∧ (∀ i, (hi : i < items.length) → ∃ s, Picks t.params i s
        ∧ items[i] = s.foldl (fun item c => item.substitute c.1 c.2) t)
      ∧ (∀ choice : (k : Fin t.params.length) → Fin t.params[k].2.length,
        ∃! i, i < items.length ∧ ∀ k, digit t.params i k = choice k)
      ∧ ∀ item ∈ items, item.params = t.params ∧ item.fields.length = t.fields.length
        ∧ item.attachments.length = t.attachments.length := by
  have hlength : ((selections t.params).map fun s => t.fill s).length = combinations t.params := by
    rw [List.length_map, length_selections]
  refine ⟨_, expand_ofTexts t, hlength, fun i hi => ?_, fun choice => ?_, fun item hitem => ?_⟩
  · obtain ⟨s, hs, hpicks⟩ := getElem?_selections (hlength ▸ hi)
    refine ⟨s, hpicks, ?_⟩
    rw [List.getElem_map, (List.getElem?_eq_some_iff.mp hs).2]
    rfl
  · rw [hlength]
    exact existsUnique_digits choice
  · obtain ⟨s, -, rfl⟩ := List.mem_map.mp hitem
    rw [t.fill_eq s]
    exact ⟨rfl, t.toItem.length_fields_fill s, t.toItem.length_attachments_fill s⟩

end SecretForge
