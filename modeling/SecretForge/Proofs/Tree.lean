import SecretForge.Tree
import SecretForge.Value

/-!
# Values that show a tree

A value shows a tree if looking into it, layer by layer, one finds the texts, lists and mappings of the
tree.  What is read from a value depends on the tree that it shows only, however the value is held.

* `Shows` — a value shows a tree.
* `under?_shows` — what stands under a key.
* `mapM_shows` — reading each member of a list.
* `shows_toValue` — a tree as a value shows itself.
-/

namespace SecretForge

namespace Tree

mutual

/-- Whether no mapping in a tree has a key twice. -/
def DistinctKeys : Tree → Prop
  | .text _ => True
  | .list ts => DistinctItems ts
  | .map es => (es.map (·.1)).Nodup ∧ DistinctEntries es

def DistinctItems : List Tree → Prop
  | [] => True
  | t :: ts => DistinctKeys t ∧ DistinctItems ts

def DistinctEntries : List (String × Tree) → Prop
  | [] => True
  | (_, t) :: es => DistinctKeys t ∧ DistinctEntries es

end

theorem distinctItems_iff {ts : List Tree} : DistinctItems ts ↔ ∀ t ∈ ts, t.DistinctKeys := by
  induction ts with
  | nil => exact ⟨fun _ _ ht => absurd ht List.not_mem_nil, fun _ => trivial⟩
  | cons t ts ih => rw [DistinctItems, List.forall_mem_cons, ih]

theorem distinctEntries_iff {es : List (String × Tree)} :
    DistinctEntries es ↔ ∀ e ∈ es, e.2.DistinctKeys := by
  induction es with
  | nil => exact ⟨fun _ _ he => absurd he List.not_mem_nil, fun _ => trivial⟩
  | cons e es ih => rw [DistinctEntries, List.forall_mem_cons, ih]

end Tree

open Layered

section

variable {ν : Type} [Layered ν]

mutual

/-- Whether a value shows a tree. -/
def Shows (v : ν) : Tree → Prop
  | .text s => layer v = .scalar (.text s)
  | .list ts => ∃ vs, layer v = .list vs ∧ ShowsItems vs ts
  | .map es => ∃ us, layer v = .map us ∧ ShowsEntries us es

def ShowsItems : List ν → List Tree → Prop
  | [], [] => True
  | v :: vs, t :: ts => Shows v t ∧ ShowsItems vs ts
  | _, _ => False

def ShowsEntries : List (ν × ν) → List (String × Tree) → Prop
  | [], [] => True
  | (k, v) :: us, (s, t) :: es => layer k = .scalar (.text s) ∧ Shows v t ∧ ShowsEntries us es
  | _, _ => False

end

variable {v : ν} {s : String} {t : Tree} {ts : List Tree} {es : List (String × Tree)}
  {vs : List ν} {us : List (ν × ν)}

theorem plain_shows (h : Shows v (.text s)) : plain v = .ok s := by
  rw [Shows] at h
  unfold plain
  rw [h]
  rfl

theorem items?_shows (h : Shows v (.list ts)) : ∃ vs, items? v = some vs ∧ ShowsItems vs ts := by
  rw [Shows] at h
  obtain ⟨vs, hlayer, hvs⟩ := h
  refine ⟨vs, ?_, hvs⟩
  unfold items?
  rw [hlayer]

theorem entries?_shows (h : Shows v (.map es)) :
    ∃ us, entries? v = some us ∧ ShowsEntries us es := by
  rw [Shows] at h
  obtain ⟨us, hlayer, hus⟩ := h
  refine ⟨us, ?_, hus⟩
  unfold entries?
  rw [hlayer]

/-- What stands under a key shows what stands under it in the tree. -/
theorem under?_shows (key : String) (h : ShowsEntries us es) :
    (es.lookup key = none → under? key us = none)
      ∧ ∀ t, es.lookup key = some t → ∃ v, under? key us = some v ∧ Shows v t := by
  induction es generalizing us with
  | nil =>
    cases us with
    | nil => exact ⟨fun _ => rfl, fun t ht => nomatch ht⟩
    | cons u us => exact h.elim
  | cons e es ih =>
    obtain ⟨s, t⟩ := e
    cases us with
    | nil => exact h.elim
    | cons u us =>
      obtain ⟨k, v⟩ := u
      rw [ShowsEntries] at h
      obtain ⟨hk, hv, hus⟩ := h
      have hfind : under? key ((k, v) :: us) = if s == key then some v else under? key us := by
        unfold under?
        rw [List.find?_cons, hk]
        show (match Scalar.sameKey (.text s) (.text key) with
          | true => some (k, v)
          | false => us.find? _).map _ = _
        show (match s == key with
          | true => some (k, v)
          | false => us.find? _).map _ = _
        cases s == key <;> rfl
      rw [hfind, List.lookup_cons, BEq.comm (a := key)]
      cases s == key with
      | true =>
        refine ⟨fun hn => ?_, fun t' ht => ?_⟩
        · cases hn
        · cases ht
          exact ⟨v, rfl, hv⟩
      | false => exact ih hus

/-- Reading each member of a list that shows what is written for some things. -/
theorem mapM_shows {α ε : Type} {f : ν → Except ε α} {tree : α → Tree}
    (hf : ∀ v a, Shows v (tree a) → f v = .ok a) {as : List α} (h : ShowsItems vs (as.map tree)) :
    vs.mapM f = .ok as := by
  induction as generalizing vs with
  | nil =>
    cases vs with
    | nil => rfl
    | cons v vs => exact h.elim
  | cons a as ih =>
    cases vs with
    | nil => exact h.elim
    | cons v vs =>
      rw [List.map_cons, ShowsItems] at h
      rw [List.mapM_cons, hf v a h.1]
      show ((vs.mapM f).bind _) = _
      rw [ih h.2]
      rfl

end

/-! ### Trees as values -/

mutual

/-- A tree as a value shows itself. -/
theorem shows_toValue (t : Tree) : Shows t.toValue t := by
  match t with
  | .text s =>
    rw [Shows, Tree.toValue]
    rfl
  | .list ts =>
    rw [Shows, Tree.toValue]
    exact ⟨_, rfl, showsItems_toValues ts⟩
  | .map es =>
    rw [Shows, Tree.toValue]
    exact ⟨_, rfl, showsEntries_toEntries es⟩

theorem showsItems_toValues (ts : List Tree) : ShowsItems (Tree.toValues ts) ts := by
  match ts with
  | [] => trivial
  | t :: ts =>
    rw [Tree.toValues, ShowsItems]
    exact ⟨shows_toValue t, showsItems_toValues ts⟩

theorem showsEntries_toEntries (es : List (String × Tree)) : ShowsEntries (Tree.toEntries es) es := by
  match es with
  | [] => trivial
  | (s, t) :: es =>
    rw [Tree.toEntries, ShowsEntries]
    exact ⟨rfl, shows_toValue t, showsEntries_toEntries es⟩

end

end SecretForge
