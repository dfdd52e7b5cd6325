import SecretForge.Proofs.Json.Entries
import SecretForge.Proofs.Text.Digit

/-!
# Values that survive writing

A value is read back as it was written when its texts spell no surrogate pair in halves, its whole
numbers are within the limit on digits, the keys of each object are distinct, and no number in it is a
double.  The first three hold of everything that reading yields; the last is a matter of the document.

* `Everywhere` — a property of a value and of every value inside it.
* `FloatFree` — no number in the value is a double.
* `Exact` — all four conditions; `exact_put` and `exact_sorted` say that changes to a document keep
  them.
-/

namespace SecretForge.Json

open SecretForge.Number SecretForge.Text

/-! ### A property of every value inside a value -/

mutual

/-- The property holds of a value and of every value inside it. -/
def Everywhere (p : Json → Prop) : Json → Prop
  | .list vs => p (.list vs) ∧ EverywhereIn p vs
  | .object es => p (.object es) ∧ EverywhereUnder p es
  | .null => p .null
  | .bool b => p (.bool b)
  | .int i => p (.int i)
  | .float x => p (.float x)
  | .text s => p (.text s)

def EverywhereIn (p : Json → Prop) : List Json → Prop
  | [] => True
  | v :: vs => Everywhere p v ∧ EverywhereIn p vs

def EverywhereUnder (p : Json → Prop) : List (CodePoints × Json) → Prop
  | [] => True
  | (_, v) :: es => Everywhere p v ∧ EverywhereUnder p es

end

variable {p q : Json → Prop} {v : Json} {vs : List Json} {es : List (CodePoints × Json)}

theorem everywhereIn_iff : EverywhereIn p vs ↔ ∀ v ∈ vs, Everywhere p v := by
  induction vs with
  | nil => simp [EverywhereIn]
  | cons v vs ih => rw [EverywhereIn, ih, List.forall_mem_cons]

theorem everywhereUnder_iff : EverywhereUnder p es ↔ ∀ e ∈ es, Everywhere p e.2 := by
  induction es with
  | nil => simp [EverywhereUnder]
  | cons e es ih => rw [EverywhereUnder, ih, List.forall_mem_cons]

mutual

theorem everywhere_and : ∀ {v : Json}, Everywhere p v → Everywhere q v →
    Everywhere (fun v => p v ∧ q v) v
  | .null, hp, hq | .bool _, hp, hq | .int _, hp, hq | .float _, hp, hq | .text _, hp, hq => ⟨hp, hq⟩
  | .list _, hp, hq => ⟨⟨hp.1, hq.1⟩, everywhereIn_and hp.2 hq.2⟩
  | .object _, hp, hq => ⟨⟨hp.1, hq.1⟩, everywhereUnder_and hp.2 hq.2⟩

theorem everywhereIn_and : ∀ {vs : List Json}, EverywhereIn p vs → EverywhereIn q vs →
    EverywhereIn (fun v => p v ∧ q v) vs
  | [], _, _ => trivial
  | _ :: _, hp, hq => ⟨everywhere_and hp.1 hq.1, everywhereIn_and hp.2 hq.2⟩

theorem everywhereUnder_and : ∀ {es : List (CodePoints × Json)}, EverywhereUnder p es →
    EverywhereUnder q es → EverywhereUnder (fun v => p v ∧ q v) es
  | [], _, _ => trivial
  | (_, _) :: _, hp, hq => ⟨everywhere_and hp.1 hq.1, everywhereUnder_and hp.2 hq.2⟩

end

mutual

theorem everywhere_imp (h : ∀ v, p v → q v) : ∀ {v : Json}, Everywhere p v → Everywhere q v
  | .null, hv | .bool _, hv | .int _, hv | .float _, hv | .text _, hv => h _ hv
  | .list _, hv => ⟨h _ hv.1, everywhereIn_imp h hv.2⟩
  | .object _, hv => ⟨h _ hv.1, everywhereUnder_imp h hv.2⟩

theorem everywhereIn_imp (h : ∀ v, p v → q v) : ∀ {vs : List Json},
    EverywhereIn p vs → EverywhereIn q vs
  | [], _ => trivial
  | _ :: _, hv => ⟨everywhere_imp h hv.1, everywhereIn_imp h hv.2⟩

theorem everywhereUnder_imp (h : ∀ v, p v → q v) : ∀ {es : List (CodePoints × Json)},
    EverywhereUnder p es → EverywhereUnder q es
  | [], _ => trivial
  | (_, _) :: _, hv => ⟨everywhere_imp h hv.1, everywhereUnder_imp h hv.2⟩

end

/-! ### Surrogates -/

/-- Whether a code point is the first half of a surrogate pair. -/
def isHigh (n : Nat) : Bool := 0xD800 ≤ n && n ≤ 0xDBFF

/-- Whether a code point is the second half of a surrogate pair. -/
def isLow (n : Nat) : Bool := 0xDC00 ≤ n && n ≤ 0xDFFF

/-- The units of the text spell the text: nothing in it is beyond the last code point, and no two
halves of a pair stand side by side. -/
def Spellable : CodePoints → Prop
  | [] => True
  | n :: s => n < 0x110000 ∧ (isHigh n = true → ∀ m ∈ s.head?, isLow m = false) ∧ Spellable s

/-- A character is no half of a pair. -/
theorem isHigh_toNat (c : Char) : isHigh c.toNat = false := by
  have := toNat_valid c
  rw [isHigh, Bool.and_eq_false_iff, decide_eq_false_iff_not, decide_eq_false_iff_not]
  omega

theorem isLow_toNat (c : Char) : isLow c.toNat = false := by
  have := toNat_valid c
  rw [isLow, Bool.and_eq_false_iff, decide_eq_false_iff_not, decide_eq_false_iff_not]
  omega

theorem spellable_codePoints (s : String) : Spellable (codePoints s) := by
  rw [codePoints]
  induction s.toList with
  | nil => trivial
  | cons c cs ih =>
    refine ⟨?_, fun h => ?_, ih⟩
    · have := toNat_valid c
      omega
    · rw [isHigh_toNat] at h
      cases h

/-! ### Exact values -/

/-- What writing needs of a value by itself. -/
def Writable : Json → Prop
  | .int i => (decimalDigits i.natAbs).length ≤ digitLimit
  | .text s => Spellable s
  | .object es => (keys es).Nodup ∧ ∀ k ∈ keys es, Spellable k
  | _ => True

def isFloat : Json → Bool
  | .float _ => true
  | _ => false

/-- No number in the value is a double. -/
def FloatFree (v : Json) : Prop := Everywhere (fun v => v.isFloat = false) v

/-- The value is read back as it was written. -/
def Exact (v : Json) : Prop := Everywhere (fun v => Writable v ∧ v.isFloat = false) v

theorem exact_of_floatFree (hw : Everywhere Writable v) (hf : FloatFree v) : Exact v :=
  everywhere_and hw hf

theorem floatFree_of_exact (h : Exact v) : FloatFree v := everywhere_imp (fun _ => And.right) h

theorem exact_ofString (s : String) : Exact (.ofString s) := ⟨spellable_codePoints s, rfl⟩

theorem exact_list_iff : Exact (.list vs) ↔ ∀ v ∈ vs, Exact v := by
  show (_ ∧ EverywhereIn _ vs) ↔ _
  rw [everywhereIn_iff]
  exact ⟨And.right, fun h => ⟨⟨trivial, rfl⟩, h⟩⟩

/-- An object is exact when its keys are distinct, and each of them and its value is exact. -/
theorem exact_object_iff :
    Exact (.object es) ↔ (keys es).Nodup ∧ ∀ e ∈ es, Spellable e.1 ∧ Exact e.2 := by
  show (((_ ∧ ∀ k ∈ keys es, _) ∧ _) ∧ EverywhereUnder _ es) ↔ _
  rw [everywhereUnder_iff, keys, List.forall_mem_map]
  constructor
  · rintro ⟨⟨⟨hn, hk⟩, -⟩, hv⟩
    exact ⟨hn, fun e he => ⟨hk e he, hv e he⟩⟩
  · rintro ⟨hn, h⟩
    exact ⟨⟨⟨hn, fun e he => (h e he).1⟩, rfl⟩, fun e he => (h e he).2⟩

theorem exact_of_find? {k : CodePoints} (hes : Exact (.object es)) (h : find? k es = some v) :
    Exact v := ((exact_object_iff.mp hes).2 _ (mem_of_find? h)).2

/-- **A value put into an object leaves it exact.** -/
theorem exact_put {k : CodePoints} (hes : Exact (.object es)) (hk : Spellable k) (hv : Exact v) :
    Exact (.object (put k v es)) := by
  rw [exact_object_iff] at hes ⊢
  refine ⟨nodup_put hes.1, fun e he => ?_⟩
  rcases mem_put he with hmem | rfl
  · exact hes.2 e hmem
  · exact ⟨hk, hv⟩

theorem exact_putNew {k : CodePoints} (hes : Exact (.object es)) (hk : Spellable k) (hv : Exact v) :
    Exact (.object (putNew k v es)) := by
  rw [putNew]
  split
  · exact hes
  · exact exact_put hes hk hv

mutual

/-- **Sorting leaves a value exact.** -/
theorem exact_sorted : ∀ v : Json, Exact v → Exact v.sorted
  | .null, h | .bool _, h | .int _, h | .float _, h | .text _, h => h
  | .list vs, h => by
    rw [sorted, sortedItems_eq, exact_list_iff, List.forall_mem_map]
    exact exactItems_sorted vs (exact_list_iff.mp h)
  | .object es, h => by
    rw [exact_object_iff] at h
    rw [sorted, exact_object_iff]
    refine ⟨nodup_sortedEntries h.1, fun e he => ?_⟩
    obtain ⟨e', he', rfl⟩ := List.mem_map.mp ((sortedEntries_perm es).mem_iff.mp he)
    exact ⟨(h.2 e' he').1, exactValues_sorted es (fun e he => (h.2 e he).2) e' he'⟩

theorem exactItems_sorted : ∀ vs : List Json, (∀ v ∈ vs, Exact v) → ∀ v ∈ vs, Exact v.sorted
  | [], _, _, hmem => by cases hmem
  | v :: vs, h, w, hmem => by
    rcases List.mem_cons.mp hmem with heq | hmem
    · exact heq ▸ exact_sorted v (h v List.mem_cons_self)
    · exact exactItems_sorted vs (fun w hw => h w (List.mem_cons_of_mem _ hw)) w hmem

theorem exactValues_sorted : ∀ es : List (CodePoints × Json), (∀ e ∈ es, Exact e.2) →
    ∀ e ∈ es, Exact e.2.sorted
  | [], _, _, hmem => by cases hmem
  | (k, v) :: es, h, e, hmem => by
    rcases List.mem_cons.mp hmem with heq | hmem
    · exact heq ▸ exact_sorted v (h (k, v) List.mem_cons_self)
    · exact exactValues_sorted es (fun e he => h e (List.mem_cons_of_mem _ he)) e hmem

end

end SecretForge.Json
