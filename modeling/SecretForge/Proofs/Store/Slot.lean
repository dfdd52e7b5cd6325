import SecretForge.Proofs.Store.Document

/-!
# Slots of a document

An assignment sets one slot of an item document: the password or the notes, or one name among the fields
or the attachments.  What stands in a slot is found by at most two lookups, so it survives whatever
keeps the lookups: completing a document, ordering its entries, and setting another slot.

* `Assignment.slot` — the slot that an assignment sets; `inSlot?` — what a document holds in a slot.
* `alike_inSlot?` — documents with alike sections hold alike values in their slots.
* **`exists_inSlot?_assign`**, **`inSlot?_assign_of_ne`** — what an assignment leaves in its own slot and
  in the others; `Sets.exists_inSlot?` and `Sets.alike_inSlot?` say it of the documents before and after.
-/

namespace SecretForge

/-- A section of a document, or a name in a section that is an object. -/
structure Slot where
  part : String
  name? : Option String
  deriving DecidableEq, Repr

def Assignment.slot (a : Assignment) : Slot := ⟨a.part, a.name?⟩

theorem codePoints_injective : codePoints.Injective := fun _ _ h =>
  String.toList_inj.mp
    (List.map_injective_iff.mpr (fun _ _ hc => Char.toNat_inj.mp hc) h)

namespace Document

open Json

/-- What a document holds in a slot, where a section that it lacks counts as it is at first. -/
def inSlot? (d : Document) (slot : Slot) : Option Json :=
  match slot.name?, held? d (codePoints slot.part) with
  | none, v => v
  | some name, some (.object es) => find? (codePoints name) es
  | some _, _ => none

variable {d e : Document} {slot : Slot}

theorem Alike.refl (x : Option Json) : Alike x x := rfl

theorem Alike.trans {x y z : Option Json} (h : Alike x y) (h' : Alike y z) : Alike x z :=
  Eq.trans h h'

/-! ### The same lookups -/

theorem writable_of_exact {v : Json} (h : Exact v) : Everywhere Writable v :=
  everywhere_imp (fun _ => And.left) h

/-- An object in a document that can be written has distinct keys. -/
theorem nodup_of_held? {key : CodePoints} {es : List (CodePoints × Json)}
    (hd : Everywhere Writable (.object d)) (h : held? d key = some (.object es)) :
    (keys es).Nodup := by
  have hes : Everywhere Writable (.object es) := by
    rcases Option.or_eq_some_iff.mp h with h | ⟨-, h⟩
    · exact everywhereUnder_iff.mp hd.2 _ (mem_of_find? h)
    · exact writable_of_exact (exact_sections _ (mem_of_find? h)).2
  exact hes.1.1

/-- Documents with alike sections hold alike values in the slots of the section. -/
theorem alike_inSlot? (hd : Everywhere Writable (.object d)) (he : Everywhere Writable (.object e))
    (h : Alike (held? d (codePoints slot.part)) (held? e (codePoints slot.part))) :
    Alike (d.inSlot? slot) (e.inSlot? slot) := by
  obtain ⟨part, _ | name⟩ := slot
  · exact h
  simp only [inSlot?] at h ⊢
  cases hx : held? d (codePoints part) with
  | none =>
    rw [hx, Alike, Option.map_none, eq_comm, Option.map_eq_none_iff] at h
    rw [h]
    exact .refl none
  | some x =>
    rw [hx, Alike, Option.map_some, eq_comm, Option.map_eq_some_iff] at h
    obtain ⟨y, hy, hsorted⟩ := h
    rw [hy]
    -- both are objects with the same entries up to their order, or neither is an object
    cases x with
    | object es =>
      obtain ⟨fs, rfl, hfs⟩ := exists_object_of_sorted hsorted
      rw [Alike, ← find?_sortedEntries (nodup_of_held? hd hx),
        ← find?_sortedEntries (nodup_of_held? he hy), hfs]
    | _ => cases y <;> first | exact .refl none | cases hsorted

theorem inSlot?_complete : (complete d).inSlot? slot = d.inSlot? slot := by
  have hheld : held? (complete d) (codePoints slot.part) = held? d (codePoints slot.part) := by
    rw [held?, find?_complete, held?, Option.or_assoc, Option.or_self]
  rw [inSlot?, hheld, inSlot?]

/-- A document with its entries in order holds the same in every slot. -/
theorem alike_inSlot?_sortedEntries (hd : Exact (.object d)) :
    Alike (d.inSlot? slot) (inSlot? (sortedEntries d) slot) := by
  refine alike_inSlot? (writable_of_exact hd) (writable_of_exact (exact_sorted _ hd)) ?_
  rw [held?, held?, find?_sortedEntries (exact_object_iff.mp hd).1]
  cases find? (codePoints slot.part) d with
  | none => exact .refl _
  | some v => exact alike_sorted (some v)

/-! ### Assigning -/

variable {a b : Assignment}

/-- A section with names in it is an object at first. -/
theorem find?_sections_part (h : a.name?.isSome) :
    find? (codePoints a.part) sections = some (.object []) := by
  cases a with
  | password | notes => cases h
  | field | attachment =>
    simp only [sections, find?, Assignment.part, codePoints_injective.eq_iff]
    rfl

/-- Of two slots in one section each has a name. -/
theorem exists_names (hpart : b.part = a.part) (hne : b.slot ≠ a.slot) :
    ∃ name name', a.name? = some name ∧ b.name? = some name'
      ∧ codePoints name' ≠ codePoints name := by
  have hnames : b.name? ≠ a.name? := fun hname =>
    hne (by rw [Assignment.slot, Assignment.slot, hpart, hname])
  obtain ⟨name, name', ha, hb⟩ : ∃ name name', a.name? = some name ∧ b.name? = some name' := by
    cases a <;> cases b <;> first
      | exact ⟨_, _, rfl, rfl⟩
      | exact absurd rfl hnames
      | exact absurd hpart (by simp [Assignment.part])
  rw [ha, hb] at hnames
  exact ⟨name, name', ha, hb, fun h => hnames (congrArg some (codePoints_injective h))⟩

/-- **An assignment leaves its value in its own slot.** -/
theorem exists_inSlot?_assign (h : d.assign a = .ok e) :
    ∃ v, e.inSlot? a.slot = some v ∧ a.Holds v := by
  obtain ⟨v, rfl, hv⟩ := exists_put_of_assign h
  have hheld : held? (put (codePoints a.part) v d) (codePoints a.part) = some v := by
    rw [held?, find?_put, if_pos rfl, Option.some_or]
  simp only [inSlot?, Assignment.slot, hheld]
  cases hname : a.name? with
  | none =>
    rw [hname] at hv
    exact ⟨v, rfl, hv.2.2⟩
  | some name =>
    rw [hname] at hv
    obtain ⟨es, w, -, rfl, -, -, hholds⟩ := hv
    exact ⟨w, by simp only [find?_put, if_true], hholds⟩

/-- **An assignment leaves the slots of other assignments as they are.** -/
theorem inSlot?_assign_of_ne (h : d.assign a = .ok e) (hne : b.slot ≠ a.slot) :
    e.inSlot? b.slot = d.inSlot? b.slot := by
  obtain ⟨v, rfl, hv⟩ := exists_put_of_assign h
  simp only [inSlot?, Assignment.slot]
  by_cases hpart : b.part = a.part
  · obtain ⟨name, name', ha, hb, hkey⟩ := exists_names hpart hne
    rw [ha] at hv
    obtain ⟨es, w, hes, rfl, -⟩ := hv
    have hheld : held? d (codePoints a.part) = some (.object es) := by
      rw [held?, find?_sections_part (by rw [ha]; rfl), ← hes]
      cases find? (codePoints a.part) d <;> rfl
    rw [hpart, hb, hheld, held?, find?_put, if_pos rfl]
    simp only [Option.some_or, find?_put, if_neg (Ne.symm hkey)]
  · have hkey : codePoints a.part ≠ codePoints b.part := fun hkey =>
      hpart (codePoints_injective hkey.symm)
    rw [held?, find?_put, if_neg hkey, ← held?]

/-- A value that stands for an assigned one is a text, so it is alike to itself only. -/
theorem eq_some_of_alike {v : Json} {x : Option Json} (hv : a.Holds v) (h : Alike (some v) x) :
    x = some v := by
  obtain ⟨text, rfl⟩ : ∃ text, v = .text text := by
    cases a with
    | attachment =>
      obtain ⟨text, rfl, -⟩ := hv
      exact ⟨_, rfl⟩
    | _ => exact ⟨_, hv⟩
  rw [Alike, Option.map_some, eq_comm, Option.map_eq_some_iff] at h
  obtain ⟨w, rfl, hw⟩ := h
  cases w <;> cases hw
  rfl

/-! ### Documents before and after -/

theorem Sets.exists_inSlot? (h : Sets a d e) : ∃ v, e.inSlot? a.slot = some v ∧ a.Holds v := by
  have hown := h.own
  have hheld : ∀ {v : Json}, find? (codePoints a.part) e = some v →
      held? e (codePoints a.part) = some v := fun hv => by rw [held?, hv, Option.some_or]
  simp only [inSlot?, Assignment.slot]
  cases hname : a.name? with
  | none =>
    rw [hname] at hown
    obtain ⟨v, hv, hholds⟩ := hown
    exact ⟨v, by rw [hheld hv], hholds⟩
  | some name =>
    rw [hname] at hown
    obtain ⟨es, fs, v, -, hfs, hv, hholds, -⟩ := hown
    exact ⟨v, by simp only [hheld hfs, hv], hholds⟩

theorem Sets.alike_inSlot? (h : Sets a d e) (hd : Everywhere Writable (.object d))
    (he : Everywhere Writable (.object e)) (hne : b.slot ≠ a.slot) :
    Alike (d.inSlot? b.slot) (e.inSlot? b.slot) := by
  by_cases hpart : b.part = a.part
  · obtain ⟨name, name', ha, hb, hkey⟩ := exists_names hpart hne
    have hown := h.own
    rw [ha] at hown
    obtain ⟨es, fs, -, hes, hfs, -, -, hothers⟩ := hown
    have hheld : held? e (codePoints a.part) = some (.object fs) := by
      rw [held?, hfs, Option.some_or]
    simp only [inSlot?, Assignment.slot, hpart, hb, hes, hheld]
    exact hothers _ hkey
  · refine Document.alike_inSlot? hd he ?_
    have halike := h.others (codePoints b.part) fun hkey => hpart (codePoints_injective hkey)
    -- the section does not lack before, so it does not lack after
    obtain ⟨v, hv⟩ : ∃ v, held? d (codePoints b.part) = some v := by
      rw [← Option.isSome_iff_exists, held?, Option.isSome_or, isSome_sections_part, Bool.or_true]
    rw [hv, Alike, Option.map_some, eq_comm, Option.map_eq_some_iff] at halike
    obtain ⟨w, hw, hsorted⟩ := halike
    show Alike (held? d (codePoints b.part)) (held? e (codePoints b.part))
    rw [hv, held?, hw, Option.some_or, Alike, Option.map_some, Option.map_some, hsorted]

/-! ### Documents of texts -/

def texts (password notes : String) : Document :=
  [(codePoints "attachments", .object []), (codePoints "fields", .object []),
    (codePoints "notes", .ofString notes), (codePoints "password", .ofString password)]

theorem exact_texts (password notes : String) : Exact (.object (texts password notes)) := by
  refine exact_object_iff.mpr ⟨by simp [texts, keys, codePoints_injective.eq_iff], fun e he => ?_⟩
  have hempty : Exact (.object []) := exact_object_iff.mpr ⟨List.nodup_nil, fun _ h => nomatch h⟩
  simp only [texts, List.mem_cons, List.not_mem_nil, or_false] at he
  rcases he with rfl | rfl | rfl | rfl
  · exact ⟨spellable_codePoints _, hempty⟩
  · exact ⟨spellable_codePoints _, hempty⟩
  · exact ⟨spellable_codePoints _, exact_ofString _⟩
  · exact ⟨spellable_codePoints _, exact_ofString _⟩

theorem read_write_texts (password notes : String) :
    read (write (texts password notes)) = .ok (texts password notes) :=
  read_write (exact_texts password notes)

theorem inSlot?_texts_password (password notes : String) :
    (texts password notes).inSlot? ⟨"password", none⟩ = some (.ofString password) := by
  simp [texts, inSlot?, held?, find?, codePoints_injective.eq_iff]

end Document

end SecretForge
