import SecretForge.Proofs.Store.Slot

/-!
# Stored forms of a document

A document is written with the entries of every object in order, so what is written of it depends on its
lookups alone.  Among all documents with the same lookups one is in order already: their form.  Assigning
a value acts on forms, and there two assignments can be compared as functions: to different slots they
commute, and to the same slot the second one makes the first one undone.

* `Form` — a document in order, with no section lacking; `Form.Of` — a document that has a form.
* `Assignment.revise`, `Form.put` — a value set in a section, and in a form.
* `Form.Of.assign` — a document with a value assigned has the form with the value set.
* **`Form.put_comm`**, **`Form.put_absorb`** — two values set one after the other.
* **`Form.foldl_put_perm`**, **`Form.foldl_put_idem`** — values of distinct slots in another order, and
  values set a second time.
-/

namespace SecretForge

open Json Document

/-! ### Sections with a value set -/

namespace Assignment

/-- The JSON value that the assignment puts into a document. -/
def json : Assignment → Json
  | .field _ value => .ofString (Text.Utf8.decodeReplacing value)
  | .attachment _ value => .ofString (Text.Base64.encode value)
  | .password value => .ofString (Text.Utf8.decodeReplacing value)
  | .notes words => .ofString words

/-- The section with the value put into it. -/
def into (a : Assignment) (v : Json) : Except StoreFailure Json :=
  match a.name? with
  | none => .ok a.json
  | some name => putUnder name a.json v

/-- The section in order with the value put into it; a section that cannot take it stays as it is. -/
def revise (a : Assignment) (v : Json) : Json :=
  match a.name?, v with
  | none, _ => a.json
  | some name, .object es => .object (sortedEntries (put (codePoints name) a.json es))
  | some _, v => v

theorem exact_json (a : Assignment) : Exact a.json := by
  cases a <;> exact exact_ofString _

theorem sorted_json (a : Assignment) : a.json.sorted = a.json := by
  cases a <;> rfl

variable {a b : Assignment} {v w : Json}

/-- Assigning puts the value into its section, and the section into the document. -/
theorem assign_eq (d : Document) (a : Assignment) :
    d.assign a = (a.into ((find? (codePoints a.part) d).getD (.object []))).map fun v =>
      put (codePoints a.part) v d := by
  cases a <;> rfl

theorem exact_revise (hv : Exact v) : Exact (a.revise v) := by
  unfold revise
  split
  · exact a.exact_json
  · exact exact_sorted _ (exact_put hv (spellable_codePoints _) a.exact_json)
  · exact hv

theorem sorted_revise (hv : v.sorted = v) : (a.revise v).sorted = a.revise v := by
  unfold revise
  split
  · exact a.sorted_json
  · exact sorted_sorted (.object _)
  · exact hv

/-- A text put under a name of entries in order, or of the same entries before they are. -/
theorem sortedEntries_put_sortedEntries {es : List (CodePoints × Json)} (hes : (keys es).Nodup)
    (key : CodePoints) (v : Json) :
    sortedEntries (put key v (sortedEntries es)) = sortedEntries (put key v es) := by
  refine sortedEntries_congr (nodup_put (nodup_sortedEntries hes)) (nodup_put hes) fun k => ?_
  rw [find?_put, find?_put, find?_sortedEntries hes]
  split
  · rfl
  · exact (alike_sorted _).symm

/-- A section that takes the value takes it in the order that it is revised to. -/
theorem sorted_of_into (hv : Exact v) (h : a.into v = .ok w) : w.sorted = a.revise v.sorted := by
  rw [into] at h
  cases hname : a.name? with
  | none =>
    rw [hname] at h
    cases h
    simp only [revise, hname]
    exact a.sorted_json
  | some name =>
    rw [hname] at h
    cases v with
    | object es =>
      cases h
      simp only [revise, hname]
      exact congrArg Json.object
        (sortedEntries_put_sortedEntries (exact_object_iff.mp hv).1 _ _).symm
    | _ => cases h

/-- Whether a section takes a value does not depend on its order. -/
theorem into_sorted (a : Assignment) (v : Json) :
    (a.into v.sorted).map (fun _ => ()) = (a.into v).map fun _ => () := by
  rw [into, into]
  cases a.name? with
  | none => rfl
  | some name => cases v <;> rfl

/-- The values of a section all have names, or none has. -/
theorem isSome_name?_of_part (hpart : a.part = b.part) : a.name?.isSome = b.name?.isSome := by
  cases a <;> cases b <;> first | rfl | exact absurd hpart (by simp [part])

/-- Whether a section takes a value does not depend on the values that it has taken. -/
theorem into_revise (hpart : b.part = a.part) (v : Json) :
    (b.into (a.revise v)).map (fun _ => ()) = (b.into v).map fun _ => () := by
  rw [into, into]
  cases hb : b.name? with
  | none => rfl
  | some name =>
    have ha : a.name?.isSome := by rw [isSome_name?_of_part hpart.symm, hb, Option.isSome_some]
    obtain ⟨name', ha⟩ := Option.isSome_iff_exists.mp ha
    simp only [revise, ha]
    cases v <;> rfl

/-- Values under different names can be put in one after the other. -/
theorem revise_comm {name name' : String} (ha : a.name? = some name) (hb : b.name? = some name')
    (hne : codePoints name' ≠ codePoints name) (hv : Exact v) :
    b.revise (a.revise v) = a.revise (b.revise v) := by
  cases v with
  | object es =>
    have hes := (exact_object_iff.mp hv).1
    simp only [revise, ha, hb]
    rw [sortedEntries_put_sortedEntries (nodup_put hes), sortedEntries_put_sortedEntries (nodup_put hes)]
    refine congrArg Json.object
      (sortedEntries_congr (nodup_put (nodup_put hes)) (nodup_put (nodup_put hes)) fun k => ?_)
    simp only [find?_put]
    by_cases hk : codePoints name' = k
    · rw [if_pos hk, if_neg fun h => hne (hk.trans h.symm), if_pos hk]
    · rw [if_neg hk, if_neg hk]
  | _ => simp only [revise, ha, hb]

/-- A value put in twice is the second one. -/
theorem revise_absorb (h : a.name? = b.name?) (hv : Exact v) : b.revise (a.revise v) = b.revise v := by
  cases hb : b.name? with
  | none => simp only [revise, hb]
  | some name =>
    cases v with
    | object es =>
      have hes := (exact_object_iff.mp hv).1
      simp only [revise, h.trans hb, hb]
      rw [sortedEntries_put_sortedEntries (nodup_put hes)]
      refine congrArg Json.object (sortedEntries_congr (nodup_put (nodup_put hes)) (nodup_put hes)
        fun k => ?_)
      simp only [find?_put]
      split <;> rfl
    | _ => simp only [revise, h.trans hb, hb]

end Assignment

namespace Document

/-! ### Forms -/

/-- A document as it is stored: exact, with no section lacking, and with the entries of every object in
order. -/
structure Form where
  entries : Document
  exact : Exact (.object entries)
  whole : ∀ key, (find? key sections).isSome → (find? key entries).isSome
  sorted : sortedEntries entries = entries

namespace Form

variable {f g : Form} {d e : Document} {a b : Assignment}

/-- The form of a document whose lacking sections are filled. -/
def ofDocument (d : Document) (hd : Exact (.object d)) : Form where
  entries := sortedEntries (complete d)
  exact := exact_sorted _ (exact_complete hd)
  whole key hkey := by
    rw [find?_sortedEntries (exact_object_iff.mp (exact_complete hd)).1, Option.isSome_map,
      find?_complete, held?, Option.isSome_or, hkey, Bool.or_true]
  sorted := Json.object.inj (sorted_sorted (.object (complete d)))

theorem nodup (f : Form) : (keys f.entries).Nodup := (exact_object_iff.mp f.exact).1

/-- Every value in a form is in order. -/
theorem find?_map_sorted (f : Form) (key : CodePoints) :
    (find? key f.entries).map Json.sorted = find? key f.entries := by
  rw [← find?_sortedEntries f.nodup, f.sorted]

/-- **Forms with the same lookups are the same.** -/
theorem ext_find? (h : ∀ key, find? key f.entries = find? key g.entries) : f = g := by
  have hentries : f.entries = g.entries := by
    rw [← f.sorted, ← g.sorted]
    exact sortedEntries_congr f.nodup g.nodup fun key => congrArg _ (h key)
  cases f
  cases g
  cases hentries
  rfl

/-- The document has the form. -/
structure Of (f : Form) (d : Document) : Prop where
  exact : Exact (.object d)
  sorted : sortedEntries d = f.entries

theorem of_complete (hd : Exact (.object d)) : (ofDocument d hd).Of (complete d) :=
  ⟨exact_complete hd, rfl⟩

theorem Of.find? (h : f.Of d) (key : CodePoints) :
    find? key f.entries = (find? key d).map Json.sorted := by
  rw [← h.sorted, find?_sortedEntries (exact_object_iff.mp h.exact).1]

theorem of_iff_find? (hd : Exact (.object d)) :
    f.Of d ↔ ∀ key, Json.find? key f.entries = (Json.find? key d).map Json.sorted := by
  refine ⟨Of.find?, fun h => ⟨hd, ?_⟩⟩
  rw [← f.sorted]
  refine sortedEntries_congr (exact_object_iff.mp hd).1 f.nodup fun key => ?_
  rw [h]
  exact alike_sorted _

/-- Documents of one form are written alike. -/
theorem Of.write (h : f.Of d) : d.write = f.entries.write := by
  have hsorted : sortedEntries d = sortedEntries f.entries := h.sorted.trans f.sorted.symm
  rw [Document.write, Document.write, renderSorted, renderSorted, Json.sorted, Json.sorted, hsorted]

/-- What is written of a form is read as the form. -/
theorem read_write (f : Form) : Document.read f.entries.write = .ok f.entries := by
  rw [Document.read_write f.exact, f.sorted]

/-- A form has no section lacking, so it is the form of itself. -/
theorem ofDocument_entries (f : Form) : ofDocument f.entries f.exact = f := by
  refine ext_find? fun key => ?_
  rw [(of_complete f.exact).find?, find?_complete, held?]
  cases hfind : Json.find? key f.entries with
  | some v =>
    rw [Option.some_or, ← hfind, f.find?_map_sorted]
  | none =>
    cases hsection : Json.find? key sections with
    | none => rfl
    | some v =>
      have := f.whole key (by rw [hsection]; rfl)
      rw [hfind] at this
      cases this

/-! ### Values set in a form -/

def sectionOf (f : Form) (a : Assignment) : Json := (Json.find? (codePoints a.part) f.entries).getD (.object [])

theorem find?_part (f : Form) (a : Assignment) :
    Json.find? (codePoints a.part) f.entries = some (f.sectionOf a) := by
  obtain ⟨v, hv⟩ := Option.isSome_iff_exists.mp (f.whole _ (isSome_sections_part a))
  rw [sectionOf, hv, Option.getD_some]

theorem exact_section (f : Form) (a : Assignment) : Exact (f.sectionOf a) :=
  exact_of_find? f.exact (f.find?_part a)

theorem sorted_section (f : Form) (a : Assignment) : (f.sectionOf a).sorted = f.sectionOf a := by
  have := f.find?_map_sorted (codePoints a.part)
  rw [f.find?_part a] at this
  exact Option.some.inj this

/-- The form with a value set; where the section cannot take it, the form as it is. -/
def put (f : Form) (a : Assignment) : Form where
  entries := sortedEntries (Json.put (codePoints a.part) (a.revise (f.sectionOf a)) f.entries)
  exact := exact_sorted _
    (exact_put f.exact (spellable_codePoints _) (Assignment.exact_revise (f.exact_section a)))
  whole key hkey := by
    rw [find?_sortedEntries (nodup_put f.nodup), Option.isSome_map, find?_put]
    split
    · rfl
    · exact f.whole key hkey
  sorted := Json.object.inj (sorted_sorted (.object _))

/-- **A value set** changes the section that it is set in and nothing else. -/
theorem find?_put (f : Form) (a : Assignment) (key : CodePoints) :
    Json.find? key (f.put a).entries
      = if codePoints a.part = key then some (a.revise (f.sectionOf a)) else Json.find? key f.entries := by
  show Json.find? key (sortedEntries _) = _
  rw [find?_sortedEntries (nodup_put f.nodup), Json.find?_put]
  split
  · exact congrArg some (Assignment.sorted_revise (f.sorted_section a))
  · exact f.find?_map_sorted key

theorem section_put (f : Form) (a b : Assignment) :
    (f.put a).sectionOf b = if a.part = b.part then a.revise (f.sectionOf b) else f.sectionOf b := by
  rw [sectionOf, find?_put]
  by_cases hpart : a.part = b.part
  · rw [if_pos hpart, if_pos (congrArg codePoints hpart), Option.getD_some, sectionOf, sectionOf, hpart]
  · rw [if_neg hpart, if_neg fun h => hpart (codePoints_injective h), sectionOf]

/-- Whether the section of an assignment takes the value. -/
def answer (f : Form) (a : Assignment) : Except StoreFailure Unit :=
  (f.entries.assign a).map fun _ => ()

theorem answer_eq (f : Form) (a : Assignment) :
    f.answer a = (a.into (f.sectionOf a)).map fun _ => () := by
  rw [answer, Assignment.assign_eq, sectionOf]
  cases a.into _ <;> rfl

/-- **A document takes the values that its form takes**, and then has the form with the value set. -/
theorem Of.assign (h : f.Of d) (a : Assignment) :
    (d.assign a).map (fun _ => ()) = f.answer a ∧ ∀ d', d.assign a = .ok d' → (f.put a).Of d' := by
  have hsection : f.sectionOf a = ((Json.find? (codePoints a.part) d).getD (.object [])).sorted := by
    rw [sectionOf, h.find?]
    cases Json.find? (codePoints a.part) d <;> rfl
  have hexact : Exact ((Json.find? (codePoints a.part) d).getD (.object [])) := by
    cases hfind : Json.find? (codePoints a.part) d with
    | none => exact exact_object_iff.mpr ⟨List.nodup_nil, fun _ h => nomatch h⟩
    | some v => exact exact_of_find? h.exact hfind
  constructor
  · rw [answer_eq, hsection, Assignment.into_sorted, Assignment.assign_eq]
    cases a.into _ <;> rfl
  · intro d' hd'
    have hexact' := exact_assign h.exact hd'
    rw [Assignment.assign_eq] at hd'
    obtain ⟨w, hw, rfl⟩ := exists_of_map_ok hd'
    refine (of_iff_find? hexact').mpr fun key => ?_
    rw [find?_put, Json.find?_put, hsection, ← Assignment.sorted_of_into hexact hw]
    split
    · rfl
    · exact h.find? key

/-- A value set changes nothing about which values are taken. -/
theorem answer_put (f : Form) (a b : Assignment) : (f.put a).answer b = f.answer b := by
  rw [answer_eq, answer_eq, section_put]
  split
  · next hpart => exact Assignment.into_revise hpart.symm _
  · rfl

/-! ### Two values, and many -/

/-- **Values set in different slots** can be set in either order. -/
theorem put_comm (hne : b.slot ≠ a.slot) (f : Form) : (f.put a).put b = (f.put b).put a := by
  refine ext_find? fun key => ?_
  rw [find?_put, find?_put, find?_put, find?_put, section_put, section_put]
  by_cases hpart : b.part = a.part
  · obtain ⟨name, name', ha, hb, hkey⟩ := exists_names hpart hne
    have hsection : f.sectionOf b = f.sectionOf a := by rw [sectionOf, sectionOf, hpart]
    rw [hpart, if_pos rfl, if_pos rfl, hsection, Assignment.revise_comm ha hb hkey (f.exact_section a)]
    split <;> rfl
  · rw [if_neg hpart, if_neg (Ne.symm hpart)]
    by_cases hb : codePoints b.part = key
    · rw [if_pos hb, if_neg fun h => hpart (codePoints_injective (hb.trans h.symm)), if_pos hb]
    · rw [if_neg hb, if_neg hb]

/-- **A value set in the slot of an earlier one** takes its place. -/
theorem put_absorb (h : a.slot = b.slot) (f : Form) : (f.put a).put b = f.put b := by
  have hpart : a.part = b.part := congrArg Slot.part h
  refine ext_find? fun key => ?_
  rw [find?_put, find?_put, find?_put, section_put, if_pos hpart,
    Assignment.revise_absorb (congrArg Slot.name? h) (f.exact_section b), hpart]
  split <;> rfl

/-- **Values of distinct slots** can be set in any order. -/
theorem foldl_put_perm {as as' : List Assignment} (hperm : as.Perm as')
    (hslots : (as.map Assignment.slot).Nodup) (f : Form) : as.foldl put f = as'.foldl put f := by
  refine hperm.foldl_eq' (fun a ha b hb f => ?_) f
  by_cases hslot : b.slot = a.slot
  · rw [List.inj_on_of_nodup_map hslots hb ha hslot]
  · exact put_comm hslot f

/-- A value is undone by values one of which is set in its slot. -/
theorem foldl_put_absorb {as : List Assignment} (h : ∃ b ∈ as, b.slot = a.slot) (f : Form) :
    as.foldl put (f.put a) = as.foldl put f := by
  induction as generalizing f with
  | nil =>
    obtain ⟨b, hb, -⟩ := h
    cases hb
  | cons c as ih =>
    rw [List.foldl_cons, List.foldl_cons]
    by_cases hslot : c.slot = a.slot
    · rw [put_absorb hslot.symm]
    · rw [put_comm hslot]
      obtain ⟨b, hb, hba⟩ := h
      rcases List.mem_cons.mp hb with rfl | hb
      · exact absurd hba hslot
      · exact ih ⟨b, hb, hba⟩ _

/-- **Values set a second time** change nothing. -/
theorem foldl_put_idem (as : List Assignment) (f : Form) :
    as.foldl put (as.foldl put f) = as.foldl put f := by
  have hundone : ∀ bs : List Assignment, (∀ b ∈ bs, b ∈ as) → ∀ f : Form,
      as.foldl put (bs.foldl put f) = as.foldl put f := by
    intro bs hbs
    induction bs with
    | nil => exact fun _ => rfl
    | cons b bs ih =>
      rw [List.forall_mem_cons] at hbs
      intro f
      rw [List.foldl_cons, ih hbs.2, foldl_put_absorb ⟨b, hbs.1, rfl⟩]
  exact hundone as (fun _ h => h) f

end Form

end Document

end SecretForge
