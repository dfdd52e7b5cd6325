import SecretForge.Proofs.Json.Reading
import SecretForge.Proofs.Json.RoundTrip
import SecretForge.Proofs.Text.Base64
import SecretForge.Proofs.Text.Utf8
import SecretForge.Store.Document

/-!
# What one assignment does to a document

An item document is a JSON object, so it is described by its lookups.  A section that a document lacks
counts as it is at first.  Assigning a value changes one entry: the section itself for the password and
the notes, one name of the section for a field or an attachment.  Everything else stays as it is, up to
the order of entries, which writing settles.

* `Sets` — the document after an assignment, told by the lookups in it and in the document before.
* `read_write` — a version that was written is read as the document with its entries in order.
* **`sets_of_assign`** — assigning to a document that mirrors the one before sets the value.
-/

namespace SecretForge

namespace Assignment

/-- The section of a document that the value belongs to. -/
def part : Assignment → String
  | .field _ _ => "fields"
  | .attachment _ _ => "attachments"
  | .password _ => "password"
  | .notes _ => "notes"

/-- The name of the value in a section that is an object. -/
def name? : Assignment → Option String
  | .field name _ => some name
  | .attachment name _ => some name
  | .password _ => none
  | .notes _ => none

/-- The JSON value stands for the value assigned: an attachment as base 64 of exactly its bytes, any
other value as its text. -/
def Holds : Assignment → Json → Prop
  | .field _ value, v => v = .ofString (Text.Utf8.decodeReplacing value)
  | .attachment _ value, v => ∃ text, v = .ofString text ∧ Text.Base64.decode text = some value
  | .password value, v => v = .ofString (Text.Utf8.decodeReplacing value)
  | .notes text, v => v = .ofString text

end Assignment

namespace Document

open Json

/-! ### Lookups -/

/-- Two lookups find the same value, up to the order of entries inside it. -/
def Alike (x y : Option Json) : Prop := x.map sorted = y.map sorted

/-- What a document holds under a key, where a section that it lacks counts as it is at first. -/
def held? (d : Document) (key : CodePoints) : Option Json := (find? key d).or (find? key sections)

/-- The second document is the first one with its sections completed and one value set. -/
structure Sets (a : Assignment) (before after : Document) : Prop where
  others : ∀ key, key ≠ codePoints a.part → Alike (held? before key) (find? key after)
  own : match a.name? with
    | none => ∃ v, find? (codePoints a.part) after = some v ∧ a.Holds v
    | some name => ∃ es fs v,
      held? before (codePoints a.part) = some (.object es)
        ∧ find? (codePoints a.part) after = some (.object fs)
        ∧ find? (codePoints name) fs = some v ∧ a.Holds v
        ∧ ∀ key, key ≠ codePoints name → Alike (find? key es) (find? key fs)

theorem alike_sorted (x : Option Json) : Alike x (x.map sorted) := by
  cases x with
  | none => rfl
  | some v => exact congrArg some (sorted_sorted v).symm

variable {d e : Document} {key : CodePoints}

/-! ### Reading and writing -/

/-- **A version that was written is read as the document with its entries in order.** -/
theorem read_write (hd : Exact (.object d)) : read (write d) = .ok (sortedEntries d) := by
  have hparse : parse (Json.object d).renderSorted = .ok (.object (sortedEntries d)) :=
    parse_render (exact_sorted _ hd)
  rw [read, write, Text.Utf8.decode_encode]
  simp only [hparse]

theorem read_writable {version : List UInt8} (h : read version = .ok d) :
    Everywhere Writable (.object d) := by
  rw [read] at h
  split at h
  · cases h
  · split at h
    · cases h
    · next hparse =>
      cases h
      exact parse_writable hparse
    · cases h

/-! ### Completing -/

theorem find?_putNew_foldl (es : List (CodePoints × Json)) :
    find? key (es.foldl (fun d e => putNew e.1 e.2 d) d) = (find? key d).or (find? key es) := by
  induction es generalizing d with
  | nil => exact (Option.or_none).symm
  | cons e es ih =>
    rw [List.foldl_cons, ih, find?_putNew, Option.or_assoc, find?]
    congr 1
    split <;> rfl

theorem find?_complete : find? key (complete d) = held? d key := find?_putNew_foldl sections

theorem exact_sections : ∀ e ∈ sections, Spellable e.1 ∧ Exact e.2 := by
  intro e he
  simp only [sections, List.mem_cons, List.not_mem_nil, or_false] at he
  rcases he with rfl | rfl | rfl | rfl
  · exact ⟨spellable_codePoints _, exact_object_iff.mpr ⟨List.nodup_nil, fun _ h => nomatch h⟩⟩
  · exact ⟨spellable_codePoints _, exact_object_iff.mpr ⟨List.nodup_nil, fun _ h => nomatch h⟩⟩
  · exact ⟨spellable_codePoints _, exact_ofString _⟩
  · exact ⟨spellable_codePoints _, exact_ofString _⟩

theorem exact_complete (hd : Exact (.object d)) : Exact (.object (complete d)) := by
  have hes := exact_sections
  rw [complete]
  generalize sections = es at hes
  induction es generalizing d with
  | nil => exact hd
  | cons e es ih =>
    rw [List.forall_mem_cons] at hes
    exact ih (exact_putNew hd hes.1.1 hes.1.2) hes.2

/-! ### Mirrors of a document -/

/-- The second document holds what the first one does, with no section lacking. -/
structure Mirrors (before d : Document) : Prop where
  exact_before : Exact (.object before)
  exact_kept : Exact (.object d)
  alike : ∀ key, Alike (held? before key) (find? key d)

theorem mirrors_complete (hd : Exact (.object d)) : Mirrors d (complete d) :=
  ⟨hd, exact_complete hd, fun _ => by rw [find?_complete]; rfl⟩

/-- A section is not lacking in a mirror. -/
theorem Mirrors.isSome_find? (h : Mirrors e d) (hkey : (find? key sections).isSome) :
    (find? key d).isSome := by
  have hmap := congrArg Option.isSome (h.alike key)
  rw [Option.isSome_map, Option.isSome_map, held?, Option.isSome_or, hkey, Bool.or_true] at hmap
  exact hmap.symm

/-- A document without lacking sections is mirrored by itself once it is sorted. -/
theorem mirrors_sortedEntries (hd : Exact (.object d))
    (hsections : ∀ key, (find? key sections).isSome → (find? key d).isSome) :
    Mirrors (sortedEntries d) d := by
  refine ⟨exact_sorted _ hd, hd, fun key => ?_⟩
  rw [held?, find?_sortedEntries (exact_object_iff.mp hd).1]
  cases hfind : find? key d with
  | some v => exact congrArg some (sorted_sorted v)
  | none =>
    cases hsec : find? key sections with
    | none => rfl
    | some v =>
      have := hsections key (by rw [hsec]; rfl)
      rw [hfind] at this
      cases this

/-! ### Assigning -/

/-- Assigning puts a value under the section's key. -/
theorem exists_put_of_assign {a : Assignment} (h : d.assign a = .ok e) :
    ∃ v, e = put (codePoints a.part) v d
      ∧ match a.name? with
        | none => v.sorted = v ∧ Exact v ∧ a.Holds v
        | some name => ∃ es w, (find? (codePoints a.part) d).getD (.object []) = .object es
          ∧ v = .object (put (codePoints name) w es) ∧ w.sorted = w ∧ Exact w ∧ a.Holds w := by
  have hunder : ∀ {name : String} {text section' v : Json}, putUnder name text section' = .ok v →
      ∃ es, section' = .object es ∧ v = .object (put (codePoints name) text es) := by
    intro name text section' v hput
    unfold putUnder at hput
    split at hput
    · cases hput
      exact ⟨_, rfl, rfl⟩
    all_goals cases hput
  cases a with
  | field name value =>
    obtain ⟨v, hv, rfl⟩ := exists_of_map_ok h
    obtain ⟨es, hes, rfl⟩ := hunder hv
    exact ⟨_, rfl, es, _, hes, rfl, rfl, exact_ofString _, rfl⟩
  | attachment name value =>
    obtain ⟨v, hv, rfl⟩ := exists_of_map_ok h
    obtain ⟨es, hes, rfl⟩ := hunder hv
    exact ⟨_, rfl, es, _, hes, rfl, rfl, exact_ofString _, _, rfl, Text.Base64.decode_encode value⟩
  | password value =>
    cases h
    exact ⟨_, rfl, rfl, exact_ofString _, rfl⟩
  | notes text =>
    cases h
    exact ⟨_, rfl, rfl, exact_ofString _, rfl⟩

theorem isSome_sections_part (a : Assignment) :
    (find? (codePoints a.part) sections).isSome = true := by
  rw [Option.isSome_iff_ne_none, Ne, find?_eq_none_iff, not_not]
  cases a <;> simp [Assignment.part, sections, keys]

/-- The value of an assignment leaves a mirror exact. -/
theorem exact_assign {a : Assignment} (hd : Exact (.object d)) (h : d.assign a = .ok e) :
    Exact (.object e) := by
  obtain ⟨v, rfl, hv⟩ := exists_put_of_assign h
  refine exact_put hd (spellable_codePoints _) ?_
  cases hname : a.name? with
  | none =>
    rw [hname] at hv
    exact hv.2.1
  | some name =>
    rw [hname] at hv
    obtain ⟨es, w, hes, rfl, -, hw, -⟩ := hv
    refine exact_put ?_ (spellable_codePoints _) hw
    cases hfind : find? (codePoints a.part) d with
    | none =>
      rw [hfind] at hes
      cases hes
      exact exact_object_iff.mpr ⟨List.nodup_nil, fun _ h => nomatch h⟩
    | some u =>
      rw [hfind] at hes
      exact (show u = _ from hes) ▸ exact_of_find? hd hfind

/-- What was written of a mirror with a value assigned mirrors it again. -/
theorem mirrors_assign {a : Assignment} {before : Document} (hm : Mirrors before d)
    (h : d.assign a = .ok e) : Mirrors (sortedEntries e) e := by
  refine mirrors_sortedEntries (exact_assign hm.exact_kept h) fun key hkey => ?_
  obtain ⟨v, rfl, -⟩ := exists_put_of_assign h
  rw [find?_put]
  split
  · rfl
  · exact hm.isSome_find? hkey

theorem exact_of_held? {v : Json} (hd : Exact (.object d)) (h : held? d key = some v) : Exact v := by
  rcases Option.or_eq_some_iff.mp h with h | ⟨-, h⟩
  · exact exact_of_find? hd h
  · exact (exact_sections _ (mem_of_find? h)).2

/-- Only an object becomes an object when it is sorted. -/
theorem exists_object_of_sorted {v : Json} {fs : List (CodePoints × Json)}
    (h : v.sorted = .object fs) : ∃ es, v = .object es ∧ sortedEntries es = fs := by
  cases v with
  | object es => exact ⟨es, rfl, Json.object.inj h⟩
  | _ => cases h

/-- **Assigning to a mirror of a document sets the value in the document.** -/
theorem sets_of_assign {a : Assignment} {before : Document} (hm : Mirrors before d)
    (h : d.assign a = .ok e) : Sets a before (sortedEntries e) := by
  have hnodup := (exact_object_iff.mp (exact_assign hm.exact_kept h)).1
  obtain ⟨v, rfl, hv⟩ := exists_put_of_assign h
  constructor
  · intro key hkey
    rw [find?_sortedEntries hnodup, find?_put, if_neg (Ne.symm hkey)]
    exact (hm.alike key).trans (alike_sorted _)
  · have hpart : find? (codePoints a.part) (sortedEntries (put (codePoints a.part) v d))
        = some v.sorted := by
      rw [find?_sortedEntries hnodup, find?_put, if_pos rfl]
      rfl
    cases hname : a.name? with
    | none =>
      rw [hname] at hv
      exact ⟨v, by rw [hpart, hv.1], hv.2.2⟩
    | some name =>
      rw [hname] at hv
      obtain ⟨es, w, hes, rfl, hw, hexact, hholds⟩ := hv
      -- the section that the value is put into is the one of the document before
      obtain ⟨u, hu⟩ := Option.isSome_iff_exists.mp (hm.isSome_find? (isSome_sections_part a))
      rw [hu] at hes
      obtain rfl : u = .object es := hes
      have halike := hm.alike (codePoints a.part)
      rw [Alike, hu, Option.map_some, Option.map_eq_some_iff] at halike
      obtain ⟨u, hheld, hsorted⟩ := halike
      obtain ⟨es', rfl, hes'⟩ := exists_object_of_sorted hsorted
      have hexact' := exact_object_iff.mp (exact_of_held? hm.exact_before hheld)
      have hnodup' : (Json.keys (put (codePoints name) w es)).Nodup :=
        nodup_put (exact_object_iff.mp (exact_of_find? hm.exact_kept hu)).1
      refine ⟨es', _, w, hheld, hpart, ?_, hholds, fun key hkey => ?_⟩
      · rw [find?_sortedEntries hnodup', find?_put, if_pos rfl, Option.map_some, hw]
      · rw [Alike, ← find?_sortedEntries hexact'.1, hes', find?_sortedEntries hnodup', find?_put,
          if_neg (Ne.symm hkey), find?_sortedEntries (exact_object_iff.mp
            (exact_of_find? hm.exact_kept hu)).1]
        exact alike_sorted _

end Document

end SecretForge
