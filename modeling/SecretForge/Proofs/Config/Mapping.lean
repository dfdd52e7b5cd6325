import SecretForge.Proofs.Config.Declaration
import SecretForge.Proofs.Config.RoundTrip

/-!
# The mapping form of a template

A template is written as a mapping that leaves out whatever is empty: a section without members, a text
without characters, the name or the command of an entry.  Reading puts the same empty value in the place of
each, so nothing is lost.  A mapping that is read for the first time may say the same in other ways, with
numbers for texts or with null for an empty list; written again, it is in the form that stays as it is.

* `Template.mapping` — the mapping form, as the entries that a template is read from.
* `Template.rewritten` — a mapping read and written again.
* `nodup_params` — the params that are read have distinct names, whatever is read.
* **`mapping_lossless`** — the mapping form gives the template back, and a mapping written again is in it.
-/

namespace SecretForge

namespace Template

variable {ν : Type} [Layered ν] {entries : List (ν × ν)} {t : Template (List String)}

/-- The mapping form of a template. -/
def mapping (t : Template (List String)) : List (Value × Value) := Tree.toEntries t.toEntries

/-- A mapping in the form of the template that it describes. -/
def rewritten (entries : List (ν × ν)) : Except EntryFault (List (Value × Value)) :=
  (ofEntries entries).map mapping

theorem toEntries_eq (t : Template (List String)) : t.toEntries = kept t.parts :=
  Tree.map.inj (toTree_eq t)

/-- A template with distinct params from its mapping form. -/
theorem ofEntries_mapping (hd : (t.params.map (·.1)).Nodup) : ofEntries t.mapping = .ok t := by
  have hshows : ShowsEntries t.mapping t.toEntries := showsEntries_toEntries t.toEntries
  rw [toEntries_eq] at hshows
  exact ofEntries_shows hd hshows

/-- The params of a template that is read have distinct names: each is put in under its own. -/
theorem nodup_params (h : ofEntries entries = .ok t) : (t.params.map (·.1)).Nodup := by
  have hparams := paramsIn_of_ofEntries h
  rw [paramsIn] at hparams
  split at hparams
  · rw [← Except.ok.inj hparams]
    exact .nil
  · split at hparams
    · obtain ⟨declared, -, hdeclared⟩ := paramsOf_putAll hparams
      rw [hdeclared]
      exact nodup_putAll declared
    · cases hparams

/-- **The mapping form of a template is lossless.**  Whatever its texts and values, any of them empty, a
template whose params have distinct names is read from its mapping form as it was, its params in the same
order; and a mapping of any kind that is accepted is written in a form that, read and written again, stays
the same. -/
theorem mapping_lossless :
    (∀ t : Template (List String), (t.params.map (·.1)).Nodup → ofEntries t.mapping = .ok t)
      ∧ ∀ {ν : Type} [Layered ν] (entries : List (ν × ν)) (form : List (Value × Value)),
        rewritten entries = .ok form → rewritten form = .ok form := by
  refine ⟨fun t hd => ofEntries_mapping hd, fun entries form hform => ?_⟩
  obtain ⟨t, hread, rfl⟩ := exists_of_map_ok hform
  rw [rewritten, ofEntries_mapping (nodup_params hread)]
  rfl

/-- A template with everything empty that can be, down to the name of a param. -/
def hollow : Template (List String) where
  name := ""
  fields := [⟨"", ""⟩, ⟨"a", ""⟩]
  attachments := [⟨"", "b"⟩]
  params := [("p", []), ("", ["", "q"])]

/-- A mapping that says so in other ways: null for a name and for values, a number for a param. -/
def terse : List (Value × Value) :=
  [(.text "item_name", .null), (.text "notes", .text ""),
    (.text "params", .map [(.scalar (.int 7), .null)])]

/-- Empty texts and lists come back, and the mapping with null in it is written in the form that stays. -/
theorem mapping_lossless_hollow :
    (hollow.params.map (·.1)).Nodup ∧ ofEntries hollow.mapping = .ok hollow
      ∧ ∃ form, rewritten terse = .ok form ∧ rewritten form = .ok form := by
  have hd : (hollow.params.map (·.1)).Nodup := by decide
  obtain ⟨form, hform⟩ : ∃ form, rewritten terse = .ok form := ⟨_, rfl⟩
  exact ⟨hd, mapping_lossless.1 hollow hd, form, hform, mapping_lossless.2 terse form hform⟩

end Template

end SecretForge
