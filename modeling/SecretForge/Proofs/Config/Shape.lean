import Mathlib.Data.List.Forall2
import SecretForge.Proofs.Config.Fault

/-!
# The shape of a config

Which values are configs.  A config is a list of mappings; in each of them the fields and the attachments
are lists of mappings and the params a mapping to lists, unless they are left out.  What is left out may
also be written as any value that counts as absent, of whatever kind.  All else in a mapping is taken over
as its text, and has one unless a number in it is too long to be written.

* `Legible` — everything in a value has a text; `legible_vertex` — a value of a graph is legible if its
  scalars are.
* `ItemShaped` — a value has the shape of a template.
* `ofEntries_shape` — a mapping of legible values gives a template exactly when it has this shape.
* `templatesFrom_shape`, `templatesFrom_misshapen` — so do the members of a list, and the first one that
  has another shape is reported.
* **`parse_accepts`** — a config text is accepted exactly when its value is a list of values of this shape.
-/

namespace SecretForge

/-! ### Values inside a value -/

section

variable {ν : Type} [Layered ν]

/-- A value is another one or lies somewhere inside it. -/
inductive Layered.Within (v : ν) : ν → Prop where
  | self : Within v v
  | part {w u : ν} (hw : Within v w) (hu : u ∈ (Layered.layer w).parts) : Within v u

/-- A value and everything inside it has a text. -/
def Legible (v : ν) : Prop :=
  ∀ w, Layered.Within v w → (∃ text, Layered.plain w = .ok text) ∧ ∃ text, Layered.quoted w = .ok text

namespace Legible

variable {v w : ν}

theorem of_within (h : Legible v) (hw : Layered.Within v w) : Legible w := fun u hu =>
  h u (by
    induction hu with
    | self => exact hw
    | part _ hpart ih => exact .part ih hpart)

theorem of_part (h : Legible v) (hw : w ∈ (Layered.layer v).parts) : Legible w :=
  h.of_within (.part .self hw)

theorem of_items (h : Legible v) {vs : List ν} (hvs : Layered.items? v = some vs) :
    ∀ w ∈ vs, Legible w := by
  intro w hw
  rw [Layered.items?] at hvs
  split at hvs
  · next items hlayer =>
    cases hvs
    exact h.of_part (by rwa [hlayer])
  · cases hvs

theorem of_entries (h : Legible v) {entries : List (ν × ν)}
    (hentries : Layered.entries? v = some entries) : ∀ e ∈ entries, Legible e.1 ∧ Legible e.2 := by
  intro e he
  rw [Layered.entries?] at hentries
  split at hentries
  · next es hlayer =>
    cases hentries
    have hpart (w : ν) (hw : w = e.1 ∨ w = e.2) : Legible w :=
      h.of_part (by
        rw [hlayer]
        exact List.mem_flatMap.mpr ⟨e, he, by simpa using hw⟩)
    exact ⟨hpart e.1 (.inl rfl), hpart e.2 (.inr rfl)⟩
  · cases hentries

theorem plain_ok (h : Legible v) : ∃ text, Layered.plain v = .ok text := (h v .self).1

theorem quoted_ok (h : Legible v) : ∃ text, Layered.quoted v = .ok text := (h v .self).2

end Legible

/-! ### Shapes -/

def IsMapping (v : ν) : Prop := ∃ entries, Layered.entries? v = some entries

/-- A value is a list all of whose members are mappings. -/
def IsMappingList (v : ν) : Prop := ∃ vs, Layered.items? v = some vs ∧ ∀ w ∈ vs, IsMapping w

def IsNullOrList (v : ν) : Prop := isNull v = true ∨ ∃ vs, Layered.items? v = some vs

/-- Null is no list. -/
theorem items?_of_isNull {v : ν} (h : isNull v = true) : Layered.items? v = none := by
  rw [isNull, decide_eq_true_eq] at h
  rw [Layered.items?]
  split
  · next items hlayer => rw [hlayer] at h; cases h
  · rfl

/-- A value is a mapping all of whose values are null or lists. -/
def IsListMapping (v : ν) : Prop :=
  ∃ entries, Layered.entries? v = some entries ∧ ∀ e ∈ entries, IsNullOrList e.2

/-- What stands under a key, if anything, counts as absent or has a shape. -/
def LeftOutOr (shape : ν → Prop) (key : String) (entries : List (ν × ν)) : Prop :=
  ∀ v, Layered.under? key entries = some v → (Layered.layer v).isEmpty = true ∨ shape v

/-- The entries of a mapping that describes a template. -/
structure EntriesShaped (entries : List (ν × ν)) : Prop where
  fields : LeftOutOr IsMappingList "fields" entries
  attachments : LeftOutOr IsMappingList "attachments" entries
  params : LeftOutOr IsListMapping "params" entries

/-- A value has the shape of a template. -/
def ItemShaped (v : ν) : Prop := ∃ entries, Layered.entries? v = some entries ∧ EntriesShaped entries

/-- A template is the one that a value describes. -/
def Describes (v : ν) (t : Template (List String)) : Prop :=
  ∃ entries, Layered.entries? v = some entries ∧ Template.ofEntries entries = .ok t

/-! ### Sections -/

theorem exists_of_under? {key : String} {entries : List (ν × ν)} {v : ν}
    (h : Layered.under? key entries = some v) : ∃ e ∈ entries, e.2 = v := by
  obtain ⟨e, he, rfl⟩ := Option.map_eq_some_iff.mp h
  exact ⟨e, List.mem_of_find?_eq_some he, rfl⟩

/-- Entries all of whose keys and values are legible. -/
def LegibleEntries (entries : List (ν × ν)) : Prop := ∀ e ∈ entries, Legible e.1 ∧ Legible e.2

variable {entries : List (ν × ν)}

theorem LegibleEntries.under {key : String} {v : ν} (h : LegibleEntries entries)
    (hv : Layered.under? key entries = some v) : Legible v := by
  obtain ⟨e, he, rfl⟩ := exists_of_under? hv
  exact (h e he).2

theorem section?_eq_some_iff {key : String} {v : ν} :
    Template.section? key entries = some v
      ↔ Layered.under? key entries = some v ∧ (Layered.layer v).isEmpty = false := by
  rw [Template.section?, Option.filter_eq_some_iff, Bool.not_eq_true']

/-- A section that is not found is left out. -/
theorem leftOut_of_section?_none {shape : ν → Prop} {key : String}
    (h : Template.section? key entries = none) : LeftOutOr shape key entries := by
  intro v hv
  refine .inl (Bool.not_eq_false _ |>.mp fun hempty => ?_)
  rw [section?_eq_some_iff.mpr ⟨hv, hempty⟩] at h
  cases h

/-- A section that is found has to have its shape. -/
theorem leftOutOr_iff_of_section? {shape : ν → Prop} {key : String} {v : ν}
    (h : Template.section? key entries = some v) : LeftOutOr shape key entries ↔ shape v := by
  obtain ⟨hunder, hempty⟩ := section?_eq_some_iff.mp h
  constructor
  · intro hshape
    refine (hshape v hunder).resolve_left fun h => ?_
    rw [hempty] at h
    cases h
  · rintro hv w hw
    rw [hunder] at hw
    cases hw
    exact .inr hv

/-! ### Templates -/

/-- A failure that is reported as a wrong shape. -/
def IsShape (f : EntryFault) : Prop := ∃ fault, f = .shape fault

theorem textUnder_ends_ok (key : String) (h : LegibleEntries entries) :
    EndsAs (fun _ => False) (fun _ => True) (textUnder key entries) := by
  rw [textUnder]
  split
  · trivial
  · next v hv =>
    obtain ⟨text, htext⟩ := (h.under hv).plain_ok
    exact .ite trivial (by rw [htext]; trivial)

theorem entry_shape {v : ν} (h : Legible v) :
    EndsAs (fun f => ¬ IsMapping v ∧ IsShape f) (fun _ => IsMapping v) (Entry.ofValue v) := by
  rw [Entry.ofValue]
  split
  · next entries hentries =>
    have htext (key : String) := textUnder_ends_ok key (h.of_entries hentries)
    exact .bind ((htext _).imp (fun _ => False.elim) fun _ h => h) fun _ _ =>
      .bind ((htext _).imp (fun _ => False.elim) fun _ h => h) fun _ _ => .pure ⟨entries, hentries⟩
  · next hnone =>
    obtain ⟨text, htext⟩ := h.quoted_ok
    rw [htext]
    have hnot : ¬ IsMapping v := by simp [IsMapping, hnone]
    exact .throw ⟨hnot, _, rfl⟩

namespace Template

theorem paramValues_shape (name : String) {v : ν} (h : Legible v) :
    EndsAs (fun f => ¬ IsNullOrList v ∧ IsShape f) (fun _ => IsNullOrList v) (paramValues name v) := by
  rw [paramValues]
  split
  · next hnull => exact .inl hnull
  · next hnull =>
    split
    · next vs hvs =>
      have hplain (w : ν) (hw : w ∈ vs) :
          EndsAs (fun _ => False) (fun _ => True) ((Layered.plain w).mapError EntryFault.text) := by
        obtain ⟨text, htext⟩ := (h.of_items hvs w hw).plain_ok
        rw [htext]
        trivial
      exact (EndsAs.mapM hplain).imp (fun _ => False.elim) fun _ _ => .inr ⟨vs, hvs⟩
    · next hnone =>
      have hnot : ¬ IsNullOrList v := by simp [IsNullOrList, hnull, hnone]
      exact .error ⟨hnot, _, rfl⟩

theorem paramsOf_shape (h : LegibleEntries entries) :
    EndsAs (fun f => (∃ e ∈ entries, ¬ IsNullOrList e.2) ∧ IsShape f)
      (fun _ => ∀ e ∈ entries, IsNullOrList e.2) (paramsOf entries) := by
  refine (EndsAs.foldlM_each (G := fun e f => ¬ IsNullOrList e.2 ∧ IsShape f)
    (P := fun e => IsNullOrList e.2) fun params e he => ?_).imp ?_ fun _ h => h
  · obtain ⟨name, hname⟩ := (h e he).1.plain_ok
    have hvalues := paramValues_shape name (h e he).2
    obtain ⟨k, v⟩ := e
    simp only at hname ⊢
    rw [hname]
    show EndsAs _ _ (paramValues name v >>= fun values => pure (putParam params name values))
    exact .bind hvalues fun _ hv => .pure hv
  · rintro f ⟨e, he, hshape, hf⟩
    exact ⟨⟨e, he, hshape⟩, hf⟩

theorem paramsIn_shape (h : LegibleEntries entries) :
    EndsAs (fun f => ¬ LeftOutOr IsListMapping "params" entries ∧ IsShape f)
      (fun _ => LeftOutOr IsListMapping "params" entries) (paramsIn entries) := by
  rw [paramsIn]
  split
  · next hsection => exact leftOut_of_section?_none hsection
  · next v hsection =>
    rw [leftOutOr_iff_of_section? hsection]
    have hv := h.under (section?_eq_some_iff.mp hsection).1
    split
    · next es hes =>
      refine (paramsOf_shape (hv.of_entries hes)).imp ?_ fun _ hall => ⟨es, hes, hall⟩
      rintro f ⟨⟨e, he, hnot⟩, hf⟩
      refine ⟨fun hlist => ?_, hf⟩
      obtain ⟨es', hes', hall⟩ := hlist
      rw [hes] at hes'
      cases hes'
      exact hnot (hall e he)
    · next hnone =>
      have hnot : ¬ IsListMapping v := by simp [IsListMapping, hnone]
      exact .error ⟨hnot, _, rfl⟩

/-- The members of a section that is a list are legible, and the section has its shape if they are
mappings. -/
theorem sectionItems?_some {key : String} {vs : List ν} (h : LegibleEntries entries)
    (hvs : sectionItems? key entries = some vs) :
    (∀ v ∈ vs, Legible v)
      ∧ (LeftOutOr IsMappingList key entries ↔ ∀ v ∈ vs, IsMapping v) := by
  rw [sectionItems?] at hvs
  split at hvs
  · next hsection =>
    cases hvs
    exact ⟨List.forall_mem_nil _,
      iff_of_true (leftOut_of_section?_none hsection) (List.forall_mem_nil _)⟩
  · next v hsection =>
    refine ⟨(h.under (section?_eq_some_iff.mp hsection).1).of_items hvs, ?_⟩
    rw [leftOutOr_iff_of_section? hsection]
    simp [IsMappingList, hvs]

theorem sectionItems?_none {key : String} (hnone : sectionItems? key entries = none) :
    ¬ LeftOutOr IsMappingList key entries := by
  rw [sectionItems?] at hnone
  split at hnone
  · cases hnone
  · next v hsection =>
    rw [leftOutOr_iff_of_section? hsection]
    simp [IsMappingList, hnone]

/-- **A mapping of legible values** gives a template exactly when it has the shape of one. -/
theorem ofEntries_shape (h : LegibleEntries entries) :
    EndsAs (fun f => ¬ EntriesShaped entries ∧ IsShape f) (fun _ => EntriesShaped entries)
      (ofEntries entries) := by
  have htext (key : String) : EndsAs (fun f => ¬ EntriesShaped entries ∧ IsShape f) (fun _ => True)
      (textUnder key entries) :=
    (textUnder_ends_ok key h).imp (fun _ => False.elim) fun _ h => h
  rw [ofEntries]
  split
  · next fields attachments hfields hattachments =>
    obtain ⟨hfields, hfieldsShape⟩ := sectionItems?_some h hfields
    obtain ⟨hattachments, hattachmentsShape⟩ := sectionItems?_some h hattachments
    have hmembers (vs : List ν) (hvs : ∀ v ∈ vs, Legible v)
        (hshape : EntriesShaped entries → ∀ v ∈ vs, IsMapping v) :
        EndsAs (fun f => ¬ EntriesShaped entries ∧ IsShape f) (fun _ => ∀ v ∈ vs, IsMapping v)
          (vs.mapM Entry.ofValue) := by
      refine (EndsAs.mapM_each fun v hv => entry_shape (hvs v hv)).imp ?_ fun _ h => h
      rintro f ⟨v, hv, hnot, hf⟩
      exact ⟨fun hall => hnot (hshape hall v hv), hf⟩
    have hparams := (paramsIn_shape h).imp (fun f hf => (⟨fun hall => hf.1 hall.params, hf.2⟩ :
      ¬ EntriesShaped entries ∧ IsShape f)) fun _ h => h
    exact .bind hparams fun _ hparams => .bind (htext _) fun _ _ =>
      .bind (hmembers fields hfields fun hall => hfieldsShape.mp hall.fields) fun _ hfields =>
      .bind (hmembers attachments hattachments fun hall => hattachmentsShape.mp hall.attachments)
        fun _ hattachments =>
      .bind (htext _) fun _ _ => .bind (htext _) fun _ _ =>
      .pure ⟨hfieldsShape.mpr hfields, hattachmentsShape.mpr hattachments, hparams⟩
  · next hnone =>
    refine .throw ⟨fun hall => ?_, _, rfl⟩
    cases hfields : sectionItems? "fields" entries with
    | none => exact sectionItems?_none hfields hall.fields
    | some fields =>
      cases hattachments : sectionItems? "attachments" entries with
      | none => exact sectionItems?_none hattachments hall.attachments
      | some attachments => exact hnone fields attachments hfields hattachments

end Template

/-! ### Lists of templates -/

namespace Config

/-- **The members of a list** of legible values: they give templates, one for each, exactly when all of
them have the shape of one. -/
theorem templatesFrom_shape {vs : List ν} (h : ∀ v ∈ vs, Legible v) (index : Nat) :
    EndsAs (fun _ => ∃ v ∈ vs, ¬ ItemShaped v)
      (fun ts => (∀ v ∈ vs, ItemShaped v) ∧ List.Forall₂ Describes vs ts) (templatesFrom index vs) := by
  induction vs generalizing index with
  | nil => exact .pure ⟨List.forall_mem_nil _, .nil⟩
  | cons v vs ih =>
    rw [List.forall_mem_cons] at h
    rw [templatesFrom]
    split
    · next hnone => exact .error ⟨v, List.mem_cons_self, by simp [ItemShaped, hnone]⟩
    · next entries hentries =>
      have hshape := Template.ofEntries_shape (h.1.of_entries hentries)
      have hitem : ItemShaped v ↔ EntriesShaped entries := by simp [ItemShaped, hentries]
      rcases hmade : Template.ofEntries entries with (_ | _) | t <;> rw [hmade] at hshape
      · exact .error ⟨v, List.mem_cons_self, mt hitem.mp hshape.1⟩
      · exact .error ⟨v, List.mem_cons_self, mt hitem.mp hshape.1⟩
      · have hrest := ih h.2 (index + 1)
        refine (hrest.imp ?_ fun _ hts => hts).map fun ts hts =>
          ⟨List.forall_mem_cons.mpr ⟨⟨entries, hentries, hshape⟩, hts.1⟩, .cons ⟨entries, hentries, hmade⟩ hts.2⟩
        rintro f ⟨w, hw, hshape⟩
        exact ⟨w, List.mem_cons_of_mem v hw, hshape⟩

/-- The report of a member that is no mapping names its index. -/
theorem message_notAMapping (index : Nat) (kind : String) :
    ∃ rest : String, (ConfigFault.notAMapping index kind).message = s!"config[{index}]: {rest}" := by
  have hsplit : "]: expected a mapping, got " = "]: " ++ "expected a mapping, got " := rfl
  refine ⟨"expected a mapping, got " ++ kind, ?_⟩
  show "config[" ++ toString index ++ "]: expected a mapping, got " ++ kind
    = "config[" ++ toString index ++ "]: " ++ ("expected a mapping, got " ++ kind)
  rw [hsplit]
  simp only [String.append_assoc]

/-- **The first member of another shape** is reported with its index, whatever stands behind it. -/
theorem templatesFrom_misshapen {before after : List ν} {v : ν}
    (h : ∀ w ∈ before ++ v :: after, Legible w) (hbefore : ∀ w ∈ before, ItemShaped w)
    (hv : ¬ ItemShaped v) (index : Nat) :
    ∃ (fault : ConfigFault) (rest : String), templatesFrom index (before ++ v :: after) = .error (.config fault)
      ∧ fault.message = s!"config[{index + before.length}]: {rest}" := by
  induction before generalizing index with
  | nil =>
    rw [List.nil_append, templatesFrom]
    split
    · obtain ⟨rest, hrest⟩ := message_notAMapping index (Layered.layer v).kind
      exact ⟨_, rest, rfl, hrest⟩
    · next entries hentries =>
      have hshape := Template.ofEntries_shape ((h v (by simp)).of_entries hentries)
      rcases hmade : Template.ofEntries entries with f | t <;> rw [hmade] at hshape
      · obtain ⟨-, fault, rfl⟩ := hshape
        exact ⟨_, fault.message, rfl, rfl⟩
      · exact absurd ⟨entries, hentries, hshape⟩ hv
  | cons w before ih =>
    obtain ⟨entries, hentries, hshaped⟩ := hbefore w List.mem_cons_self
    have hshape := Template.ofEntries_shape ((h w (by simp)).of_entries hentries)
    obtain ⟨fault, rest, hrest, hmessage⟩ := ih (fun u hu => h u (List.mem_cons_of_mem w hu))
      (fun u hu => hbefore u (List.mem_cons_of_mem w hu)) (index + 1)
    rcases hmade : Template.ofEntries entries with f | t <;> rw [hmade] at hshape
    · exact absurd hshaped hshape.1
    · refine ⟨fault, rest, ?_, ?_⟩
      · rw [List.cons_append, templatesFrom, hentries]
        simp only [hmade, hrest]
        rfl
      · rw [hmessage, List.length_cons, Nat.add_assoc, Nat.add_comm 1]

/-- The templates of a list are those of its members. -/
theorem ofValue_list {source : String} {v : ν} {vs : List ν} (h : Layered.items? v = some vs) :
    ofValue source v = templatesFrom 0 vs := by
  have hnull : ¬ isNull v = true := fun hnull => by
    rw [items?_of_isNull hnull] at h
    cases h
  rw [ofValue, if_neg hnull, h]

/-- A value that is no list is reported. -/
theorem ofValue_noList (source : String) {v : ν} (h : Layered.items? v = none) :
    ∃ fault, ofValue source v = .error (.config fault) := by
  rw [ofValue, h]
  split
  · exact ⟨_, rfl⟩
  · exact ⟨_, rfl⟩

end Config

end

/-! ### Values of a graph -/

theorem Scalar.exists_quoted {s : Scalar} {text : String} (h : s.plain = .ok text) :
    ∃ shown, s.quoted = .ok shown := by
  cases s with
  | int i => exact ⟨text, h⟩
  | _ => exact ⟨_, rfl⟩

theorem Layer.mem_parts_mapValues {ν μ : Type} {layer : Layer ν} {n : ν} (f : ν → μ)
    (h : n ∈ layer.parts) : f n ∈ (layer.mapValues f).parts := by
  cases layer with
  | scalar s => cases h
  | list items => exact List.mem_map_of_mem h
  | map entries =>
    obtain ⟨e, he, hn⟩ := List.mem_flatMap.mp h
    refine List.mem_flatMap.mpr ⟨(f e.1, f e.2), List.mem_map_of_mem he, ?_⟩
    simp only [List.mem_cons, List.not_mem_nil, or_false] at hn ⊢
    exact hn.imp (congrArg f) (congrArg f)
  | set members => exact List.mem_map_of_mem h
  | pair a b =>
    simp only [parts, mapValues, List.mem_cons, List.not_mem_nil, or_false] at h ⊢
    exact h.imp (congrArg f) (congrArg f)

namespace Graph

variable {g : Graph} {v : Vertex g}

def ScalarsShown (v : Vertex g) : Prop :=
  ∀ w, Layered.Within v w → ∀ s, Layered.layer w = .scalar s → ∃ text, s.plain = .ok text

theorem quotedIn_shown (h : ScalarsShown v) (levels : Nat) (around : List Nat) (w : Vertex g)
    (hw : Layered.Within v w) :
    EndsAs (fun _ => False) (fun _ => True) (g.quotedIn levels around w.number) := by
  induction levels generalizing around w with
  | zero => trivial
  | succ levels ih =>
    rw [quotedIn]
    refine .ite trivial (.bind (Layer.traverse_ends fun n hn => ?_) fun l hl => Layer.text_ends fun s hs => ?_)
    · exact ih _ ⟨n⟩ (.part hw (Layer.mem_parts_mapValues Vertex.mk hn))
    · have hlayer : Layered.layer w = .scalar s := by
        show (g.layer w.number).mapValues Vertex.mk = _
        rw [hl s hs]
        rfl
      obtain ⟨text, htext⟩ := h w hw s hlayer
      obtain ⟨shown, hshown⟩ := Scalar.exists_quoted htext
      rw [hshown]
      trivial

/-- The scalars in a value have a text if all those of the graph have one. -/
theorem scalarsShown_of_cells (h : ∀ c ∈ g.cells, ∀ s ∈ c.scalar?, s.plain.toOption.isSome = true) :
    ScalarsShown v := by
  intro w _ s hlayer
  have hread : g.layer w.number = .scalar s := by
    have hmap : (g.layer w.number).mapValues Vertex.mk = .scalar s := hlayer
    cases hcell : g.layer w.number <;> rw [hcell] at hmap <;> cases hmap
    rfl
  rw [layer, Array.getD_eq_getD_getElem?] at hread
  cases hcell : g.cells[w.number]? with
  | none =>
    rw [hcell] at hread
    cases hread
    exact ⟨_, rfl⟩
  | some c =>
    rw [hcell] at hread
    have hs := h c (Array.mem_of_getElem? hcell) s (by rw [show c = .scalar s from hread]; rfl)
    obtain ⟨text, htext⟩ := Option.isSome_iff_exists.mp hs
    cases hplain : s.plain with
    | error f => rw [hplain] at htext; cases htext
    | ok text => exact ⟨text, rfl⟩

/-- **A value of a graph is legible** if the scalars in it are. -/
theorem legible_vertex (h : ScalarsShown v) : Legible v := by
  intro w hw
  have hquoted : ∃ text, Layered.quoted w = .ok text := by
    have hends := quotedIn_shown h (g.cells.size + 1) [] w hw
    cases hmade : g.quotedIn (g.cells.size + 1) [] w.number with
    | error f => rw [hmade] at hends; exact hends.elim
    | ok text => exact ⟨text, hmade⟩
  refine ⟨?_, hquoted⟩
  rw [Layered.plain]
  split
  · next s hlayer => exact h w hw s hlayer
  · exact hquoted

end Graph

/-! ### Config texts -/

namespace Config

/-- **Exactly the config shape is accepted.**  Of a text whose value has a text for every scalar in it:
it gives templates exactly when its value is a list of values that have the shape of a template, and then
one template for each of them, in order.  If the value is a list but some member has another shape, the
report names the first such member, whatever stands behind it.  If the value is no list, that is
reported. -/
theorem parse_accepts {text source : String} {g : Graph} (hload : Yaml.load text = .ok g)
    (hshown : Graph.ScalarsShown g.top) :
    ((∃ ts, parse text source = .ok ts)
      ↔ ∃ vs, Layered.items? g.top = some vs ∧ ∀ v ∈ vs, ItemShaped v)
      ∧ (∀ ts, parse text source = .ok ts →
          ∃ vs, Layered.items? g.top = some vs ∧ List.Forall₂ Describes vs ts)
      ∧ (∀ before v after, Layered.items? g.top = some (before ++ v :: after) →
          (∀ w ∈ before, ItemShaped w) → ¬ ItemShaped v →
            ∃ (fault : ConfigFault) (rest : String), parse text source = .error (.config fault)
              ∧ fault.message = s!"config[{before.length}]: {rest}")
      ∧ (Layered.items? g.top = none → ∃ fault, parse text source = .error (.config fault)) := by
  have hlegible := Graph.legible_vertex hshown
  have hparse : parse text source = ofValue source g.top := by rw [parse, hload]
  rw [hparse]
  cases hitems : Layered.items? g.top with
  | none =>
    obtain ⟨fault, hfault⟩ := ofValue_noList source hitems
    rw [hfault]
    refine ⟨iff_of_false ?_ ?_, ?_, ?_, fun _ => ⟨fault, rfl⟩⟩
    · rintro ⟨ts, ⟨⟩⟩
    · rintro ⟨vs, ⟨⟩, -⟩
    · rintro ts ⟨⟩
    · rintro before v after ⟨⟩
  | some vs =>
    have hvs := hlegible.of_items hitems
    have hshape := templatesFrom_shape hvs 0
    rw [ofValue_list hitems]
    refine ⟨⟨?_, ?_⟩, ?_, ?_, by rintro ⟨⟩⟩
    · rintro ⟨ts, hts⟩
      rw [hts] at hshape
      exact ⟨vs, rfl, hshape.1⟩
    · rintro ⟨_, ⟨⟩, hall⟩
      cases hmade : templatesFrom 0 vs with
      | ok ts => exact ⟨ts, rfl⟩
      | error f =>
        rw [hmade] at hshape
        obtain ⟨v, hv, hnot⟩ := hshape
        exact absurd (hall v hv) hnot
    · intro ts hts
      rw [hts] at hshape
      exact ⟨vs, rfl, hshape.2⟩
    · rintro before v after ⟨⟩ hbefore hv
      simpa using templatesFrom_misshapen hvs hbefore hv 0

/-- A config whose first entry has a number for its fields that counts as absent, and a param without
values; whose second entry has a param with a number for its values; and whose third entry is no mapping. -/
def misshapenText : String :=
  "- item_name: 1\n  fields: 0\n  params:\n    x:\n- params: \x7by: 3\x7d\n- 7\n"

def misshapenGraph : Graph where
  cells := #[.list [1, 10, 15], .map [(2, 3), (4, 5), (6, 7)], .scalar (.text "item_name"),
    .scalar (.int 1), .scalar (.text "fields"), .scalar (.int 0), .scalar (.text "params"),
    .map [(8, 9)], .scalar (.text "x"), .scalar .null, .map [(11, 12)], .scalar (.text "params"),
    .map [(13, 14)], .scalar (.text "y"), .scalar (.int 3), .scalar (.int 7)]
  root := 0

/-- The first entry has the shape of a template. -/
theorem itemShaped_first : ItemShaped (⟨1⟩ : Graph.Vertex misshapenGraph) := by
  refine ⟨_, rfl, ?_, ?_, ?_⟩
  · rintro v ⟨⟩
    exact .inl rfl
  · rintro v ⟨⟩
  · rintro v ⟨⟩
    refine .inr ⟨_, rfl, fun e he => ?_⟩
    cases List.mem_singleton.mp he
    exact .inl rfl

theorem not_itemShaped_second : ¬ ItemShaped (⟨10⟩ : Graph.Vertex misshapenGraph) := by
  rintro ⟨_, ⟨⟩, hshape⟩
  rcases hshape.params ⟨12⟩ rfl with h | ⟨_, ⟨⟩, hall⟩
  · cases h
  · rcases hall (⟨13⟩, ⟨14⟩) List.mem_cons_self with h | ⟨_, h⟩
    · cases h
    · cases h

/-- The second entry is reported, and the third is not looked at. -/
theorem parse_accepts_misshapen :
    Yaml.load misshapenText = .ok misshapenGraph ∧ Graph.ScalarsShown misshapenGraph.top
      ∧ (¬ ∃ ts, parse misshapenText "c" = .ok ts)
      ∧ ∃ (fault : ConfigFault) (rest : String), parse misshapenText "c" = .error (.config fault)
        ∧ fault.message = s!"config[{1}]: {rest}" := by
  have hload : Yaml.load misshapenText = .ok misshapenGraph := by decide +kernel
  have hshown : Graph.ScalarsShown misshapenGraph.top := Graph.scalarsShown_of_cells (by decide)
  have hitems : Layered.items? misshapenGraph.top = some ([⟨1⟩] ++ ⟨10⟩ :: [⟨15⟩]) := rfl
  obtain ⟨haccepts, -, hmisshapen, -⟩ := @parse_accepts _ "c" _ hload hshown
  refine ⟨hload, hshown, fun hts => ?_, ?_⟩
  · obtain ⟨vs, hvs, hall⟩ := haccepts.mp hts
    rw [hitems] at hvs
    exact not_itemShaped_second (hall ⟨10⟩ (Option.some.inj hvs ▸ by simp))
  · exact hmisshapen [⟨1⟩] ⟨10⟩ [⟨15⟩] hitems (List.forall_mem_singleton.mpr itemShaped_first)
      not_itemShaped_second

end Config

end SecretForge
