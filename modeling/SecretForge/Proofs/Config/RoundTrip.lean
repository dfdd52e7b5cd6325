import SecretForge.Config.Read
import SecretForge.Config.Write
import SecretForge.Proofs.Yaml.RoundTrip

/-!
# A written config is read back

The templates that a written config describes are those it was written from: sections left out are read
as empty, and the params keep their order.  The one thing that stands between is the limit on the length
of a key on one line, which counts the characters as they are written, with their escapes.

* `ofEntries_shows` — a template from the entries it is written as.
* `Template.keysFit_toTree` — only the names of params can be too long.
* **`parse_dump`** — what is written is read back exactly if the name of every param fits; `parse_short` —
  a name of up to 102 characters always does.
-/

namespace SecretForge

open Layered Yaml

section

variable {ν : Type} [Layered ν] {v : ν} {us : List (ν × ν)}

theorem isNull_shows {t : Tree} (h : Shows v t) : isNull v = false := by
  unfold isNull
  cases t with
  | text s =>
    rw [Shows] at h
    rw [h]
    rfl
  | list ts =>
    rw [Shows] at h
    obtain ⟨vs, hlayer, -⟩ := h
    rw [hlayer]
    rfl
  | map es =>
    rw [Shows] at h
    obtain ⟨us, hlayer, -⟩ := h
    rw [hlayer]
    rfl

end

/-! ### Sections that may be left out -/

/-- The sections of a mapping that are not left out.  Each is given by its key, whether it is left out,
and its tree. -/
def kept (ps : List (String × Bool × Tree)) : List (String × Tree) :=
  (ps.filter fun p => !p.2.1).map fun p => (p.1, p.2.2)

section

variable {ps : List (String × Bool × Tree)} {key k : String} {left : Bool} {t : Tree}

theorem kept_nil : kept [] = [] := rfl

theorem kept_cons : kept ((k, left, t) :: ps) = (if left then [] else [(k, t)]) ++ kept ps := by
  cases left <;> rfl

theorem lookup_kept_none (h : key ∉ ps.map (·.1)) : (kept ps).lookup key = none := by
  induction ps with
  | nil => rfl
  | cons p ps ih =>
    obtain ⟨k, left, t⟩ := p
    rw [List.map_cons, List.mem_cons, not_or] at h
    rw [kept_cons]
    cases left with
    | true => exact ih h.2
    | false =>
      show ((k, t) :: kept ps).lookup key = _
      rw [List.lookup_cons, beq_eq_false_iff_ne.mpr h.1]
      exact ih h.2

/-- What stands under the key of a section. -/
theorem lookup_kept (hd : (ps.map (·.1)).Nodup) (h : (k, left, t) ∈ ps) :
    (kept ps).lookup k = if left then none else some t := by
  induction ps with
  | nil => exact absurd h List.not_mem_nil
  | cons p ps ih =>
    obtain ⟨k', left', t'⟩ := p
    rw [List.map_cons, List.nodup_cons] at hd
    rw [kept_cons]
    rcases List.mem_cons.mp h with heq | hmem
    · cases heq
      cases left with
      | true => exact lookup_kept_none hd.1
      | false =>
        show ((k, t) :: kept ps).lookup k = _
        rw [List.lookup_cons, beq_self_eq_true]
        rfl
    · have hne : k ≠ k' := fun e => hd.1 (e ▸ List.mem_map.mpr ⟨_, hmem, rfl⟩)
      cases left' with
      | true => exact ih hd.2 hmem
      | false =>
        show ((k', t') :: kept ps).lookup k = _
        rw [List.lookup_cons, beq_eq_false_iff_ne.mpr hne]
        exact ih hd.2 hmem

theorem mem_kept {e : String × Tree} : e ∈ kept ps ↔ (e.1, false, e.2) ∈ ps := by
  unfold kept
  rw [List.mem_map]
  refine ⟨?_, fun h => ⟨_, List.mem_filter.mpr ⟨h, rfl⟩, rfl⟩⟩
  rintro ⟨⟨k, left, t⟩, hp, rfl⟩
  obtain ⟨hmem, hleft⟩ := List.mem_filter.mp hp
  cases left with
  | true => cases hleft
  | false => exact hmem

theorem nodup_kept (h : (ps.map (·.1)).Nodup) : ((kept ps).map (·.1)).Nodup := by
  have hmap : (kept ps).map (·.1) = (ps.filter fun p => !p.2.1).map (·.1) := by
    unfold kept
    rw [List.map_map]
    rfl
  rw [hmap]
  exact h.sublist (List.filter_sublist.map _)

end

def Entry.parts (e : Entry) : List (String × Bool × Tree) :=
  [("name", e.name.isEmpty, .text e.name), ("cmd", e.cmd.isEmpty, .text e.cmd)]

theorem Entry.nodup_parts (e : Entry) : (e.parts.map (·.1)).Nodup := by
  show ["name", "cmd"].Nodup
  decide

theorem Entry.toTree_eq (e : Entry) : e.toTree = .map (kept e.parts) := by
  unfold Entry.toTree Entry.parts
  rw [kept_cons, kept_cons, kept_nil, List.append_nil]

namespace Template

def paramTree (p : String × List String) : String × Tree := (p.1, .list (p.2.map .text))

def parts (t : Template (List String)) : List (String × Bool × Tree) :=
  [("item_name", false, .text t.name),
    ("fields", t.fields.isEmpty, .list (t.fields.map Entry.toTree)),
    ("attachments", t.attachments.isEmpty, .list (t.attachments.map Entry.toTree)),
    ("password", t.password.isEmpty, .text t.password),
    ("notes", t.notes.isEmpty, .text t.notes),
    ("params", t.params.isEmpty, .map (t.params.map paramTree))]

theorem nodup_parts (t : Template (List String)) : (t.parts.map (·.1)).Nodup := by
  show ["item_name", "fields", "attachments", "password", "notes", "params"].Nodup
  decide

theorem toTree_eq (t : Template (List String)) : t.toTree = .map (kept t.parts) := by
  unfold Template.toTree Template.toEntries Template.parts
  simp only [kept_cons, kept_nil, sectionTree, textTree, paramsTree, Bool.false_eq_true, if_false,
    List.append_assoc, List.cons_append, List.nil_append, List.append_nil]
  rfl

end Template

/-! ### Reading what is written -/

section

variable {ν : Type} [Layered ν] {v : ν} {us : List (ν × ν)} {es : List (String × Tree)} {key : String}

/-- A text that is left out is read as empty. -/
theorem textUnder_shows {s : String} (h : ShowsEntries us es)
    (hs : es.lookup key = if s.isEmpty then none else some (.text s)) :
    textUnder key us = .ok s := by
  obtain ⟨hnone, hsome⟩ := under?_shows key h
  unfold textUnder
  by_cases he : s.isEmpty = true
  · rw [if_pos he] at hs
    rw [hnone hs, String.isEmpty_iff.mp he]
  · rw [if_neg he] at hs
    obtain ⟨v, hv, ht⟩ := hsome _ hs
    rw [hv]
    simp only [isNull_shows ht, plain_shows ht]
    rfl

/-- A section that is left out where it is empty. -/
theorem section?_shows {t : Tree} {left : Bool} (h : ShowsEntries us es)
    (hs : es.lookup key = if left then none else some t)
    (hfull : left = false → ∀ v : ν, Shows v t → (layer v).isEmpty = false) :
    (left = true → Template.section? key us = none)
      ∧ (left = false → ∃ v, Template.section? key us = some v ∧ Shows v t) := by
  obtain ⟨hnone, hsome⟩ := under?_shows key h
  unfold Template.section?
  refine ⟨fun hleft => ?_, fun hleft => ?_⟩
  · rw [hleft] at hs
    rw [hnone hs]
    rfl
  · rw [hleft] at hs
    obtain ⟨v, hv, ht⟩ := hsome _ hs
    refine ⟨v, ?_, ht⟩
    rw [hv, Option.filter_some, hfull hleft v ht]
    rfl

theorem isEmpty_list {ts : List Tree} (h : Shows v (.list ts)) (hts : ts.isEmpty = false) :
    (layer v).isEmpty = false := by
  rw [Shows] at h
  obtain ⟨vs, hlayer, hvs⟩ := h
  rw [hlayer]
  cases vs with
  | nil =>
    cases ts with
    | nil => cases hts
    | cons t ts => exact hvs.elim
  | cons v vs => rfl

theorem isEmpty_map {es : List (String × Tree)} (h : Shows v (.map es)) (hes : es.isEmpty = false) :
    (layer v).isEmpty = false := by
  rw [Shows] at h
  obtain ⟨us, hlayer, hus⟩ := h
  rw [hlayer]
  cases us with
  | nil =>
    cases es with
    | nil => cases hes
    | cons e es => exact hus.elim
  | cons u us => rfl

/-- A list that is left out is read as empty. -/
theorem sectionItems?_shows {ts : List Tree} (h : ShowsEntries us es)
    (hs : es.lookup key = if ts.isEmpty then none else some (.list ts)) :
    ∃ vs, Template.sectionItems? key us = some vs ∧ ShowsItems vs ts := by
  obtain ⟨hempty, hfull⟩ := section?_shows h hs fun hts v hv => isEmpty_list hv hts
  unfold Template.sectionItems?
  cases hts : ts.isEmpty with
  | true =>
    rw [hempty hts, List.isEmpty_iff.mp hts]
    exact ⟨[], rfl, trivial⟩
  | false =>
    obtain ⟨v, hv, ht⟩ := hfull hts
    rw [hv]
    exact items?_shows ht

/-- An entry from the mapping it is written as. -/
theorem entry_shows (v : ν) (e : Entry) (h : Shows v e.toTree) : Entry.ofValue v = .ok e := by
  rw [Entry.toTree_eq] at h
  obtain ⟨us, hus, hentries⟩ := entries?_shows h
  unfold Entry.ofValue
  rw [hus]
  have hname : textUnder "name" us = .ok e.name := textUnder_shows hentries
    (lookup_kept e.nodup_parts List.mem_cons_self)
  have hcmd : textUnder "cmd" us = .ok e.cmd := textUnder_shows hentries
    (lookup_kept e.nodup_parts (List.mem_cons_of_mem _ List.mem_cons_self))
  simp only [hname, hcmd]
  rfl

namespace Template

/-- The values of a param from the list they are written as. -/
theorem paramValues_shows {values : List String} (name : String)
    (h : Shows v (.list (values.map .text))) : paramValues name v = .ok values := by
  obtain ⟨vs, hvs, hitems⟩ := items?_shows h
  unfold paramValues
  rw [isNull_shows h, hvs]
  exact mapM_shows (fun v s hv => by rw [plain_shows hv]; rfl) hitems

theorem putParam_new {ρ : Type} {params : List (String × ρ)} {name : String} {values : ρ}
    (h : name ∉ params.map (·.1)) : putParam params name values = params ++ [(name, values)] := by
  unfold putParam
  refine if_neg fun hany => h ?_
  obtain ⟨p, hp, heq⟩ := List.any_eq_true.mp hany
  exact List.mem_map.mpr ⟨p, hp, beq_iff_eq.mp heq⟩

/-- The params from the mapping they are written as, after those that came before. -/
theorem foldParams_shows {done params : List (String × List String)}
    (hd : ((done ++ params).map (·.1)).Nodup) (h : ShowsEntries us (params.map paramTree)) :
    us.foldlM (fun params (k, v) => do
      let name ← (Layered.plain k).mapError EntryFault.text
      let values ← paramValues name v
      return putParam params name values) done = .ok (done ++ params) := by
  induction params generalizing us done with
  | nil =>
    cases us with
    | nil =>
      rw [List.append_nil]
      rfl
    | cons u us => exact h.elim
  | cons p params ih =>
    cases us with
    | nil => exact h.elim
    | cons u us =>
      obtain ⟨k, v⟩ := u
      obtain ⟨name, values⟩ := p
      rw [List.map_cons, paramTree, ShowsEntries] at h
      obtain ⟨hk, hv, hus⟩ := h
      have hname : Layered.plain k = .ok name := plain_shows (by rw [Shows]; exact hk)
      have hnew : name ∉ done.map (·.1) := by
        rw [List.map_append, List.nodup_append] at hd
        exact fun hmem => hd.2.2 _ hmem _ List.mem_cons_self rfl
      have hrest := @ih us (done ++ [(name, values)]) (by rw [List.append_assoc]; exact hd) hus
      rw [List.append_assoc, ← putParam_new hnew] at hrest
      rw [List.foldlM_cons]
      show ((((Layered.plain k).mapError EntryFault.text).bind _).bind _) = _
      rw [hname]
      show (((paramValues name v).bind _).bind _) = _
      rw [paramValues_shows name hv]
      exact hrest

section

variable {t : Template (List String)}

/-- Params that are left out are read as none. -/
theorem paramsIn_shows (hd : (t.params.map (·.1)).Nodup) (h : ShowsEntries us (kept t.parts)) :
    paramsIn us = .ok t.params := by
  have hlookup : (kept t.parts).lookup "params"
      = if t.params.isEmpty then none else some (.map (t.params.map paramTree)) :=
    lookup_kept t.nodup_parts (by simp [parts])
  obtain ⟨hempty, hfull⟩ := section?_shows h hlookup fun hleft v hv => isEmpty_map hv (by
    rw [List.isEmpty_map]
    exact hleft)
  unfold paramsIn
  cases hleft : t.params.isEmpty with
  | true => rw [hempty hleft, List.isEmpty_iff.mp hleft]
  | false =>
    obtain ⟨v, hv, ht⟩ := hfull hleft
    obtain ⟨us', hus, hentries⟩ := entries?_shows ht
    rw [hv]
    simp only [hus]
    exact @foldParams_shows _ _ us' [] t.params hd hentries

/-- **A template from the entries it is written as.** -/
theorem ofEntries_shows (hd : (t.params.map (·.1)).Nodup) (h : ShowsEntries us (kept t.parts)) :
    ofEntries us = .ok t := by
  have hpart : ∀ {k left u}, (k, left, u) ∈ t.parts →
      (kept t.parts).lookup k = if left then none else some u := lookup_kept t.nodup_parts
  have hname : textUnder "item_name" us = .ok t.name := by
    obtain ⟨v, hv, ht⟩ := (under?_shows "item_name" h).2 _ (hpart List.mem_cons_self)
    unfold textUnder
    rw [hv]
    simp only [isNull_shows ht, plain_shows ht]
    rfl
  have hpassword : textUnder "password" us = .ok t.password :=
    textUnder_shows h (hpart (by simp [parts]))
  have hnotes : textUnder "notes" us = .ok t.notes := textUnder_shows h (hpart (by simp [parts]))
  have hlists : ∀ {key : String} {es : List Entry},
      (key, es.isEmpty, .list (es.map Entry.toTree)) ∈ t.parts →
      ∃ vs, sectionItems? key us = some vs ∧ vs.mapM Entry.ofValue = .ok es := fun hmem => by
    obtain ⟨vs, hvs, hitems⟩ := sectionItems?_shows h (by rw [List.isEmpty_map]; exact hpart hmem)
    exact ⟨vs, hvs, mapM_shows entry_shows hitems⟩
  obtain ⟨fields, hfields, hfieldItems⟩ : ∃ vs, sectionItems? "fields" us = some vs
      ∧ vs.mapM Entry.ofValue = .ok t.fields := hlists (by simp [parts])
  obtain ⟨attachments, hattachments, hattachmentItems⟩ : ∃ vs,
      sectionItems? "attachments" us = some vs ∧ vs.mapM Entry.ofValue = .ok t.attachments :=
    hlists (by simp [parts])
  unfold ofEntries
  rw [hfields, hattachments]
  simp only [paramsIn_shows hd h, hname, hpassword, hnotes, hfieldItems, hattachmentItems]
  rfl

end

end Template

namespace Config

variable {ts : List (Template (List String))} {vs : List ν}

theorem templatesFrom_shows (index : Nat) (hd : ∀ t ∈ ts, (t.params.map (·.1)).Nodup)
    (h : ShowsItems vs (ts.map Template.toTree)) : templatesFrom index vs = .ok ts := by
  induction ts generalizing vs index with
  | nil =>
    cases vs with
    | nil => rfl
    | cons v vs => exact h.elim
  | cons t ts ih =>
    cases vs with
    | nil => exact h.elim
    | cons v vs =>
      rw [List.map_cons, ShowsItems, Template.toTree_eq] at h
      obtain ⟨us, hus, hentries⟩ := entries?_shows h.1
      rw [templatesFrom, hus]
      simp only [Template.ofEntries_shows (hd t List.mem_cons_self) hentries,
        ih (index + 1) (fun t ht => hd t (List.mem_cons_of_mem _ ht)) h.2]
      rfl

/-- **Templates from the list they are written as.** -/
theorem ofValue_shows (source : String) (hd : ∀ t ∈ ts, (t.params.map (·.1)).Nodup)
    (h : Shows v (.list (ts.map Template.toTree))) : ofValue source v = .ok ts := by
  obtain ⟨vs, hvs, hitems⟩ := items?_shows h
  unfold ofValue
  rw [isNull_shows h, hvs]
  exact templatesFrom_shows 0 hd hitems

end Config

end

/-! ### The trees of templates -/

/-- The trees that a template is written as, by the sections they are. -/
theorem Template.forall_kept {t : Template (List String)} {P : Tree → Prop} (htext : ∀ s, P (.text s))
    (hentries : ∀ es : List Entry, P (.list (es.map Entry.toTree)))
    (hparams : P (.map (t.params.map paramTree))) : ∀ e ∈ kept t.parts, P e.2 := by
  intro e he
  have hmem := mem_kept.mp he
  simp only [parts, List.mem_cons, Prod.mk.injEq, List.not_mem_nil, or_false] at hmem
  rcases hmem with ⟨-, -, h⟩ | ⟨-, -, h⟩ | ⟨-, -, h⟩ | ⟨-, -, h⟩ | ⟨-, -, h⟩ | ⟨-, -, h⟩ <;> rw [h]
  · exact htext _
  · exact hentries _
  · exact hentries _
  · exact htext _
  · exact htext _
  · exact hparams

theorem Entry.text_of_mem_kept {e : Entry} {p : String × Tree} (h : p ∈ kept e.parts) :
    ∃ s, p.2 = .text s := by
  have hmem := mem_kept.mp h
  simp only [parts, List.mem_cons, Prod.mk.injEq, List.not_mem_nil, or_false] at hmem
  rcases hmem with ⟨-, -, h⟩ | ⟨-, -, h⟩ <;> exact ⟨_, h⟩

theorem Entry.height_toTree (e : Entry) : e.toTree.height ≤ 1 := by
  rw [toTree_eq, Tree.height]
  refine Nat.succ_le_succ (Tree.entriesHeight_le fun p hp => ?_)
  obtain ⟨s, hs⟩ := text_of_mem_kept hp
  exact Nat.le_of_eq (by rw [hs, Tree.height])

theorem Template.height_toTree (t : Template (List String)) : t.toTree.height ≤ 3 := by
  rw [toTree_eq, Tree.height]
  refine Nat.succ_le_succ (Tree.entriesHeight_le (forall_kept (P := fun u => u.height ≤ 2) ?_ ?_ ?_))
  · intro s
    rw [Tree.height]
    exact Nat.zero_le 2
  · intro es
    rw [Tree.height]
    refine Nat.succ_le_succ (Tree.itemsHeight_le fun u hu => ?_)
    obtain ⟨e, -, rfl⟩ := List.mem_map.mp hu
    exact e.height_toTree
  · rw [Tree.height]
    refine Nat.succ_le_succ (Tree.entriesHeight_le fun u hu => ?_)
    obtain ⟨p, -, rfl⟩ := List.mem_map.mp hu
    rw [paramTree, Tree.height]
    refine Nat.succ_le_succ (Tree.itemsHeight_le fun u hu => ?_)
    obtain ⟨s, -, rfl⟩ := List.mem_map.mp hu
    exact Nat.le_of_eq (by rw [Tree.height])

theorem Entry.distinctKeys_toTree (e : Entry) : e.toTree.DistinctKeys := by
  rw [toTree_eq, Tree.DistinctKeys, Tree.distinctEntries_iff]
  refine ⟨nodup_kept e.nodup_parts, fun p hp => ?_⟩
  obtain ⟨s, hs⟩ := text_of_mem_kept hp
  rw [hs]
  trivial

theorem distinctKeys_texts (ss : List String) : (Tree.list (ss.map .text)).DistinctKeys := by
  rw [Tree.DistinctKeys, Tree.distinctItems_iff]
  intro u hu
  obtain ⟨s, -, rfl⟩ := List.mem_map.mp hu
  trivial

theorem Template.distinctKeys_toTree {t : Template (List String)} (hd : (t.params.map (·.1)).Nodup) :
    t.toTree.DistinctKeys := by
  rw [toTree_eq, Tree.DistinctKeys, Tree.distinctEntries_iff]
  refine ⟨nodup_kept t.nodup_parts, forall_kept (fun s => trivial) (fun es => ?_) ?_⟩
  · rw [Tree.DistinctKeys, Tree.distinctItems_iff]
    intro u hu
    obtain ⟨e, -, rfl⟩ := List.mem_map.mp hu
    exact e.distinctKeys_toTree
  · rw [Tree.DistinctKeys, Tree.distinctEntries_iff, List.map_map]
    refine ⟨hd, fun u hu => ?_⟩
    obtain ⟨p, -, rfl⟩ := List.mem_map.mp hu
    exact distinctKeys_texts p.2

theorem Entry.keysFit_toTree (e : Entry) : e.toTree.KeysFit := by
  have hkeys : ∀ k ∈ e.parts.map (·.1), KeyFits k := by
    show ∀ k ∈ ["name", "cmd"], KeyFits k
    decide +kernel
  rw [toTree_eq, Tree.KeysFit, Tree.entriesFit_iff]
  intro p hp
  obtain ⟨s, hs⟩ := text_of_mem_kept hp
  refine ⟨hkeys p.1 (List.mem_map.mpr ⟨_, mem_kept.mp hp, rfl⟩), ?_⟩
  rw [hs]
  trivial

/-- Of the keys of a template only the names of params can be too long. -/
theorem Template.keysFit_toTree {t : Template (List String)} :
    t.toTree.KeysFit ↔ ∀ p ∈ t.params, KeyFits p.1 := by
  have hkeys : ∀ k ∈ t.parts.map (·.1), KeyFits k := by
    show ∀ k ∈ ["item_name", "fields", "attachments", "password", "notes", "params"], KeyFits k
    decide +kernel
  have hparams : (Tree.map (t.params.map paramTree)).KeysFit ↔ ∀ p ∈ t.params, KeyFits p.1 := by
    rw [Tree.KeysFit, Tree.entriesFit_iff, List.forall_mem_map]
    refine forall₂_congr fun p _ => and_iff_left ?_
    rw [paramTree, Tree.KeysFit, Tree.itemsFit_iff]
    intro u hu
    obtain ⟨s, -, rfl⟩ := List.mem_map.mp hu
    trivial
  rw [toTree_eq, Tree.KeysFit, Tree.entriesFit_iff]
  refine ⟨fun h => ?_, fun h e he => ⟨hkeys e.1 (List.mem_map.mpr ⟨_, mem_kept.mp he, rfl⟩), ?_⟩⟩
  · cases hempty : t.params.isEmpty with
    | true =>
      rw [List.isEmpty_iff.mp hempty]
      exact fun _ hp => absurd hp List.not_mem_nil
    | false =>
      refine hparams.mp (h ("params", .map (t.params.map paramTree)) (mem_kept.mpr ?_)).2
      simp [parts, hempty]
  · refine forall_kept (P := Tree.KeysFit) (fun s => trivial) (fun es => ?_) (hparams.mpr h) e he
    rw [Tree.KeysFit, Tree.itemsFit_iff]
    intro u hu
    obtain ⟨e, -, rfl⟩ := List.mem_map.mp hu
    exact e.keysFit_toTree

/-! ### Whole configs -/

namespace Config

section

variable {ts : List (Template (List String))}

theorem load_dump (hd : ∀ t ∈ ts, (t.params.map (·.1)).Nodup) :
    ((∀ t ∈ ts, ∀ p ∈ t.params, KeyFits p.1) →
        ∃ g, Yaml.load (dump ts) = .ok g ∧ Shows g.top (.list (ts.map Template.toTree)))
      ∧ (¬ (∀ t ∈ ts, ∀ p ∈ t.params, KeyFits p.1) → ∀ g, Yaml.load (dump ts) ≠ .ok g) := by
  have hheight : (Tree.list (ts.map Template.toTree)).height ≤ 4 := by
    rw [Tree.height]
    refine Nat.succ_le_succ (Tree.itemsHeight_le fun u hu => ?_)
    obtain ⟨t, -, rfl⟩ := List.mem_map.mp hu
    exact t.height_toTree
  have hdistinct : (Tree.list (ts.map Template.toTree)).DistinctKeys := by
    rw [Tree.DistinctKeys, Tree.distinctItems_iff]
    intro u hu
    obtain ⟨t, ht, rfl⟩ := List.mem_map.mp hu
    exact Template.distinctKeys_toTree (hd t ht)
  have hfits : (Tree.list (ts.map Template.toTree)).KeysFit
      ↔ ∀ t ∈ ts, ∀ p ∈ t.params, KeyFits p.1 := by
    rw [Tree.KeysFit, Tree.itemsFit_iff, List.forall_mem_map]
    exact forall₂_congr fun t _ => Template.keysFit_toTree
  rw [← hfits]
  exact load_render (ts.map Template.toTree) (by
    show _ < 80
    omega) hdistinct

theorem parse_fits (source : String) (hd : ∀ t ∈ ts, (t.params.map (·.1)).Nodup)
    (hfits : ∀ t ∈ ts, ∀ p ∈ t.params, KeyFits p.1) : parse (dump ts) source = .ok ts := by
  obtain ⟨g, hload, hshows⟩ := (load_dump hd).1 hfits
  unfold parse
  rw [hload]
  exact ofValue_shows source hd hshows

theorem parse_long (source : String) (hd : ∀ t ∈ ts, (t.params.map (·.1)).Nodup)
    (hlong : ¬ ∀ t ∈ ts, ∀ p ∈ t.params, KeyFits p.1) (us : List (Template (List String))) :
    parse (dump ts) source ≠ .ok us := by
  unfold parse
  cases hload : Yaml.load (dump ts) with
  | ok g => exact absurd hload ((load_dump hd).2 hlong g)
  | error f => cases f <;> exact fun h => nomatch h

/-- **A written config is read back exactly if the name of every param fits.**  The names of the params
of each template are distinct. -/
theorem parse_dump (source : String) (hd : ∀ t ∈ ts, (t.params.map (·.1)).Nodup) :
    parse (dump ts) source = .ok ts ↔ ∀ t ∈ ts, ∀ p ∈ t.params, KeyFits p.1 := by
  refine ⟨fun hparse => ?_, parse_fits source hd⟩
  by_contra hlong
  exact parse_long source hd hlong ts hparse

/-- **A written config with short names is read back.**  No greater bound on their length would do, as a name
of 103 characters need not fit. -/
theorem parse_short (source : String) (hd : ∀ t ∈ ts, (t.params.map (·.1)).Nodup)
    (hshort : ∀ t ∈ ts, ∀ p ∈ t.params, p.1.length ≤ 102) : parse (dump ts) source = .ok ts := by
  apply parse_fits source hd
  intro t ht p hp
  apply keyFits_of_length_le
  rw [String.length_toList]
  exact hshort t ht p hp

/-- Texts that look like values of other types, or run over several lines, are read back. -/
theorem parse_dump_lookalikes :
    parse (dump [{ name := "~", params := [("yes", ["1:30", "", " two\nlines "]), ("<<", [])] }])
        "<string>"
      = .ok [{ name := "~", params := [("yes", ["1:30", "", " two\nlines "]), ("<<", [])] }] :=
  (parse_dump "<string>" (by decide)).mpr (by decide +kernel)

/-- A template with a param whose name has 103 characters, each of them written with ten. -/
def astral : Template (List String) :=
  { name := "x", params := [(String.ofList (List.replicate 103 (Char.ofNat 0x1F600)), ["v"])] }

/-- The names are distinct, but the written config is not read back. -/
theorem parse_dump_astral :
    (∀ t ∈ [astral], (t.params.map (·.1)).Nodup)
      ∧ parse (dump [astral]) "<string>" ≠ .ok [astral] := by
  have hd : ∀ t ∈ [astral], (t.params.map (·.1)).Nodup := fun t ht => by
    rw [List.mem_singleton.mp ht]
    exact List.nodup_cons.mpr ⟨List.not_mem_nil, List.nodup_nil⟩
  refine ⟨hd, parse_long "<string>" hd (fun hfits => ?_) _⟩
  have hname := hfits astral List.mem_cons_self _ List.mem_cons_self
  refine not_keyFits_astral (fun ch hch => ?_) ?_ ?_ hname
  · rw [List.eq_of_mem_replicate hch]
    decide
  · exact Nat.le_of_eq List.length_replicate.symm
  · rw [List.length_replicate]
    decide

end

end Config

end SecretForge
