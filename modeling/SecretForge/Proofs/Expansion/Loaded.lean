import SecretForge.Config.Read
import SecretForge.Proofs.Except
import SecretForge.Proofs.Expansion.Validity

/-!
# The expansion of a loaded config

Three stages have to fit together before a config yields items.  Reading turns the list that stands under
the name of a param into a list of texts, one for each member; validation refuses a param without values;
and expansion takes one item for every way to choose a value of each param.  So the templates of a config
that is read and accepted all expand, none of them to nothing, and how many items a template gives can be
told from the lists in the config.

* `DeclaredIn` — the values of a param are the texts of the members of the list under its name.
* `Config.parse_reads` — the templates of a text are read from the members of the list in it, in which
  their params are declared.
* `expandAll_blocks` — the items of templates stand in one block for each template.
* **`loaded_expands`** — the items of a config that is read and accepted.
-/

namespace SecretForge

open SecretForge.Number Act

/-! ### Params as they are declared -/

section

variable {ν : Type} [Layered ν]

/-- The values of a param are the texts of the members of the list that stands under its name among the
entries, or there are none because no value stands there. -/
def DeclaredIn (entries : List (ν × ν)) (p : String × List String) : Prop :=
  ∃ e ∈ entries, Layered.plain e.1 = .ok p.1
    ∧ ((isNull e.2 = true ∧ p.2 = [])
      ∨ ∃ vs, Layered.items? e.2 = some vs ∧ vs.mapM Layered.plain = .ok p.2)

/-- Every param of a template is declared in the params of the mapping that the template is read from. -/
def Template.DeclaredBy (v : ν) (t : Template (List String)) : Prop :=
  ∃ entries, Layered.entries? v = some entries
    ∧ ∀ p ∈ t.params, ∃ section' es, Template.section? "params" entries = some section'
      ∧ Layered.entries? section' = some es ∧ DeclaredIn es p

/-- A template is read from a value: a mapping that describes it. -/
def Template.ReadFrom (v : ν) (t : Template (List String)) : Prop :=
  ∃ entries, Layered.entries? v = some entries ∧ Template.ofEntries entries = .ok t

namespace Template

/-- A param that is put in stands among the params with its new values. -/
theorem mem_putParam {params : List (String × List String)} {name : String} {values : List String}
    {p : String × List String} (h : p ∈ putParam params name values) :
    p ∈ params ∨ p = (name, values) := by
  rw [putParam] at h
  split at h
  · obtain ⟨q, hq, rfl⟩ := List.mem_map.mp h
    split
    · next hname => exact .inr (Prod.ext (eq_of_beq hname) rfl)
    · exact .inl hq
  · exact (List.mem_append.mp h).imp_right List.mem_singleton.mp

/-- The texts of values that are reported otherwise are the same texts. -/
theorem mapM_plain_of_mapError {vs : List ν} {texts : List String}
    (h : (vs.mapM fun v => (Layered.plain v).mapError EntryFault.text) = .ok texts) :
    vs.mapM Layered.plain = .ok texts := by
  induction vs generalizing texts with
  | nil => exact congrArg Except.ok (Except.ok.inj h)
  | cons v vs ih =>
    rw [List.mapM_cons] at h ⊢
    obtain ⟨text, htext, h⟩ := exists_of_bind_ok h
    obtain ⟨rest, hrest, h⟩ := exists_of_bind_ok h
    cases h
    rw [ok_of_mapError_ok htext, ih hrest]
    rfl

/-- The values of a param come from the value under its name. -/
theorem paramValues_declares (name : String) (v : ν) :
    EndsAs (fun _ => True)
      (fun values => (isNull v = true ∧ values = [])
        ∨ ∃ vs, Layered.items? v = some vs ∧ vs.mapM Layered.plain = .ok values)
      (paramValues name v) := by
  rw [paramValues]
  split
  · next hnull => exact .inl ⟨hnull, rfl⟩
  · split
    · next vs hvs =>
      cases h : vs.mapM fun v => (Layered.plain v).mapError EntryFault.text with
      | error f => trivial
      | ok values => exact .inr ⟨vs, hvs, mapM_plain_of_mapError h⟩
    · trivial

/-- The params of a section are declared in its entries. -/
theorem paramsOf_declares (entries : List (ν × ν)) :
    EndsAs (fun _ => True) (fun params => ∀ p ∈ params, DeclaredIn entries p) (paramsOf entries) := by
  refine .foldlM (fun p hp => nomatch hp) fun params hparams e he => ?_
  obtain ⟨k, v⟩ := e
  have hname : EndsAs (fun _ => True) (fun name => Layered.plain k = .ok name)
      ((Layered.plain k).mapError EntryFault.text) := by
    cases h : (Layered.plain k : Except IntegerFault String) with
    | error f => trivial
    | ok name => exact rfl
  refine .bind hname fun name hname => .bind (paramValues_declares name v) fun values hvalues =>
    .pure fun p hp => ?_
  rcases mem_putParam hp with hp | rfl
  · exact hparams p hp
  · exact ⟨(k, v), he, hname, hvalues⟩

/-- The params of a template are declared in the mapping that the template is read from. -/
theorem ofEntries_declares (entries : List (ν × ν)) :
    EndsAs (fun _ => True)
      (fun t => ∀ p ∈ t.params, ∃ section' es, section? "params" entries = some section'
        ∧ Layered.entries? section' = some es ∧ DeclaredIn es p)
      (ofEntries entries) := by
  have hparams : EndsAs (fun _ => True)
      (fun params => ∀ p ∈ params, ∃ section' es, section? "params" entries = some section'
        ∧ Layered.entries? section' = some es ∧ DeclaredIn es p) (paramsIn entries) := by
    rw [paramsIn]
    split
    · exact fun p hp => nomatch hp
    · next section' hsection =>
      split
      · next es hes =>
        exact (paramsOf_declares es).mono fun params h p hp => ⟨section', es, hsection, hes, h p hp⟩
      · trivial
  rw [ofEntries]
  split
  · exact .bind hparams fun _ h => .bind (.anyway _) fun _ _ => .bind (.anyway _) fun _ _ =>
      .bind (.anyway _) fun _ _ => .bind (.anyway _) fun _ _ => .bind (.anyway _) fun _ _ => .pure h
  · trivial

/-- A template declares its params in the value it is read from. -/
theorem ReadFrom.declaredBy {v : ν} {t : Template (List String)} (h : ReadFrom v t) : DeclaredBy v t := by
  obtain ⟨entries, hentries, hread⟩ := h
  have hdeclares := ofEntries_declares entries
  rw [hread] at hdeclares
  exact ⟨entries, hentries, hdeclares⟩

end Template

namespace Config

/-- Each template is read from the member of the list at its place, which is a mapping. -/
theorem templatesFrom_reads (index : Nat) (vs : List ν) :
    EndsAs (fun _ => True) (fun ts => List.Forall₂ Template.ReadFrom vs ts) (templatesFrom index vs) := by
  induction vs generalizing index with
  | nil => exact .nil
  | cons v vs ih =>
    rw [templatesFrom]
    split
    · trivial
    · next entries hentries =>
      rcases h : Template.ofEntries entries with (_ | _) | t
      · trivial
      · trivial
      · exact (ih (index + 1)).map fun ts hts => .cons ⟨entries, hentries, h⟩ hts

theorem ofValue_reads {source : String} {v : ν} {ts : List (Template (List String))}
    (h : ofValue source v = .ok ts) :
    ∃ vs, Layered.items? v = some vs ∧ List.Forall₂ Template.ReadFrom vs ts := by
  rw [ofValue] at h
  split at h
  · cases h
  · split at h
    · cases h
    · next vs hvs =>
      have hreads := templatesFrom_reads 0 vs
      rw [h] at hreads
      exact ⟨vs, hvs, hreads⟩

end Config

end

/-- **The templates of a text** are read from the members of the list in it, in order. -/
theorem Config.parse_reads {text source : String} {ts : List (Template (List String))}
    (h : Config.parse text source = .ok ts) :
    ∃ (g : Graph) (members : List g.Vertex), Yaml.load text = .ok g
      ∧ Layered.items? g.top = some members ∧ List.Forall₂ Template.ReadFrom members ts := by
  rw [Config.parse] at h
  split at h
  · cases h
  · cases h
  · next g hload =>
    obtain ⟨members, hmembers, hreads⟩ := Config.ofValue_reads h
    exact ⟨g, members, hload, hmembers, hreads⟩

/-! ### Blocks of items -/

/-- With at least one value for each param there is at least one selection. -/
theorem combinations_pos {params : List (String × List String)} (h : ∀ p ∈ params, p.2 ≠ []) :
    0 < combinations params := by
  induction params with
  | nil => exact Nat.one_pos
  | cons p params ih =>
    rw [List.forall_mem_cons] at h
    exact Nat.mul_pos (List.length_pos_iff.mpr h.1) (ih h.2)

def Template.block (t : Template (List String)) : List (Template (List String)) :=
  (selections t.params).map fun s => t.fill s

theorem Template.length_block (t : Template (List String)) :
    t.block.length = combinations t.params := by
  rw [block, List.length_map, length_selections]

/-- The items of templates stand in one block for each template, in order. -/
theorem expandAll_blocks {σ ε : Type} (ts : List (Template (List String))) (s : σ) :
    ((expandAll Range.ofTexts ts : Act σ ε _) s).result
      = .ok ((ts.map Template.block).flatten, []) := by
  rw [(expandAll_ofTexts ts s).1, List.flatMap_def]
  rfl

/-- **A loaded config always expands.**  Every template of a config that is read and accepted is declared by
a member of the list in the config, each of its values being the text of a member of the list under the
param's name; no template fails to expand; and the items are one block for each template, in order, whose
size is the product of the numbers of values and is not zero. -/
theorem loaded_expands {σ ε : Type} {text source : String} {ts : List (Template (List String))}
    (hparse : Config.parse text source = .ok ts) (haccepted : Config.validate List.isEmpty ts = .ok ())
    (s : σ) :
    (∃ g members, Yaml.load text = .ok g ∧ Layered.items? g.top = some members
      ∧ List.Forall₂ Template.DeclaredBy members ts)
      ∧ ∃ blocks : List (List (Template (List String))),
        ((expandAll Range.ofTexts ts : Act σ ε _) s).result = .ok (blocks.flatten, [])
        ∧ List.Forall₂ (fun t block => t.expand Range.ofTexts = .ok block
          ∧ block.length = combinations t.params ∧ 0 < block.length) ts blocks := by
  constructor
  · obtain ⟨g, members, hload, hmembers, hreads⟩ := Config.parse_reads hparse
    exact ⟨g, members, hload, hmembers, hreads.imp fun _ _ h => h.declaredBy⟩
  · refine ⟨ts.map Template.block, expandAll_blocks ts s, ?_⟩
    rw [List.forall₂_map_right_iff, List.forall₂_same]
    intro t ht
    have hvalues : ∀ p ∈ t.params, p.2 ≠ [] := fun p hp hempty => by
      have := (Config.validate_eq_ok_iff.mp haccepted t ht).2 p hp
      rw [hempty] at this
      cases this
    refine ⟨expand_ofTexts t, t.length_block, ?_⟩
    rw [t.length_block]
    exact combinations_pos hvalues

def numberedTemplate : Template (List String) where
  name := "db-$(zone)"
  params := [("zone", ["1", "eu"]), ("tier", ["all"])]

def numberedText : String :=
  "- item_name: db-$(zone)\n  params:\n    zone: [1, eu]\n    tier: [all]\n- item_name: plain\n"

/-- A number among the values of a param is a text by the time the template expands. -/
theorem loaded_expands_numbers :
    Config.parse numberedText "c" = .ok [numberedTemplate, { name := "plain" }]
      ∧ Config.validate List.isEmpty [numberedTemplate, { name := "plain" }] = .ok ()
      ∧ ∃ numbered plain,
        ((expandAll Range.ofTexts [numberedTemplate, { name := "plain" }] :
          Act (List Operation) Interrupted _) []).result = .ok ([numbered, plain].flatten, [])
        ∧ numbered.length = 2 ∧ plain.length = 1 := by
  have hparse : Config.parse numberedText "c" = .ok [numberedTemplate, { name := "plain" }] := by
    decide +kernel
  have haccepted : Config.validate List.isEmpty [numberedTemplate, { name := "plain" }] = .ok () := by
    decide
  obtain ⟨-, blocks, hresult, hblocks⟩ :=
    loaded_expands (ε := Interrupted) hparse haccepted ([] : List Operation)
  obtain - | ⟨⟨-, hnumbered, -⟩, - | ⟨⟨-, hplain, -⟩, - | -⟩⟩ := hblocks
  exact ⟨hparse, haccepted, _, _, hresult, hnumbered, hplain⟩

end SecretForge
