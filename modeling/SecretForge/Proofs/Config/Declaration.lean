import SecretForge.Proofs.Config.Shape
import SecretForge.Proofs.Expansion.Loaded
import SecretForge.Proofs.Scalar
import SecretForge.Proofs.Yaml.Double

/-!
# Declared params

The params of a template are put in one by one under the texts of their keys.  A mapping has no key twice,
but a text and a number that it spells are two keys, and so are two doubles that are no number; the second
of such keys takes the place of the first, whose values are lost.  There are no other ways to lose a
param: the texts of all other keys differ as the keys do.

* `Declares` — what an entry of the params declares.
* `putAll` — params put in one after another; a name keeps its first place and gets its last values.
* **`params_kept_iff`** — every declared param is kept, in order and with its values, exactly when no two
  keys clash.
* `parse_params_kept` — so it is in each member of a config that is read from a text, whose numbers are all
  in form.
-/

namespace SecretForge

/-- What an entry of the params declares: the text of its key, and the texts of the members of its list in
order, none if it has no value. -/
def Declares {ν : Type} [Layered ν] (e : ν × ν) (p : String × List String) : Prop :=
  Layered.plain e.1 = .ok p.1
    ∧ ((isNull e.2 = true ∧ p.2 = [])
      ∨ ∃ vs, Layered.items? e.2 = some vs ∧ vs.mapM Layered.plain = .ok p.2)

/-- An entry declares one param at most. -/
theorem declares_rightUnique {ν : Type} [Layered ν] : Relator.RightUnique (@Declares ν _) := by
  rintro e ⟨name, values⟩ ⟨name', values'⟩ ⟨hname, hvalues⟩ ⟨hname', hvalues'⟩
  obtain rfl := Except.ok.inj (hname.symm.trans hname')
  rcases hvalues with ⟨h, rfl⟩ | ⟨vs, hvs, htexts⟩ <;> rcases hvalues' with ⟨h', rfl⟩ | ⟨vs', hvs', htexts'⟩
  · rfl
  · rw [items?_of_isNull h] at hvs'
    cases hvs'
  · rw [items?_of_isNull h'] at hvs
    cases hvs
  · obtain rfl := Option.some.inj (hvs.symm.trans hvs')
    exact congrArg _ (Except.ok.inj (htexts.symm.trans htexts'))

namespace Template

/-! ### Params put in one after another -/

section

variable {ρ : Type} {params declared : List (String × ρ)} {name : String} {values : ρ}

theorem any_name_iff : params.any (·.1 == name) = true ↔ name ∈ params.map (·.1) := by
  rw [List.any_eq_true, List.mem_map]
  exact exists_congr fun p => and_congr_right fun _ => beq_iff_eq

/-- A name keeps its place, or comes last if it is new. -/
theorem names_putParam (params : List (String × ρ)) (name : String) (values : ρ) :
    (putParam params name values).map (·.1)
      = if name ∈ params.map (·.1) then params.map (·.1) else params.map (·.1) ++ [name] := by
  rw [putParam]
  by_cases h : name ∈ params.map (·.1)
  · rw [if_pos (any_name_iff.mpr h), if_pos h, List.map_map]
    refine List.map_congr_left fun p _ => ?_
    rw [Function.comp_apply]
    split <;> rfl
  · rw [if_neg (mt any_name_iff.mp h), if_neg h, List.map_append]
    rfl

theorem nodup_putParam (h : (params.map (·.1)).Nodup) (name : String) (values : ρ) :
    ((putParam params name values).map (·.1)).Nodup := by
  rw [names_putParam]
  split
  · exact h
  · next hnew => exact List.nodup_append.mpr ⟨h, List.nodup_singleton name, by grind⟩

theorem lookup_eq_none_iff : params.lookup name = none ↔ name ∉ params.map (·.1) := by
  induction params with
  | nil => simp
  | cons p params ih =>
    rw [List.lookup_cons]
    by_cases h : name = p.1
    · simp [h]
    · simp only [beq_eq_false_iff_ne.mpr h, ih, List.map_cons, List.mem_cons, h, false_or]

/-- Where a name is given new values, the others keep theirs. -/
theorem lookup_replaced (params : List (String × ρ)) (name other : String) (values : ρ) :
    (params.map fun p => if p.1 == name then (p.1, values) else p).lookup other
      = if other = name then (params.lookup other).map fun _ => values else params.lookup other := by
  induction params with
  | nil => simp
  | cons p params ih =>
    rw [List.map_cons, List.lookup_cons, List.lookup_cons, ih]
    by_cases hp : p.1 = name <;> by_cases hother : other = p.1 <;> grind

/-- A name gets its new values, and the others keep theirs. -/
theorem lookup_putParam (params : List (String × ρ)) (name other : String) (values : ρ) :
    (putParam params name values).lookup other
      = if other = name then some values else params.lookup other := by
  rw [putParam]
  by_cases h : name ∈ params.map (·.1)
  · rw [if_pos (any_name_iff.mpr h), lookup_replaced]
    split
    · next hother =>
      obtain ⟨old, hold⟩ := Option.ne_none_iff_exists'.mp (mt lookup_eq_none_iff.mp (not_not.mpr (hother ▸ h)))
      rw [hold]
      rfl
    · rfl
  · rw [if_neg (mt any_name_iff.mp h), List.lookup_append, List.lookup_cons]
    by_cases hother : other = name
    · rw [if_pos hother, hother, lookup_eq_none_iff.mpr h, beq_self_eq_true]
      rfl
    · rw [if_neg hother, beq_eq_false_iff_ne.mpr hother]
      exact Option.or_none

def putAll (params declared : List (String × ρ)) : List (String × ρ) :=
  declared.foldl (fun params p => putParam params p.1 p.2) params

theorem putAll_append (params declared more : List (String × ρ)) :
    putAll params (declared ++ more) = putAll (putAll params declared) more := List.foldl_append

/-- New names are put in at the end, with their values. -/
theorem putAll_of_nodup (h : ((params ++ declared).map (·.1)).Nodup) :
    putAll params declared = params ++ declared := by
  induction declared generalizing params with
  | nil => exact (List.append_nil params).symm
  | cons p declared ih =>
    have hnew : p.1 ∉ params.map (·.1) := by
      rw [List.map_append, List.nodup_append] at h
      exact fun hmem => h.2.2 p.1 hmem p.1 List.mem_cons_self rfl
    have hput : putParam params p.1 p.2 = params ++ [p] := by
      rw [putParam, if_neg (mt any_name_iff.mp hnew)]
    rw [putAll, List.foldl_cons, hput]
    rw [List.append_cons] at h
    exact (ih h).trans (List.append_cons params p declared).symm

theorem nodup_putAll (declared : List (String × ρ)) : ((putAll [] declared).map (·.1)).Nodup := by
  induction declared using List.reverseRecOn with
  | nil => exact .nil
  | append_singleton declared p ih =>
    rw [putAll_append]
    exact nodup_putParam ih p.1 p.2

/-- Params are all kept as they are put in exactly if their names differ. -/
theorem putAll_eq_iff (declared : List (String × ρ)) :
    putAll [] declared = declared ↔ (declared.map (·.1)).Nodup := by
  constructor
  · intro h
    have hnodup := nodup_putAll declared
    rwa [h] at hnodup
  · intro h
    rw [← List.nil_append declared] at h
    exact putAll_of_nodup h

theorem mem_eraseDups {names : List String} : name ∈ names.eraseDups ↔ name ∈ names := by
  induction names using List.reverseRecOn with
  | nil => rfl
  | append_singleton names other ih =>
    rw [List.eraseDups_append, List.mem_append, List.mem_append, ih, List.removeAll]
    by_cases h : other ∈ names
    · rw [List.filter_cons_of_neg (by simpa using h)]
      grind
    · rw [List.filter_cons_of_pos (by simpa using h)]
      rfl

/-- The names are those that are put in, each at its first place. -/
theorem names_putAll (declared : List (String × ρ)) :
    (putAll [] declared).map (·.1) = (declared.map (·.1)).eraseDups := by
  induction declared using List.reverseRecOn with
  | nil => rfl
  | append_singleton declared p ih =>
    rw [putAll_append, show ∀ ps : List (String × ρ), putAll ps [p] = putParam ps p.1 p.2 from fun _ => rfl,
      names_putParam, ih, List.map_append, List.eraseDups_append, List.map_singleton, List.removeAll]
    by_cases h : p.1 ∈ declared.map (·.1)
    · rw [if_pos (mem_eraseDups.mpr h), List.filter_cons_of_neg (by simpa using h)]
      exact (List.append_nil _).symm
    · rw [if_neg (mt mem_eraseDups.mp h), List.filter_cons_of_pos (by simpa using h)]
      rfl

/-- The values of a name are the last that are put in. -/
theorem lookup_putAll (declared : List (String × ρ)) (name : String) :
    (putAll [] declared).lookup name = declared.reverse.lookup name := by
  induction declared using List.reverseRecOn with
  | nil => rfl
  | append_singleton declared p ih =>
    rw [putAll_append, show ∀ ps : List (String × ρ), putAll ps [p] = putParam ps p.1 p.2 from fun _ => rfl,
      lookup_putParam, ih, List.reverse_append, List.reverse_singleton, List.singleton_append, List.lookup_cons]
    split
    · next h => rw [h, beq_self_eq_true]
    · next h => rw [beq_eq_false_iff_ne.mpr h]

end

/-! ### Params that are read -/

section

variable {ν : Type} [Layered ν] {entries es : List (ν × ν)} {params : List (String × List String)}

/-- Params are what their entries declare, put in one after another. -/
theorem paramsOf_putAll (h : paramsOf es = .ok params) :
    ∃ declared, List.Forall₂ Declares es declared ∧ params = putAll [] declared := by
  induction es using List.reverseRecOn generalizing params with
  | nil => exact ⟨[], .nil, (Except.ok.inj h).symm⟩
  | append_singleton es e ih =>
    obtain ⟨k, v⟩ := e
    rw [paramsOf, List.foldlM_append] at h
    obtain ⟨params', hparams', h⟩ := exists_of_bind_ok h
    obtain ⟨declared, hdeclared, rfl⟩ := ih hparams'
    rw [List.foldlM_cons] at h
    obtain ⟨last, hlast, h⟩ := exists_of_bind_ok h
    obtain ⟨name, hname, hlast⟩ := exists_of_bind_ok hlast
    obtain ⟨values, hvalues, hlast⟩ := exists_of_bind_ok hlast
    cases hlast
    cases h
    have hdeclares := paramValues_declares name v
    rw [hvalues] at hdeclares
    refine ⟨declared ++ [(name, values)], ?_, ?_⟩
    · exact List.rel_append hdeclared (.cons ⟨ok_of_mapError_ok hname, hdeclares⟩ .nil)
    · rw [putAll_append]
      rfl

theorem paramsIn_of_ofEntries {t : Template (List String)} (h : ofEntries entries = .ok t) :
    paramsIn entries = .ok t.params := by
  rw [ofEntries] at h
  split at h
  · obtain ⟨params, hparams, h⟩ := exists_of_bind_ok h
    obtain ⟨_, -, h⟩ := exists_of_bind_ok h
    obtain ⟨_, -, h⟩ := exists_of_bind_ok h
    obtain ⟨_, -, h⟩ := exists_of_bind_ok h
    obtain ⟨_, -, h⟩ := exists_of_bind_ok h
    obtain ⟨_, -, h⟩ := exists_of_bind_ok h
    cases h
    exact hparams
  · cases h

/-- The params of a template are what the entries of its params declare, put in one after another. -/
theorem params_putAll {v : ν} {t : Template (List String)}
    (hsection : Layered.under? "params" entries = some v) (hes : Layered.entries? v = some es)
    (hread : ofEntries entries = .ok t) :
    ∃ declared, List.Forall₂ Declares es declared ∧ t.params = putAll [] declared := by
  have hparams := paramsIn_of_ofEntries hread
  cases hempty : (Layered.layer v).isEmpty with
  | false =>
    rw [paramsIn, section?_eq_some_iff.mpr ⟨hsection, hempty⟩] at hparams
    simp only [hes] at hparams
    exact paramsOf_putAll hparams
  | true =>
    -- a mapping that counts as absent has no entries
    have hnil : es = [] := by
      rw [Layered.entries?] at hes
      split at hes
      · next es' hlayer =>
        cases hes
        simpa [Layer.isEmpty, hlayer] using hempty
      · cases hes
    have hnone : section? "params" entries = none := by
      rw [section?, hsection, Option.filter_some, hempty]
      rfl
    rw [paramsIn, hnone] at hparams
    exact ⟨[], hnil ▸ .nil, (Except.ok.inj hparams).symm⟩

/-- A key clashes with none of others exactly if its text is none of theirs. -/
theorem not_clash_iff {k : Scalar} {name : String} {keys : List Scalar} {declared : List (String × List String)}
    (hk : k.IsKey) (hname : k.plain = .ok name)
    (hplain : List.Forall₂ (fun k p => k.plain = .ok p.1) keys declared) (hkeys : ∀ k' ∈ keys, k'.IsKey)
    (hapart : ∀ k' ∈ keys, k.sameKey k' = false) :
    (∀ k' ∈ keys, ¬ k.Clash k') ↔ name ∉ declared.map (·.1) := by
  induction hplain with
  | nil => simp
  | cons hk' _ ih =>
    rw [List.forall_mem_cons] at hkeys hapart ⊢
    rw [ih hkeys.2 hapart.2, Scalar.clash_iff hk hkeys.1 hapart.1 hname hk', List.map_cons, List.mem_cons,
      not_or]

/-- Keys that are told apart have different texts exactly if no two of them clash. -/
theorem nodup_iff {keys : List Scalar} {declared : List (String × List String)}
    (hplain : List.Forall₂ (fun k p => k.plain = .ok p.1) keys declared) (hkeys : ∀ k ∈ keys, k.IsKey)
    (hapart : keys.Pairwise fun a b => a.sameKey b = false) :
    (declared.map (·.1)).Nodup ↔ keys.Pairwise fun a b => ¬ a.Clash b := by
  induction hplain with
  | nil => exact iff_of_true .nil .nil
  | cons hk hrest ih =>
    rw [List.forall_mem_cons] at hkeys
    rw [List.pairwise_cons] at hapart ⊢
    rw [List.map_cons, List.nodup_cons, ih hkeys.2 hapart.2,
      not_clash_iff hkeys.1 hk hrest hkeys.2 hapart.1]

/-- The name of a declared param is the text of its key. -/
theorem plain_of_declares {keys : List Scalar} {declared : List (String × List String)}
    (hlayers : List.Forall₂ (fun e k => Layered.layer e.1 = .scalar k) es keys)
    (hdeclared : List.Forall₂ Declares es declared) :
    List.Forall₂ (fun k p => k.plain = .ok p.1) keys declared := by
  induction hlayers generalizing declared with
  | nil =>
    cases hdeclared
    exact .nil
  | cons hlayer _ ih =>
    obtain - | ⟨⟨hplain, -⟩, hrest⟩ := hdeclared
    rw [Layered.plain, hlayer] at hplain
    exact .cons hplain (ih hrest)

/-- What becomes of declared params that are put in one after another. -/
theorem kept_of_declares {keys : List Scalar} {declared : List (String × List String)}
    (hlayers : List.Forall₂ (fun e k => Layered.layer e.1 = .scalar k) es keys)
    (hkeys : ∀ k ∈ keys, k.IsKey) (hapart : keys.Pairwise fun a b => a.sameKey b = false)
    (hdeclared : List.Forall₂ Declares es declared) (hparams : params = putAll [] declared) :
    (params = declared ↔ keys.Pairwise fun a b => ¬ a.Clash b)
      ∧ params.map (·.1) = (declared.map (·.1)).eraseDups
      ∧ ∀ name, params.lookup name = declared.reverse.lookup name := by
  rw [hparams]
  refine ⟨?_, names_putAll declared, lookup_putAll declared⟩
  rw [putAll_eq_iff]
  exact nodup_iff (plain_of_declares hlayers hdeclared) hkeys hapart

/-- **No declared param is lost unless two keys clash.**  Where the params are a mapping whose keys are told
apart, a template that is read has what the entries declare, one param for each in order, exactly when no
two keys clash.  In any case a name has its first place, and the values that were declared last. -/
theorem params_kept_iff {v : ν} {keys : List Scalar} {t : Template (List String)}
    (hsection : Layered.under? "params" entries = some v) (hes : Layered.entries? v = some es)
    (hlayers : List.Forall₂ (fun e k => Layered.layer e.1 = .scalar k) es keys)
    (hkeys : ∀ k ∈ keys, k.IsKey) (hapart : keys.Pairwise fun a b => a.sameKey b = false)
    (hread : ofEntries entries = .ok t) :
    ∃ declared, List.Forall₂ Declares es declared
      ∧ (t.params = declared ↔ keys.Pairwise fun a b => ¬ a.Clash b)
      ∧ t.params.map (·.1) = (declared.map (·.1)).eraseDups
      ∧ ∀ name, t.params.lookup name = declared.reverse.lookup name := by
  obtain ⟨declared, hdeclared, hparams⟩ := params_putAll hsection hes hread
  exact ⟨declared, hdeclared, kept_of_declares hlayers hkeys hapart hdeclared hparams⟩

end

def mixedKeys : List Scalar :=
  [.int 2, .text "x", .null, .date ⟨2024, 1, 31⟩, .float (.finite false 6755399441055744 (-52))]

/-- What stands under them: lists, and no value under one of them. -/
def mixedParams : List (Value × Value) :=
  List.zip (mixedKeys.map .scalar)
    [.list [.text "a", .scalar (.bool true)], .null, .list [], .list [.text "b"], .list [.null]]

def mixedEntries : List (Value × Value) :=
  [(.text "item_name", .text "i"), (.text "params", .map mixedParams)]

def mixedTemplate : Template (List String) where
  name := "i"
  params := [("2", ["a", "True"]), ("x", []), ("None", []), ("2024-01-31", ["b"]), ("1.5", ["None"])]

/-- Keys of five kinds are all kept, so that no two of them clash. -/
theorem params_kept_iff_mixed :
    Layered.under? "params" mixedEntries = some (.map mixedParams)
      ∧ Layered.entries? (Value.map mixedParams) = some mixedParams
      ∧ List.Forall₂ (fun e k => Layered.layer e.1 = .scalar k) mixedParams mixedKeys
      ∧ (∀ k ∈ mixedKeys, k.IsKey)
      ∧ (mixedKeys.Pairwise fun a b => a.sameKey b = false)
      ∧ ofEntries mixedEntries = .ok mixedTemplate
      ∧ List.Forall₂ Declares mixedParams mixedTemplate.params
      ∧ mixedKeys.Pairwise fun a b => ¬ a.Clash b := by
  have hlayers : List.Forall₂ (fun e k => Layered.layer e.1 = .scalar k) mixedParams mixedKeys :=
    .cons rfl (.cons rfl (.cons rfl (.cons rfl (.cons rfl .nil))))
  have hkeys : ∀ k ∈ mixedKeys, k.IsKey := by
    intro k hk
    simp only [mixedKeys, List.mem_cons, List.not_mem_nil, or_false] at hk
    rcases hk with rfl | rfl | rfl | rfl | rfl
    case inr.inr.inr.inr => exact ⟨⟨by decide, .inl (by decide), by decide, by decide⟩, nofun⟩
    all_goals exact ⟨trivial, nofun⟩
  have hapart : mixedKeys.Pairwise fun a b => a.sameKey b = false := by decide
  have hsection : Layered.under? "params" mixedEntries = some (.map mixedParams) := rfl
  have hread : ofEntries mixedEntries = .ok mixedTemplate := by decide +kernel
  have hall : List.Forall₂ Declares mixedParams mixedTemplate.params :=
    .cons ⟨by decide +kernel, .inr ⟨_, rfl, by decide +kernel⟩⟩
      (.cons ⟨by decide +kernel, .inl ⟨rfl, rfl⟩⟩
      (.cons ⟨by decide +kernel, .inr ⟨_, rfl, by decide +kernel⟩⟩
      (.cons ⟨by decide +kernel, .inr ⟨_, rfl, by decide +kernel⟩⟩
      (.cons ⟨by decide +kernel, .inr ⟨_, rfl, by decide +kernel⟩⟩ .nil))))
  obtain ⟨declared, hdeclared, hiff, -⟩ :=
    params_kept_iff hsection rfl hlayers hkeys hapart hread
  have hsame : mixedTemplate.params = declared :=
    List.right_unique_forall₂' declares_rightUnique hall hdeclared
  exact ⟨hsection, rfl, hlayers, hkeys, hapart, hread, hall, hiff.mp hsame⟩

end Template

/-! ### Params that are loaded -/

/-- A scalar that is loaded is a key in form unless it is bytes. -/
theorem Scalar.isKey_of_load {text : String} {g : Graph} (hload : Yaml.load text = .ok g) {x : g.Vertex}
    {k : Scalar} (hx : Layered.layer x = .scalar k) (hbytes : ∀ bs, k ≠ .bytes bs) : k.IsKey := by
  have hlayer : g.layer x.number = .scalar k := by
    have hmapped : (g.layer x.number).mapValues Graph.Vertex.mk = .scalar k := hx
    cases h : g.layer x.number <;> rw [h] at hmapped <;> cases hmapped
    rfl
  exact ⟨Yaml.load_proper hload hlayer, hbytes⟩

theorem Scalar.isKey_of_layers {text : String} {g : Graph} (hload : Yaml.load text = .ok g)
    {es : List (g.Vertex × g.Vertex)} {keys : List Scalar}
    (hlayers : List.Forall₂ (fun e k => Layered.layer e.1 = .scalar k) es keys)
    (hbytes : ∀ k ∈ keys, ∀ bs, k ≠ .bytes bs) : ∀ k ∈ keys, k.IsKey := by
  induction hlayers with
  | nil => exact fun _ hk => nomatch hk
  | cons hlayer _ ih =>
    rw [List.forall_mem_cons] at hbytes ⊢
    exact ⟨isKey_of_load hload hlayer hbytes.1, ih hbytes.2⟩

/-- **No param of a config is lost unless two keys clash.**  The templates of a text are read from the members
of the list in it.  Where the params of a member are a mapping whose keys are told apart and are no bytes,
its template has what the entries declare exactly when no two keys clash. -/
theorem Config.parse_params_kept {text source : String} {ts : List (Template (List String))}
    (hparse : Config.parse text source = .ok ts) :
    ∃ (g : Graph) (members : List g.Vertex), Yaml.load text = .ok g
      ∧ Layered.items? g.top = some members
      ∧ List.Forall₂ (fun member t => ∃ entries, Layered.entries? member = some entries
        ∧ ∀ v es keys, Layered.under? "params" entries = some v → Layered.entries? v = some es →
          List.Forall₂ (fun e k => Layered.layer e.1 = .scalar k) es keys →
          (∀ k ∈ keys, ∀ bs, k ≠ .bytes bs) → (keys.Pairwise fun a b => a.sameKey b = false) →
          ∃ declared, List.Forall₂ Declares es declared
            ∧ (t.params = declared ↔ keys.Pairwise fun a b => ¬ a.Clash b)
            ∧ t.params.map (·.1) = (declared.map (·.1)).eraseDups
            ∧ ∀ name, t.params.lookup name = declared.reverse.lookup name) members ts := by
  obtain ⟨g, members, hload, hmembers, hreads⟩ := Config.parse_reads hparse
  refine ⟨g, members, hload, hmembers, hreads.imp ?_⟩
  rintro member t ⟨entries, hentries, hread⟩
  refine ⟨entries, hentries, ?_⟩
  intro v es keys hsection hes hlayers hbytes hapart
  obtain ⟨declared, hdeclared, hparams⟩ := Template.params_putAll hsection hes hread
  have hkeys := Scalar.isKey_of_layers hload hlayers hbytes
  exact ⟨declared, hdeclared, Template.kept_of_declares hlayers hkeys hapart hdeclared hparams⟩

/-- Two params whose keys are a number and a text that spells it. -/
def speltText : String := "- item_name: x\n  params:\n    1: [a]\n    '1': [b]\n"

/-- A number and the text that spells it are two keys, but the values of the text replace those of the
number. -/
theorem Config.parse_spelt :
    (Scalar.int 1).sameKey (.text "1") = false
      ∧ Config.parse speltText "c" = .ok [{ name := "x", params := [("1", ["b"])] }] := by
  decide +kernel

end SecretForge
