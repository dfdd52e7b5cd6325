import Mathlib.Data.List.Perm.Basic
import SecretForge.Proofs.Expansion.Product
import SecretForge.Proofs.Text.Simultaneous

/-!
# Literal expansion

Expansion replaces the placeholders of one param after the other, each time in all texts of an item as
they have become.  When names and values lack the characters of a placeholder and no value stands
inside a name, a value neither completes a placeholder nor takes one apart, and the outcome is that of
a single pass which replaces the placeholders of all params at once.

* `Literal` — the condition on the params.
* `fillAtOnce` — the single pass over a text for a selection.
* `Item.fill_eq_mapTexts_fillAtOnce` — substituting a selection param by param is this pass.
* `map_selections_perm` — the params in another order have the same selections up to order.
* **`expand_literal_simultaneous`** — the items of a template, and those of the template with its params
  in another order.
-/

namespace SecretForge

open Text

/-- The text has none of the characters that make up a placeholder besides the name. -/
def Plain (text : String) : Prop := '$' ∉ text.toList ∧ '(' ∉ text.toList ∧ ')' ∉ text.toList

/-- Names and values have no character of a placeholder, and no value stands inside a name. -/
structure Literal (params : List (String × List String)) : Prop where
  names : ∀ p ∈ params, Plain p.1
  values : ∀ p ∈ params, ∀ v ∈ p.2, Plain v
  apart : ∀ p ∈ params, ∀ v ∈ p.2, ∀ q ∈ params, ¬ v.toList <:+: q.1.toList

instance : DecidablePred Plain := fun _ => inferInstanceAs (Decidable (_ ∧ _ ∧ _))

instance (params : List (String × List String)) : Decidable (Literal params) :=
  decidable_of_iff
    ((∀ p ∈ params, Plain p.1) ∧ (∀ p ∈ params, ∀ v ∈ p.2, Plain v)
      ∧ ∀ p ∈ params, ∀ v ∈ p.2, ∀ q ∈ params, ¬ v.toList <:+: q.1.toList)
    ⟨fun h => ⟨h.1, h.2.1, h.2.2⟩, fun h => ⟨h.names, h.values, h.apart⟩⟩

/-- The rules by which the placeholders of a selection are replaced by their values. -/
def placeholderRules (s : Selection) : List Rule :=
  s.map fun c => ((placeholder c.1).toList, c.2.toList)

/-- The text with the placeholders of all params of a selection replaced at once, in a single pass from
left to right. -/
def fillAtOnce (s : Selection) (text : String) : String :=
  String.ofList (replaceEach (placeholderRules s) text.toList)

def Item.texts (item : Item) : List String :=
  item.name :: item.password :: item.notes
    :: (item.fields ++ item.attachments).flatMap fun e => [e.name, e.cmd]

variable {params params' : List (String × List String)} {s : Selection}

/-! ### Placeholders -/

theorem toList_placeholder (p : String) :
    (placeholder p).toList = '$' :: (('(' :: p.toList) ++ [')']) := by
  rw [placeholder, String.toList_append, String.toList_append]
  rfl

theorem placeholder_inj {p q : String} (h : (placeholder p).toList = (placeholder q).toList) :
    p = q := by
  rw [toList_placeholder, toList_placeholder] at h
  exact String.toList_inj.mp (List.cons.inj (List.append_cancel_right (List.cons.inj h).2)).2

theorem enclosed_placeholder {p : String} (hp : Plain p) :
    Enclosed '$' ')' (placeholder p).toList :=
  ⟨'(' :: p.toList, toList_placeholder p, by simp [hp.1], by simp [hp.2.2]⟩

/-- A plain text that does not stand in a name does not stand in its placeholder. -/
theorem not_infix_placeholder {v p : String} (hv : Plain v) (h : ¬ v.toList <:+: p.toList) :
    ¬ v.toList <:+: (placeholder p).toList := by
  have hnil : ¬ v.toList <:+: [] := fun hin => h (hin.trans List.nil_infix)
  rw [toList_placeholder]
  intro hin
  have hopen := (infix_append_cons (x := []) hv.1 hin).resolve_left hnil
  have hname := (infix_append_cons (x := []) hv.2.1 hopen).resolve_left hnil
  rcases infix_append_cons hv.2.2 hname with hin | hin
  · exact h hin
  · exact hnil hin

/-! ### Selections -/

theorem map_fst_of_mem_selections (h : s ∈ selections params) :
    s.map (·.1) = params.map (·.1) := by
  refine List.forall₂_eq_eq_eq ▸ ?_
  rw [List.forall₂_map_left_iff, List.forall₂_map_right_iff]
  exact (mem_selections_iff.mp h).imp fun _ _ h => h.1

/-- A value that is selected is a value of the param that is named with it. -/
theorem exists_param_of_mem (h : s ∈ selections params) {c : String × String} (hc : c ∈ s) :
    ∃ p ∈ params, c.1 = p.1 ∧ c.2 ∈ p.2 := by
  induction params generalizing s with
  | nil =>
    rw [selections, List.mem_singleton] at h
    exact absurd hc (h ▸ List.not_mem_nil)
  | cons p params ih =>
    obtain ⟨v, hv, hs⟩ := List.mem_flatMap.mp h
    obtain ⟨s', hs', rfl⟩ := List.mem_map.mp hs
    rcases List.mem_cons.mp hc with rfl | hc
    · exact ⟨p, List.mem_cons_self, rfl, hv⟩
    · obtain ⟨q, hq, hvalue⟩ := ih hs' hc
      exact ⟨q, List.mem_cons_of_mem p hq, hvalue⟩

/-- The rules of a selection from literal params neither make nor take apart each other's texts. -/
theorem Literal.separate (hl : Literal params) (h : s ∈ selections params) :
    Separate '$' ')' (placeholderRules s) where
  ends_ne := by decide
  enclosed := by
    rintro _ hr
    obtain ⟨c, hc, rfl⟩ := List.mem_map.mp hr
    obtain ⟨p, hp, hname, -⟩ := exists_param_of_mem h hc
    exact enclosed_placeholder (hname ▸ hl.names p hp)
  plain := by
    rintro _ hr
    obtain ⟨c, hc, rfl⟩ := List.mem_map.mp hr
    obtain ⟨p, hp, -, hv⟩ := exists_param_of_mem h hc
    exact ⟨(hl.values p hp _ hv).1, (hl.values p hp _ hv).2.2⟩
  apart := by
    rintro _ hr _ hr'
    obtain ⟨c, hc, rfl⟩ := List.mem_map.mp hr
    obtain ⟨c', hc', rfl⟩ := List.mem_map.mp hr'
    obtain ⟨p, hp, -, hv⟩ := exists_param_of_mem h hc
    obtain ⟨q, hq, hname, -⟩ := exists_param_of_mem h hc'
    exact not_infix_placeholder (hl.values p hp _ hv) (hname ▸ hl.apart p hp _ hv q hq)

/-- Distinct params have distinct placeholders. -/
theorem nodup_placeholderRules (hd : (s.map (·.1)).Nodup) :
    ((placeholderRules s).map (·.1)).Nodup := by
  rw [placeholderRules, List.map_map]
  rw [show ((fun r : Rule => r.1) ∘ fun c : String × String => ((placeholder c.1).toList, c.2.toList))
      = (fun p => (placeholder p).toList) ∘ (·.1) from rfl, ← List.map_map]
  exact hd.map fun _ _ => placeholder_inj

/-! ### One pass for all params -/

theorem toList_replaceParam (p v text : String) :
    (replaceParam p v text).toList
      = replaceEach [((placeholder p).toList, v.toList)] text.toList := by
  rw [replaceEach_singleton (by rw [toList_placeholder]; exact List.cons_ne_nil _ _), replaceParam,
    replace, String.toList_ofList]

/-- **Replacing the placeholders of one param after the other is replacing all of them at once.** -/
theorem foldl_replaceParam (hs : Separate '$' ')' (placeholderRules s))
    (hd : (s.map (·.1)).Nodup) (text : String) :
    s.foldl (fun text c => replaceParam c.1 c.2 text) text = fillAtOnce s text := by
  induction s generalizing text with
  | nil => rw [List.foldl_nil, fillAtOnce, placeholderRules, List.map_nil, replaceEach_nil_rules,
      String.ofList_toList]
  | cons c s ih =>
    rw [List.map_cons, List.nodup_cons] at hd
    have hne : ∀ r ∈ placeholderRules s, r.1 ≠ (placeholder c.1).toList := by
      intro r hr heq
      obtain ⟨c', hc', rfl⟩ := List.mem_map.mp hr
      exact hd.1 (placeholder_inj heq ▸ List.mem_map_of_mem (f := (·.1)) hc')
    rw [List.foldl_cons, ih (hs.subset (List.subset_cons_self _ _)) hd.2, fillAtOnce, fillAtOnce,
      toList_replaceParam]
    exact congrArg String.ofList (replaceEach_cons_rules hs hne 0 text.toList).symm

theorem Entry.mapTexts_mapTexts (f g : String → String) (e : Entry) :
    (e.mapTexts f).mapTexts g = e.mapTexts (g ∘ f) := rfl

theorem Item.mapTexts_mapTexts (f g : String → String) (item : Item) :
    (item.mapTexts f).mapTexts g = item.mapTexts (g ∘ f) := by
  simp only [Item.mapTexts, List.map_map, Function.comp_def, Entry.mapTexts_mapTexts]

theorem Item.mapTexts_id (item : Item) : item.mapTexts id = item := by
  have hentries : ∀ es : List Entry, es.map (·.mapTexts id) = es := fun es => List.map_id es
  simp only [Item.mapTexts, hentries, id]

/-- Substituting a selection in an item is substituting it in each text. -/
theorem Item.fill_eq_mapTexts (s : Selection) (item : Item) :
    item.fill s = item.mapTexts fun text => s.foldl (fun text c => replaceParam c.1 c.2 text) text := by
  induction s generalizing item with
  | nil => exact item.mapTexts_id.symm
  | cons c s ih => exact (ih (item.substitute c.1 c.2)).trans (item.mapTexts_mapTexts _ _)

/-- **A selection from literal params is substituted at once.** -/
theorem Item.fill_eq_mapTexts_fillAtOnce (hd : (params.map (·.1)).Nodup) (hl : Literal params)
    (h : s ∈ selections params) (item : Item) : item.fill s = item.mapTexts (fillAtOnce s) := by
  rw [item.fill_eq_mapTexts s]
  exact congrArg item.mapTexts
    (funext (foldl_replaceParam (hl.separate h) (map_fst_of_mem_selections h ▸ hd)))

/-- No placeholder of the params is left. -/
theorem not_infix_fillAtOnce (hl : Literal params) (h : s ∈ selections params)
    {p : String × List String} (hp : p ∈ params) (text : String) :
    ¬ (placeholder p.1).toList <:+: (fillAtOnce s text).toList := by
  have hname : p.1 ∈ s.map (·.1) :=
    map_fst_of_mem_selections h ▸ List.mem_map_of_mem (f := (·.1)) hp
  obtain ⟨c, hc, hname⟩ := List.mem_map.mp hname
  rw [fillAtOnce, String.toList_ofList, ← hname]
  exact not_infix_replaceEach (r := ((placeholder c.1).toList, c.2.toList)) (hl.separate h)
    (List.mem_map.mpr ⟨c, hc, rfl⟩) 0 text.toList

theorem Item.exists_of_mem_texts_mapTexts {f : String → String} {item : Item} {text : String}
    (h : text ∈ (item.mapTexts f).texts) : ∃ original ∈ item.texts, text = f original := by
  have htexts : (item.mapTexts f).texts = item.texts.map f := by
    simp only [Item.texts, Item.mapTexts, Entry.mapTexts, ← List.map_append, List.flatMap_map,
      List.map_cons, List.map_flatMap, List.map_nil]
  rw [htexts] at h
  obtain ⟨original, hmem, rfl⟩ := List.mem_map.mp h
  exact ⟨original, hmem, rfl⟩

/-! ### The order of the params -/

/-- Of two nested choices, either may be made first. -/
theorem flatMap_flatMap_perm {α β γ : Type} (as : List α) (bs : List β) (f : α → β → List γ) :
    (as.flatMap fun a => bs.flatMap fun b => f a b).Perm
      (bs.flatMap fun b => as.flatMap fun a => f a b) := by
  induction as with
  | nil => simp
  | cons a as ih =>
    simp only [List.flatMap_cons]
    exact (ih.append_left _).trans (List.flatMap_append_perm bs _ _)

/-- **The params in another order have the same selections up to order**, for anything that does not
depend on the order inside a selection. -/
theorem map_selections_perm {β : Type} (hperm : params.Perm params') (f : Selection → β)
    (hf : ∀ s s' : Selection, (s.map (·.1)).Perm (params.map (·.1)) → s.Perm s' → f s = f s') :
    ((selections params).map f).Perm ((selections params').map f) := by
  induction hperm generalizing f with
  | nil => exact .refl _
  | cons p _ ih =>
    rw [selections, selections, List.map_flatMap, List.map_flatMap]
    refine List.Perm.flatMap_left _ fun v _ => ?_
    rw [List.map_map, List.map_map]
    exact ih _ fun s s' hs hss' => hf _ _ (hs.cons _) (hss'.cons _)
  | swap p q params =>
    have hswap : ∀ v w, ∀ s ∈ selections params,
        f ((q.1, v) :: (p.1, w) :: s) = f ((p.1, w) :: (q.1, v) :: s) := by
      intro v w s hs
      refine hf _ _ ?_ (.swap _ _ _)
      rw [List.map_cons, List.map_cons, map_fst_of_mem_selections hs]
      exact .refl _
    simp only [selections, List.map_flatMap, List.map_map, Function.comp_def]
    refine (flatMap_flatMap_perm q.2 p.2 _).trans ?_
    refine List.Perm.flatMap_left _ fun w _ => List.Perm.flatMap_left _ fun v _ => ?_
    rw [List.map_congr_left (hswap v w)]
  | trans h _ ih ih' =>
    exact (ih f hf).trans (ih' f fun s s' hs hss' => hf s s' (hs.trans (h.map _).symm) hss')

/-- The pass for a selection does not depend on the order of its values. -/
theorem fillAtOnce_perm (hd : (params.map (·.1)).Nodup) (hl : Literal params) {s' : Selection}
    (hs : (s.map (·.1)).Perm (params.map (·.1))) (hperm : s.Perm s') :
    fillAtOnce s = fillAtOnce s' := by
  have henclosed : ∀ r ∈ placeholderRules s, Enclosed '$' ')' r.1 := by
    intro r hr
    obtain ⟨c, hc, rfl⟩ := List.mem_map.mp hr
    obtain ⟨p, hp, hname⟩ := List.mem_map.mp (hs.mem_iff.mp (List.mem_map_of_mem (f := (·.1)) hc))
    exact enclosed_placeholder (hname ▸ hl.names p hp)
  funext text
  rw [fillAtOnce, fillAtOnce, replaceEach_perm henclosed
    (nodup_placeholderRules (hs.nodup_iff.mpr hd)) (hperm.map _)]
  rfl

/-! ### Literal templates -/

/-- **Expansion is literal and simultaneous.**  For literal params, the items of a template are, in the
order of the selections, its item with the placeholders of all params replaced at once in each text;
no placeholder of a param is left in any text; and with the params in another order the items are the
same up to order. -/
theorem expand_literal_simultaneous (t : Template (List String))
    (hd : (t.params.map (·.1)).Nodup) (hl : Literal t.params) :
    ∃ items, t.expand Range.ofTexts = .ok items
      ∧ items.map (·.toItem)
        = (selections t.params).map (fun s => t.toItem.mapTexts (fillAtOnce s))
      ∧ (∀ item ∈ items, ∀ text ∈ item.texts, ∀ p ∈ t.params,
        ¬ (placeholder p.1).toList <:+: text.toList)
      ∧ ∀ u : Template (List String), u.toItem = t.toItem → t.params.Perm u.params →
        ∃ items', u.expand Range.ofTexts = .ok items'
          ∧ (items.map (·.toItem)).Perm (items'.map (·.toItem)) := by
  have hitem : ∀ u : Template (List String), (u.params.map (·.1)).Nodup → Literal u.params →
      ((selections u.params).map fun s => u.fill s).map (·.toItem)
        = (selections u.params).map fun s => u.toItem.mapTexts (fillAtOnce s) := by
    intro u hd hl
    rw [List.map_map]
    refine List.map_congr_left fun s hs => ?_
    show (u.fill s).toItem = _
    rw [u.fill_eq s]
    exact u.toItem.fill_eq_mapTexts_fillAtOnce hd hl hs
  refine ⟨_, expand_ofTexts t, hitem t hd hl, fun item hmem text htext p hp => ?_,
    fun u hu hperm => ⟨_, expand_ofTexts u, ?_⟩⟩
  · obtain ⟨s, hs, rfl⟩ := List.mem_map.mp hmem
    rw [t.fill_eq s, t.toItem.fill_eq_mapTexts_fillAtOnce hd hl hs] at htext
    obtain ⟨original, -, rfl⟩ := Item.exists_of_mem_texts_mapTexts htext
    exact not_infix_fillAtOnce hl hs hp original
  · have hd' : (u.params.map (·.1)).Nodup := (hperm.map _).nodup_iff.mp hd
    have hl' : Literal u.params :=
      ⟨fun p hp => hl.names p (hperm.mem_iff.mpr hp),
        fun p hp => hl.values p (hperm.mem_iff.mpr hp),
        fun p hp v hv q hq =>
          hl.apart p (hperm.mem_iff.mpr hp) v hv q (hperm.mem_iff.mpr hq)⟩
    rw [hitem t hd hl, hitem u hd' hl', hu]
    exact map_selections_perm hperm _ fun s s' hs hss' => by
      rw [fillAtOnce_perm hd hl hs hss']

/-- Placeholders that stand inside one another, side by side and cut short. -/
def nestedTemplate : Template (List String) where
  name := "$($(a))$(a$(b)"
  fields := [⟨"$(b)$(b)", "echo $(c) $(a"⟩]
  notes := "$$(b))"
  params := [("a", ["x"]), ("b", ["1", "y z"])]

/-- What a value is put between stays as it is, even where it looks like a placeholder. -/
theorem expand_literal_nested :
    (nestedTemplate.params.map (·.1)).Nodup ∧ Literal nestedTemplate.params
      ∧ ∃ items, nestedTemplate.expand Range.ofTexts = .ok items
        ∧ items.map (·.toItem)
          = [{ name := "$(x)$(a1", fields := [⟨"11", "echo $(c) $(a"⟩], notes := "$1)" },
            { name := "$(x)$(ay z", fields := [⟨"y zy z", "echo $(c) $(a"⟩], notes := "$y z)" }]
        ∧ (∀ item ∈ items, ∀ text ∈ item.texts, ∀ p ∈ nestedTemplate.params,
          ¬ (placeholder p.1).toList <:+: text.toList)
        ∧ ∃ items', { nestedTemplate with params := nestedTemplate.params.reverse }.expand
            Range.ofTexts = .ok items'
          ∧ (items.map (·.toItem)).Perm (items'.map (·.toItem)) := by
  have hd : (nestedTemplate.params.map (·.1)).Nodup := by decide
  have hl : Literal nestedTemplate.params := by decide
  obtain ⟨items, hexpand, hitems, hleft, horder⟩ := expand_literal_simultaneous nestedTemplate hd hl
  exact ⟨hd, hl, items, hexpand, hitems.trans (by decide +kernel), hleft,
    horder { nestedTemplate with params := nestedTemplate.params.reverse } rfl
      (List.reverse_perm _).symm⟩

end SecretForge
