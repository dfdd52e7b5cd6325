import Mathlib.Data.List.Basic
import Mathlib.Data.List.Find
import Mathlib.Data.List.Nodup
import SecretForge.Proofs.Text.Search

/-!
# Replacing several texts at once

One pass over a text can replace several texts at once: at each place it looks for a text that starts
there, puts its replacement and goes on behind it.  Replacing one text after the other is another
matter, because a replacement may put together or take apart what is to be replaced later.  For texts
between an opening and a closing character that replacements lack, the two agree as soon as no
replacement stands inside one of the texts.

* `replaceEachFrom`, `replaceEach` — the single pass.
* `Separate` — the condition on the texts and their replacements.
* **`replaceEach_cons_rules`** — the first text may be replaced beforehand.
* **`not_infix_replaceEach`** — none of the texts is left; **`replaceEach_perm`** — their order does not
  matter.
-/

namespace SecretForge.Text

/-- A text to be replaced, and its replacement. -/
abbrev Rule := List Char × List Char

/-- The rule whose text starts here; of several such rules the first one. -/
def ruleAt (rules : List Rule) (s : List Char) : Option Rule :=
  rules.find? fun r => startsWith r.1 s

/-- `replaceEachFrom rules k s` drops the next `k` characters, the rest of an occurrence already
replaced, and then replaces the texts of all rules at once, from left to right. -/
def replaceEachFrom (rules : List Rule) : Nat → List Char → List Char
  | _, [] => []
  | k + 1, _ :: cs => replaceEachFrom rules k cs
  | 0, c :: cs =>
    match ruleAt rules (c :: cs) with
    | some r => r.2 ++ replaceEachFrom rules (r.1.length - 1) cs
    | none => c :: replaceEachFrom rules 0 cs

/-- The texts of all rules replaced at once, in a single pass. -/
def replaceEach (rules : List Rule) (s : List Char) : List Char := replaceEachFrom rules 0 s

variable {rules : List Rule} {r : Rule} {c o e : Char} {s v w x : List Char}

/-! ### The pass -/

theorem ruleAt_some (h : ruleAt rules s = some r) : r ∈ rules ∧ r.1 <+: s :=
  ⟨List.mem_of_find?_eq_some h, startsWith_iff.mp (by simpa using List.find?_some h)⟩

theorem not_prefix_of_ruleAt (h : ruleAt rules s = none) (hr : r ∈ rules) : ¬ r.1 <+: s := fun hs =>
  List.find?_eq_none.mp h r hr (startsWith_iff.mpr hs)

theorem replaceEach_cons_some (cs : List Char) (h : ruleAt rules (c :: cs) = some r) :
    replaceEach rules (c :: cs) = r.2 ++ replaceEachFrom rules (r.1.length - 1) cs := by
  rw [replaceEach, replaceEachFrom, h]

theorem replaceEach_cons_none (cs : List Char) (h : ruleAt rules (c :: cs) = none) :
    replaceEach rules (c :: cs) = c :: replaceEach rules cs := by
  rw [replaceEach, replaceEachFrom, h]
  rfl

theorem replaceEach_nil_rules (s : List Char) : replaceEach [] s = s := by
  induction s with
  | nil => rfl
  | cons c cs ih => rw [replaceEach_cons_none cs rfl, ih]

/-- Dropped characters do not count. -/
theorem replaceEachFrom_eq (rules : List Rule) (k : Nat) (s : List Char) :
    replaceEachFrom rules k s = replaceEach rules (s.drop k) := by
  induction s generalizing k with
  | nil => cases k <;> rfl
  | cons c cs ih =>
    cases k with
    | zero => rfl
    | succ k => exact ih k

/-- With a single rule the pass is the replacement of its text. -/
theorem replaceEachFrom_singleton (p r : List Char) (k : Nat) (s : List Char) :
    replaceEachFrom [(p, r)] k s = replaceFrom p r k s := by
  induction s generalizing k with
  | nil => cases k <;> rfl
  | cons c cs ih =>
    cases k with
    | succ k => exact ih k
    | zero =>
      rw [replaceEachFrom, replaceFrom, ruleAt, List.find?_singleton]
      by_cases h : startsWith p (c :: cs) = true
      · rw [if_pos h, if_pos h, ← ih]
      · rw [if_neg h, if_neg h, ← ih]

theorem replaceEach_singleton {p : List Char} (hp : p ≠ []) (r s : List Char) :
    replaceEach [(p, r)] s = replaceAll p r s := by
  rw [replaceAll, if_neg (by simpa using hp)]
  exact replaceEachFrom_singleton p r 0 s

/-! ### Texts between an opening and a closing character -/

/-- The text stands between the opening character `o` and the closing character `e`, with neither of
them inside. -/
def Enclosed (o e : Char) (w : List Char) : Prop :=
  ∃ body, w = o :: (body ++ [e]) ∧ o ∉ body ∧ e ∉ body

/-- Each rule replaces an enclosed text by a text without the enclosing characters, and no replacement
stands inside a text to be replaced. -/
structure Separate (o e : Char) (rules : List Rule) : Prop where
  ends_ne : o ≠ e
  enclosed : ∀ r ∈ rules, Enclosed o e r.1
  plain : ∀ r ∈ rules, o ∉ r.2 ∧ e ∉ r.2
  apart : ∀ r ∈ rules, ∀ r' ∈ rules, ¬ r.2 <:+: r'.1

theorem Separate.subset {rules' : List Rule} (h : Separate o e rules) (hsub : rules' ⊆ rules) :
    Separate o e rules' :=
  ⟨h.ends_ne, fun r hr => h.enclosed r (hsub hr), fun r hr => h.plain r (hsub hr),
    fun r hr r' hr' => h.apart r (hsub hr) r' (hsub hr')⟩

/-- What stands before the first `e` is determined. -/
theorem eq_of_append_cons {b b' x y : List Char} (hb : e ∉ b) (hb' : e ∉ b')
    (h : b ++ e :: x = b' ++ e :: y) : b = b' := by
  have hbefore : ∀ {b x : List Char}, e ∉ b → (b ++ e :: x).takeWhile (· ≠ e) = b := by
    intro b x hb
    rw [List.takeWhile_append_of_pos (by grind), List.takeWhile_cons_of_neg (by simp),
      List.append_nil]
  rw [← hbefore hb, h, hbefore hb']

/-- Of two enclosed texts, one that starts where the other one stands is the same. -/
theorem Enclosed.eq_of_prefix_append (hv : Enclosed o e v) (hw : Enclosed o e w) (h : v <+: w ++ x) :
    v = w := by
  obtain ⟨b, rfl, -, hb⟩ := hv
  obtain ⟨b', rfl, -, hb'⟩ := hw
  obtain ⟨y, hy⟩ := h
  have htail : b ++ e :: y = b' ++ e :: x := by simpa using hy
  rw [eq_of_append_cons hb hb' htail]

/-- An enclosed text starts only where its opening character stands. -/
theorem Enclosed.not_prefix_cons (hw : Enclosed o e w) (hc : c ≠ o) (cs : List Char) :
    ¬ w <+: c :: cs := by
  obtain ⟨b, rfl, -⟩ := hw
  exact fun h => hc (List.cons_prefix_cons.mp h).1.symm

/-- A text without the opening character is passed over. -/
theorem replaceEach_append_plain (hr : ∀ r ∈ rules, Enclosed o e r.1) (hv : o ∉ v)
    (x : List Char) : replaceEach rules (v ++ x) = v ++ replaceEach rules x := by
  induction v with
  | nil => rfl
  | cons c v ih =>
    rw [List.mem_cons, not_or] at hv
    have hnone : ruleAt rules (c :: (v ++ x)) = none := by
      cases h : ruleAt rules (c :: (v ++ x)) with
      | none => rfl
      | some r =>
        obtain ⟨hmem, hstarts⟩ := ruleAt_some h
        exact absurd hstarts ((hr r hmem).not_prefix_cons (Ne.symm hv.1) _)
    rw [List.cons_append, replaceEach_cons_none _ hnone, ih hv.2, List.cons_append]

/-- Where an enclosed text stands, the rule for this text applies. -/
theorem ruleAt_append_enclosed (hr : ∀ r ∈ rules, Enclosed o e r.1) (hw : Enclosed o e w)
    (x : List Char) : ruleAt rules (w ++ x) = rules.find? fun r => r.1 = w := by
  refine List.find?_congr fun r hmem => ?_
  rw [Bool.eq_iff_iff, startsWith_iff, decide_eq_true_iff]
  exact ⟨(hr r hmem).eq_of_prefix_append hw, fun h => h ▸ List.prefix_append w x⟩

/-- An enclosed text that is replaced by no rule is passed over. -/
theorem replaceEach_append_enclosed (h : Separate o e rules) (hw : Enclosed o e w)
    (hne : ∀ r ∈ rules, r.1 ≠ w) (x : List Char) :
    replaceEach rules (w ++ x) = w ++ replaceEach rules x := by
  have hnone : ruleAt rules (w ++ x) = none := by
    rw [ruleAt_append_enclosed h.enclosed hw]
    exact List.find?_eq_none.mpr fun r hmem => by simpa using hne r hmem
  obtain ⟨b, rfl, hb, -⟩ := hw
  have hplain : o ∉ b ++ [e] := by simp [hb, h.ends_ne]
  calc replaceEach rules (o :: (b ++ [e] ++ x))
      = o :: replaceEach rules (b ++ [e] ++ x) := replaceEach_cons_none _ hnone
    _ = o :: (b ++ [e] ++ replaceEach rules x) := by
        rw [replaceEach_append_plain h.enclosed hplain]

theorem Enclosed.ne_nil (hw : Enclosed o e w) : w ≠ [] := by
  obtain ⟨b, rfl, -⟩ := hw
  exact List.cons_ne_nil o _

theorem drop_of_append_eq {cs : List Char} (hw : w ≠ []) (h : w ++ x = c :: cs) :
    cs.drop (w.length - 1) = x := by
  cases w with
  | nil => exact absurd rfl hw
  | cons d w =>
    obtain ⟨-, rfl⟩ := List.cons.inj h
    exact List.drop_left

/-- Where the text of a rule stands, its replacement is put. -/
theorem replaceEach_append_rule (hne : r.1 ≠ []) (h : ruleAt rules (r.1 ++ x) = some r) :
    replaceEach rules (r.1 ++ x) = r.2 ++ replaceEach rules x := by
  obtain ⟨c, cs, hcs⟩ := List.exists_cons_of_ne_nil (List.append_ne_nil_of_left_ne_nil hne x)
  rw [hcs] at h ⊢
  rw [replaceEach_cons_some cs h, replaceEachFrom_eq, drop_of_append_eq hne hcs]

/-! ### Neither made nor taken apart -/

/-- What is left of an enclosed text still has the closing character. -/
theorem Enclosed.mem_of_suffix (hw : Enclosed o e w) {u : List Char} (hu : u <:+ w)
    (hne : u ≠ []) : e ∈ u := by
  obtain ⟨b, rfl, -⟩ := hw
  have hlast : [e] <:+ o :: (b ++ [e]) := ⟨o :: b, rfl⟩
  rcases List.suffix_or_suffix_of_suffix hlast hu with h | h
  · exact h.subset List.mem_cons_self
  · rcases List.suffix_cons_iff.mp h with rfl | h
    · exact List.mem_cons_self
    · exact absurd (List.suffix_nil.mp h) hne

/-- **The pass completes no enclosed text.**  The end of an enclosed text in which no replacement stands
starts the result only where it starts the text. -/
theorem prefix_of_prefix_replaceEach (h : Separate o e rules) (hw : Enclosed o e w)
    (hapart : ∀ r ∈ rules, ¬ r.2 <:+: w) {u : List Char} (hu : u <:+ w)
    (hstarts : u <+: replaceEach rules s) : u <+: s := by
  induction s generalizing u with
  | nil => exact hstarts
  | cons c cs ih =>
    cases u with
    | nil => exact List.nil_prefix
    | cons d u =>
      cases hrule : ruleAt rules (c :: cs) with
      | some r =>
        -- it neither ends inside the replacement nor goes beyond it
        obtain ⟨hmem, -⟩ := ruleAt_some hrule
        rw [replaceEach_cons_some cs hrule] at hstarts
        rcases List.prefix_or_prefix_of_prefix hstarts (List.prefix_append _ _) with hin | hout
        · exact absurd (hin.subset (hw.mem_of_suffix hu (List.cons_ne_nil d u)))
            (h.plain r hmem).2
        · exact absurd (hout.isInfix.trans hu.isInfix) (hapart r hmem)
      | none =>
        rw [replaceEach_cons_none cs hrule, List.cons_prefix_cons] at hstarts
        exact List.cons_prefix_cons.mpr
          ⟨hstarts.1, ih ((List.suffix_cons d u).trans hu) hstarts.2⟩

/-- An enclosed text stands behind a text without the opening character, not across its end. -/
theorem Enclosed.infix_of_append (hw : Enclosed o e w) (hv : o ∉ v) (h : w <:+: v ++ x) :
    w <:+: x := by
  induction v with
  | nil => exact h
  | cons c v ih =>
    rw [List.mem_cons, not_or] at hv
    rw [List.cons_append, List.infix_cons_iff] at h
    rcases h with h | h
    · exact absurd h (hw.not_prefix_cons (Ne.symm hv.1) _)
    · exact ih hv.2 h

/-- **None of the texts is left.** -/
theorem not_infix_replaceEach (h : Separate o e rules) (hr : r ∈ rules) (k : Nat) (s : List Char) :
    ¬ r.1 <:+: replaceEachFrom rules k s := by
  have hw := h.enclosed r hr
  induction s generalizing k with
  | nil =>
    obtain ⟨b, hb, -⟩ := hw
    cases k <;> simp [replaceEachFrom, hb]
  | cons c cs ih =>
    cases k with
    | succ k => exact ih k
    | zero =>
      intro hin
      cases hrule : ruleAt rules (c :: cs) with
      | some r' =>
        obtain ⟨hmem, -⟩ := ruleAt_some hrule
        rw [← replaceEach, replaceEach_cons_some cs hrule] at hin
        exact ih _ (hw.infix_of_append (h.plain r' hmem).1 hin)
      | none =>
        have hpass := replaceEach_cons_none cs hrule
        rw [← replaceEach, hpass, List.infix_cons_iff, ← hpass] at hin
        rcases hin with hin | hin
        · exact not_prefix_of_ruleAt hrule hr
            (prefix_of_prefix_replaceEach h hw (fun r' hr' => h.apart r' hr' r hr)
              (List.suffix_refl _) hin)
        · exact ih 0 hin

/-! ### One text before the others -/

/-- Replacing one text completes no other: where no text of the rules stands, none stands after it. -/
theorem ruleAt_cons_replaceEach (h : Separate o e (r :: rules)) {c : Char} {cs : List Char}
    (hone : ruleAt [r] (c :: cs) = none) (hrule : ruleAt rules (c :: cs) = none) :
    ruleAt rules (c :: replaceEach [r] cs) = none := by
  have hfirst : Separate o e [r] := h.subset (by simp)
  cases hlater : ruleAt rules (c :: replaceEach [r] cs) with
  | none => rfl
  | some r' =>
    obtain ⟨hmem, hstarts⟩ := ruleAt_some hlater
    have hw := h.enclosed r' (List.mem_cons_of_mem r hmem)
    have hapart : ∀ r'' ∈ [r], ¬ r''.2 <:+: r'.1 := fun r'' hr'' => List.mem_singleton.mp hr'' ▸
      h.apart r List.mem_cons_self r' (List.mem_cons_of_mem r hmem)
    rw [← replaceEach_cons_none cs hone] at hstarts
    exact absurd (prefix_of_prefix_replaceEach hfirst hw hapart (List.suffix_refl _) hstarts)
      (not_prefix_of_ruleAt hrule hmem)

/-- **The first text may be replaced before the others.** -/
theorem replaceEach_cons_rules (h : Separate o e (r :: rules)) (hne : ∀ r' ∈ rules, r'.1 ≠ r.1) (k : Nat)
    (s : List Char) :
    replaceEachFrom (r :: rules) k s = replaceEach rules (replaceEachFrom [r] k s) := by
  have hfirst : Separate o e [r] := h.subset (by simp)
  have hrest : Separate o e rules := h.subset (List.subset_cons_self r rules)
  induction s generalizing k with
  | nil => cases k <;> rfl
  | cons c cs ih =>
    cases k with
    | succ k => exact ih k
    | zero =>
      show replaceEach (r :: rules) (c :: cs) = replaceEach rules (replaceEach [r] (c :: cs))
      by_cases hr : startsWith r.1 (c :: cs) = true
      · -- the replacement is passed over by the later pass
        have hall : ruleAt (r :: rules) (c :: cs) = some r := List.find?_cons_of_pos hr
        have hone : ruleAt [r] (c :: cs) = some r := List.find?_cons_of_pos hr
        rw [replaceEach_cons_some cs hall, replaceEach_cons_some cs hone,
          replaceEach_append_plain hrest.enclosed (h.plain r List.mem_cons_self).1, ih]
      · have hall : ruleAt (r :: rules) (c :: cs) = ruleAt rules (c :: cs) :=
          List.find?_cons_of_neg hr
        have hone : ruleAt [r] (c :: cs) = none := List.find?_cons_of_neg hr
        cases hrule : ruleAt rules (c :: cs) with
        | some r' =>
          -- the earlier pass leaves the text of the other rule where it stands
          obtain ⟨hmem, x, hx⟩ := ruleAt_some hrule
          have hw := hrest.enclosed r' hmem
          have hlater : ruleAt rules (r'.1 ++ replaceEach [r] x) = some r' := by
            rw [ruleAt_append_enclosed hrest.enclosed hw, ← ruleAt_append_enclosed hrest.enclosed hw x,
              hx, hrule]
          rw [replaceEach_cons_some cs (hall.trans hrule), ih, replaceEachFrom_eq [r],
            drop_of_append_eq hw.ne_nil hx, ← hx, replaceEach_append_enclosed hfirst hw
              (fun r'' hr'' => List.mem_singleton.mp hr'' ▸ (hne r' hmem).symm),
            replaceEach_append_rule hw.ne_nil hlater]
        | none =>
          -- the earlier pass completes the text of no other rule
          have hnone := ruleAt_cons_replaceEach h hone hrule
          rw [replaceEach_cons_none cs (hall.trans hrule), replaceEach_cons_none cs hone,
            replaceEach_cons_none _ hnone]
          exact congrArg _ (ih 0)

/-! ### The order of the rules -/

/-- **The order of the rules does not matter**, as long as they replace different texts. -/
theorem replaceEach_perm {rules' : List Rule} (hr : ∀ r ∈ rules, Enclosed o e r.1)
    (hdistinct : (rules.map (·.1)).Nodup) (hperm : rules.Perm rules') :
    replaceEach rules = replaceEach rules' := by
  have hunique : ∀ r ∈ rules, ∀ r' ∈ rules, ∀ s, r.1 <+: s → r'.1 <+: s → r = r' := by
    intro r hmem r' hmem' s ⟨x, hx⟩ hstarts
    refine List.inj_on_of_nodup_map hdistinct hmem hmem' ?_
    exact ((hr r' hmem').eq_of_prefix_append (hr r hmem) (hx ▸ hstarts)).symm
  have hrule : ∀ s, ruleAt rules s = ruleAt rules' s := by
    intro s
    cases h : ruleAt rules s with
    | none =>
      exact (List.find?_eq_none.mpr fun r hmem =>
        List.find?_eq_none.mp h r (hperm.mem_iff.mpr hmem)).symm
    | some r =>
      obtain ⟨hmem, hstarts⟩ := ruleAt_some h
      cases h' : ruleAt rules' s with
      | none => exact absurd hstarts (not_prefix_of_ruleAt h' (hperm.mem_iff.mp hmem))
      | some r' =>
        obtain ⟨hmem', hstarts'⟩ := ruleAt_some h'
        rw [hunique r hmem r' (hperm.mem_iff.mpr hmem') s hstarts hstarts']
  have hfrom : ∀ k s, replaceEachFrom rules k s = replaceEachFrom rules' k s := by
    intro k s
    induction s generalizing k with
    | nil => cases k <;> rfl
    | cons c cs ih =>
      cases k with
      | succ k => exact ih k
      | zero => simp only [replaceEachFrom, hrule, ih]
  exact funext (hfrom 0)

end SecretForge.Text
