import Mathlib.Data.List.Infix
import SecretForge.Text.Search

/-!
# What a replacement leaves behind

Leftmost, non-overlapping replacement against the plain notion of one text standing inside another.

* `startsWith_iff` and `stripStart?_eq_some_iff` — the search looks for prefixes.
* `Divides r w` — a text `w` can never stand across a copy of `r`: wherever it stands around one, it
  stands on one side of it.
* **`infix_of_infix_replaceAll`** — replacing by `r` makes no new occurrence of a text that `r`
  divides; **`not_infix_replaceAll`** — and it leaves none of the text replaced.
* **`replaceAll_eq_nil_iff`** — a replacement leaves nothing of copies of the text replaced, and only of
  them.
* **`replaceAll_append_cons`** — a text is replaced on either side of a character that it lacks.
-/

namespace SecretForge.Text

/-! ### Prefixes -/

theorem stripStart?_append (p s : List Char) : stripStart? p (p ++ s) = some s := by
  induction p with
  | nil => rfl
  | cons c p ih => rw [List.cons_append, stripStart?, if_pos rfl, ih]

theorem stripStart?_eq_some_iff {p s r : List Char} : stripStart? p s = some r ↔ s = p ++ r := by
  constructor
  · intro h
    induction p generalizing s with
    | nil => exact Option.some.inj h
    | cons c p ih =>
      cases s with
      | nil => exact absurd h nofun
      | cons d s =>
        rw [stripStart?] at h
        split at h
        · next hcd => rw [ih h, hcd, List.cons_append]
        · exact absurd h nofun
  · rintro rfl
    exact stripStart?_append p r

theorem startsWith_iff {p s : List Char} : startsWith p s = true ↔ p <+: s := by
  rw [startsWith, Option.isSome_iff_exists]
  constructor
  · rintro ⟨r, h⟩
    exact ⟨r, (stripStart?_eq_some_iff.mp h).symm⟩
  · rintro ⟨r, h⟩
    exact ⟨r, stripStart?_eq_some_iff.mpr h.symm⟩

/-- A start of a text that lacks a character ends before it. -/
theorem prefix_of_prefix_append_cons {p x y : List Char} {d : Char} (hd : d ∉ p)
    (h : p <+: x ++ d :: y) : p <+: x := by
  rcases List.prefix_or_prefix_of_prefix h (List.prefix_append x _) with hpx | hxp
  · exact hpx
  · -- it would go on with the character that it lacks
    obtain ⟨u, rfl⟩ := hxp
    cases u with
    | nil => rw [List.append_nil]
    | cons e u =>
      have he : e = d := (List.cons_prefix_cons.mp ((List.prefix_append_right_inj x).mp h)).1
      exact absurd (by rw [← he]; simp) hd

/-! ### Texts that a replacement divides -/

/-- Wherever `w` stands around a copy of `r`, it stands before it or after it. -/
def Divides (r w : List Char) : Prop := ∀ x y, w <:+: x ++ r ++ y → w <:+: x ∨ w <:+: y

/-- A text without the character `c` stands on one side of every `c`. -/
theorem infix_append_cons {w x y : List Char} {c : Char} (hc : c ∉ w) (h : w <:+: x ++ c :: y) :
    w <:+: x ∨ w <:+: y := by
  induction x with
  | nil =>
    rw [List.nil_append, List.infix_cons_iff] at h
    rcases h with h | h
    · exact .inl (prefix_of_prefix_append_cons (x := []) hc h).isInfix
    · exact .inr h
  | cons d x ih =>
    rw [List.cons_append, List.infix_cons_iff] at h
    rcases h with h | h
    · exact .inl (prefix_of_prefix_append_cons (x := d :: x) hc h).isInfix
    · exact (ih h).imp_left fun h => h.trans (List.suffix_cons d x).isInfix

/-- A start of the result that lacks the first character of the replacement is a start of the text. -/
theorem prefix_replaceFrom {p r u : List Char} {c : Char} (hc : c ∉ u) {s : List Char}
    (h : u <+: replaceFrom p (c :: r) 0 s) : u <+: s := by
  induction s generalizing u with
  | nil => exact h
  | cons d s ih =>
    cases u with
    | nil => exact List.nil_prefix
    | cons e u =>
      rw [replaceFrom] at h
      split at h
      · obtain ⟨rfl, -⟩ := List.cons_prefix_cons.mp h
        exact absurd List.mem_cons_self hc
      · obtain ⟨rfl, htail⟩ := List.cons_prefix_cons.mp h
        exact List.cons_prefix_cons.mpr
          ⟨rfl, ih (fun hu => hc (List.mem_cons_of_mem _ hu)) htail⟩

variable {p r w : List Char} {c : Char}

theorem infix_of_infix_replaceFrom (hc : c ∉ w) (hr : Divides (c :: r) w) {k : Nat}
    {s : List Char} (h : w <:+: replaceFrom p (c :: r) k s) : w <:+: s := by
  induction s generalizing k with
  | nil => cases k <;> exact h
  | cons d s ih =>
    cases k with
    | succ k => exact (ih h).trans (List.suffix_cons d s).isInfix
    | zero =>
      by_cases hp : startsWith p (d :: s) = true
      · rw [replaceFrom, if_pos hp] at h
        rcases hr [] _ h with h | h
        · exact h.trans (List.nil_infix)
        · exact (ih h).trans (List.suffix_cons d s).isInfix
      · have hwhole : replaceFrom p (c :: r) 0 (d :: s) = d :: replaceFrom p (c :: r) 0 s := by
          rw [replaceFrom, if_neg hp]
        rw [hwhole, List.infix_cons_iff] at h
        rcases h with h | h
        · exact (prefix_replaceFrom hc (hwhole ▸ h)).isInfix
        · exact (ih h).trans (List.suffix_cons d s).isInfix

theorem not_infix_replaceFrom (hne : p ≠ []) (hc : c ∉ p) (hr : Divides (c :: r) p) (k : Nat)
    (s : List Char) : ¬ p <:+: replaceFrom p (c :: r) k s := by
  induction s generalizing k with
  | nil =>
    intro h
    cases k <;> exact hne (List.infix_nil.mp h)
  | cons d s ih =>
    intro h
    cases k with
    | succ k => exact ih k h
    | zero =>
      by_cases hp : startsWith p (d :: s) = true
      · rw [replaceFrom, if_pos hp] at h
        rcases hr [] _ h with h | h
        · exact hne (List.infix_nil.mp h)
        · exact ih _ h
      · have hwhole : replaceFrom p (c :: r) 0 (d :: s) = d :: replaceFrom p (c :: r) 0 s := by
          rw [replaceFrom, if_neg hp]
        rw [hwhole, List.infix_cons_iff] at h
        rcases h with h | h
        · exact hp (startsWith_iff.mpr (prefix_replaceFrom hc (hwhole ▸ h)))
        · exact ih 0 h

/-! ### Replacement -/

theorem replaceFrom_of_not_infix {s : List Char} (h : ¬ p <:+: s) : replaceFrom p r 0 s = s := by
  induction s with
  | nil => rfl
  | cons d s ih =>
    have hp : ¬ startsWith p (d :: s) = true := fun hp => h (startsWith_iff.mp hp).isInfix
    rw [replaceFrom, if_neg hp, ih fun hs => h (hs.trans (List.suffix_cons d s).isInfix)]

/-- **A text without occurrences is left as it is.** -/
theorem replaceAll_of_not_infix {s : List Char} (h : ¬ p <:+: s) : replaceAll p r s = s := by
  rw [replaceAll]
  split
  · rfl
  · exact replaceFrom_of_not_infix h

/-- **No new occurrences.**  A text that the replacement divides stands in the result only where it
stood before. -/
theorem infix_of_infix_replaceAll (hc : c ∉ w) (hr : Divides (c :: r) w) {s : List Char}
    (h : w <:+: replaceAll p (c :: r) s) : w <:+: s := by
  rw [replaceAll] at h
  split at h
  · exact h
  · exact infix_of_infix_replaceFrom hc hr h

/-- **No occurrences left.**  The text replaced does not stand in the result. -/
theorem not_infix_replaceAll (hne : p ≠ []) (hc : c ∉ p) (hr : Divides (c :: r) p)
    (s : List Char) : ¬ p <:+: replaceAll p (c :: r) s := by
  rw [replaceAll, if_neg (by simpa using hne)]
  exact not_infix_replaceFrom hne hc hr 0 s

/-! ### When nothing is left -/

def copies (n : Nat) (p : List Char) : List Char := (List.replicate n p).flatten

@[simp] theorem copies_zero (p : List Char) : copies 0 p = [] := rfl

theorem copies_succ (n : Nat) (p : List Char) : copies (n + 1) p = p ++ copies n p := rfl

/-- Dropped characters do not count. -/
theorem replaceFrom_eq (p r : List Char) (k : Nat) (s : List Char) :
    replaceFrom p r k s = replaceFrom p r 0 (s.drop k) := by
  induction s generalizing k with
  | nil => cases k <;> rfl
  | cons c s ih =>
    cases k with
    | zero => rfl
    | succ k => exact ih k

/-- An occurrence at the start is replaced, and the rest for itself. -/
theorem replaceAll_append (hne : p ≠ []) (r s : List Char) :
    replaceAll p r (p ++ s) = r ++ replaceAll p r s := by
  cases p with
  | nil => exact absurd rfl hne
  | cons c p =>
    have hstarts : startsWith (c :: p) (c :: (p ++ s)) = true :=
      startsWith_iff.mpr ⟨s, List.cons_append⟩
    have hrest : (p ++ s).drop ((c :: p).length - 1) = s := List.drop_left
    simp only [replaceAll, List.isEmpty_cons, Bool.false_eq_true, if_false, List.cons_append]
    rw [replaceFrom, if_pos hstarts, replaceFrom_eq, hrest]

/-- A character where no occurrence starts stays. -/
theorem replaceAll_cons (hne : p ≠ []) {d : Char} {s : List Char} (h : ¬ p <+: d :: s)
    (r : List Char) : replaceAll p r (d :: s) = d :: replaceAll p r s := by
  have hp : ¬ p.isEmpty = true := by simpa using hne
  rw [replaceAll, replaceAll, if_neg hp, if_neg hp, replaceFrom,
    if_neg fun hstarts => h (startsWith_iff.mp hstarts)]

/-- Nothing is left of copies when each is replaced by nothing. -/
theorem replaceAll_copies (hne : p ≠ []) (n : Nat) : replaceAll p [] (copies n p) = [] := by
  induction n with
  | zero => simp [replaceAll, replaceFrom]
  | succ n ih => rw [copies_succ, replaceAll_append hne, ih, List.append_nil]

/-- **Nothing is left** exactly of nothing and, when the replacement is empty, of copies of the text
replaced. -/
theorem replaceAll_eq_nil_iff (hne : p ≠ []) {s : List Char} :
    replaceAll p r s = [] ↔ s = [] ∨ r = [] ∧ ∃ n, s = copies (n + 1) p := by
  constructor
  · intro h
    induction hlength : s.length using Nat.strongRecOn generalizing s with
    | _ length ih =>
      cases s with
      | nil => exact .inl rfl
      | cons d s =>
        by_cases hp : p <+: d :: s
        · -- the first occurrence is replaced by nothing, and the rest is shorter
          obtain ⟨rest, hrest⟩ := hp
          rw [← hrest, replaceAll_append hne, List.append_eq_nil_iff] at h
          have hshorter : rest.length < length := by
            rw [← hlength, ← hrest, List.length_append]
            exact Nat.lt_add_of_pos_left (List.length_pos_iff.mpr hne)
          refine .inr ⟨h.1, ?_⟩
          rcases ih rest.length hshorter h.2 rfl with hnil | ⟨-, n, hn⟩
          · exact ⟨0, by rw [← hrest, hnil, copies_succ, copies_zero]⟩
          · exact ⟨n + 1, by rw [← hrest, hn, ← copies_succ]⟩
        · rw [replaceAll_cons hne hp] at h
          exact absurd h (List.cons_ne_nil _ _)
  · rintro (rfl | ⟨rfl, n, rfl⟩)
    · exact replaceAll_of_not_infix fun h => hne (List.infix_nil.mp h)
    · exact replaceAll_copies hne (n + 1)

/-! ### Replacement between delimiters -/

/-- **A character that the text replaced lacks** divides the replacement: it is made on one side and on
the other. -/
theorem replaceAll_append_cons {d : Char} (hd : d ∉ p) (x y : List Char) :
    replaceAll p r (x ++ d :: y) = replaceAll p r x ++ d :: replaceAll p r y := by
  by_cases hne : p = []
  · rw [hne]
    rfl
  induction hlength : x.length using Nat.strongRecOn generalizing x with
  | _ length ih =>
    by_cases hp : p <+: x ++ d :: y
    · -- an occurrence at the start lies before the character
      obtain ⟨x, rfl⟩ := prefix_of_prefix_append_cons hd hp
      have hshorter : x.length < length := by
        rw [← hlength, List.length_append]
        exact Nat.lt_add_of_pos_left (List.length_pos_iff.mpr hne)
      rw [List.append_assoc, replaceAll_append hne, replaceAll_append hne, ih _ hshorter x rfl,
        List.append_assoc]
    · cases x with
      | nil =>
        have hnil : replaceAll p r [] = [] :=
          replaceAll_of_not_infix fun h => hne (List.infix_nil.mp h)
        rw [List.nil_append] at hp ⊢
        rw [replaceAll_cons hne hp, hnil, List.nil_append]
      | cons c x =>
        have hpx : ¬ p <+: c :: x := fun h => hp (h.trans (List.prefix_append _ _))
        have hshorter : x.length < length := by rw [← hlength, List.length_cons]; omega
        rw [List.cons_append] at hp ⊢
        rw [replaceAll_cons hne hp, replaceAll_cons hne hpx, ih _ hshorter x rfl, List.cons_append]

end SecretForge.Text
