import SecretForge.Number.DoubleText
import SecretForge.Proofs.Number.Shortest
import SecretForge.Proofs.Text.Digit

/-!
# The text of a double tells which double it is

A numeral is read as an optional sign, digits with or without a point, and an exponent.  Every way in
which digits and a power of ten are laid out is read back as the same number, so that two doubles with one
text have shortest digits that are one number, and hence are one double.

* `spanDigits_append` — the digits at the start of a text are found.
* `readUnsigned?_write` — a layout is read back as the number that is laid out.
* **`eq_of_render_eq`** — doubles with one text are one double, the doubles that are no number included.
-/

namespace SecretForge.Number

open SecretForge.Text

section

variable {ds ps rest cs : List Char} {c : Char}

/-! ### The digits at the start of a text -/

theorem digitOf?_of_isDigit (h : c.isDigit = true) : digitOf? 10 c = some (c.toNat - 48) := by
  have hc := Char.isDigit_iff_toNat.mp h
  have h9 : '9'.toNat = 57 := rfl
  have h0 : '0'.toNat = 48 := rfl
  have hrange : ('0' ≤ c && c ≤ '9') = true := by
    rw [Bool.and_eq_true, decide_eq_true_iff, decide_eq_true_iff]
    exact hc
  rw [digitOf?, asciiDigit?, if_pos hrange, Option.some_or, Option.filter_some, if_pos]
  rw [decide_eq_true_iff]
  omega

def digitValues (ds : List Char) : List Nat := ds.map fun d => d.toNat - 48

theorem spanDigits_append (hds : ∀ c ∈ ds, c.isDigit = true) (hrest : spanDigits rest = ([], rest)) :
    spanDigits (ds ++ rest) = (digitValues ds, rest) := by
  induction ds with
  | nil => exact hrest
  | cons d ds ih =>
    rw [List.forall_mem_cons] at hds
    rw [List.cons_append, spanDigits, digitOf?_of_isDigit hds.1, ih hds.2]
    rfl

theorem spanDigits_nil : spanDigits [] = ([], []) := rfl

theorem spanDigits_stop (h : digitOf? 10 c = none) : spanDigits (c :: cs) = ([], c :: cs) := by
  rw [spanDigits, h]

/-! ### Digits and zeros -/

theorem ofDigits_append (xs ys : List Nat) :
    ofDigits 10 (xs ++ ys) = ofDigits 10 xs * 10 ^ ys.length + ofDigits 10 ys := by
  induction ys using List.reverseRecOn with
  | nil => simp [ofDigits]
  | append_singleton ys y ih =>
    have hstep : ∀ zs : List Nat, ofDigits 10 (zs ++ [y]) = ofDigits 10 zs * 10 + y := fun zs => by
      rw [ofDigits, List.foldl_append]
      rfl
    rw [← List.append_assoc, hstep, hstep, ih, List.length_append, List.length_singleton, pow_succ]
    ring

theorem ofDigits_zeros (n : Nat) : ofDigits 10 (List.replicate n 0) = 0 := by
  induction n with
  | zero => rfl
  | succ n ih =>
    rw [List.replicate_succ', ofDigits_append, ih]
    rfl

theorem digitValues_append (ds es : List Char) :
    digitValues (ds ++ es) = digitValues ds ++ digitValues es := List.map_append

theorem digitValues_zeros (n : Nat) : digitValues (List.replicate n '0') = List.replicate n 0 := by
  rw [digitValues, List.map_replicate]
  rfl

theorem digitValues_ne_nil (h : ds ≠ []) : digitValues ds ≠ [] := fun heq => h (List.map_eq_nil_iff.mp heq)

theorem length_digitValues (ds : List Char) : (digitValues ds).length = ds.length := List.length_map _

/-! ### Padded numbers -/

theorem padded_toList (width n : Nat) :
    (padded width n).toList
      = List.replicate (width - (decimalDigits n).length) '0' ++ decimalDigits n := by
  rw [padded, String.toList_ofList]

theorem isDigit_of_mem_padded {width n : Nat} (h : c ∈ (padded width n).toList) : c.isDigit = true := by
  rw [padded_toList, List.mem_append] at h
  rcases h with h | h
  · rw [List.eq_of_mem_replicate h]
    rfl
  · exact isDigit_of_mem_decimalDigits h

theorem padded_ne_nil (width n : Nat) : (padded width n).toList ≠ [] := by
  rw [padded_toList]
  exact List.append_ne_nil_of_right_ne_nil _ (decimalDigits_ne_nil n)

theorem ofDigits_decimal (n : Nat) : ofDigits 10 (digitValues (decimalDigits n)) = n :=
  ofDigits_decimalDigits n

theorem ofDigits_padded (width n : Nat) : ofDigits 10 (digitValues (padded width n).toList) = n := by
  rw [padded_toList, digitValues_append, digitValues_zeros, ofDigits_append, ofDigits_zeros, ofDigits_decimal,
    Nat.zero_mul, Nat.zero_add]

/-! ### Numerals -/

theorem readUnsigned?_whole (hds : ∀ c ∈ ds, c.isDigit = true) (hne : ds ≠ [])
    (hrest : spanDigits rest = ([], rest)) (hdot : ∀ cs, rest ≠ '.' :: cs) :
    readUnsigned? (ds ++ rest)
      = (readExponent? rest).map fun e => (ofDigits 10 (digitValues ds), e) := by
  have hwhole : (digitValues ds).isEmpty = false := List.isEmpty_eq_false_iff.mpr (digitValues_ne_nil hne)
  simp only [readUnsigned?, spanDigits_append hds hrest, hwhole, Bool.false_and,
    Bool.false_eq_true, if_false, List.append_nil, List.length_nil]
  simp

theorem readUnsigned?_point (hds : ∀ c ∈ ds, c.isDigit = true) (hne : ds ≠ [])
    (hps : ∀ c ∈ ps, c.isDigit = true) (hrest : spanDigits rest = ([], rest)) :
    readUnsigned? (ds ++ '.' :: (ps ++ rest))
      = (readExponent? rest).map fun e : Int => (ofDigits 10 (digitValues (ds ++ ps)), e - ps.length) := by
  have hwhole : (digitValues ds).isEmpty = false := List.isEmpty_eq_false_iff.mpr (digitValues_ne_nil hne)
  have hdot : spanDigits ('.' :: (ps ++ rest)) = ([], '.' :: (ps ++ rest)) :=
    spanDigits_stop (by decide)
  simp only [readUnsigned?, spanDigits_append hds hdot, spanDigits_append hps hrest, hwhole, Bool.false_and,
    Bool.false_eq_true, if_false, digitValues_append, length_digitValues]

/-- The exponent that a layout writes. -/
theorem readExponent?_padded (x : Int) :
    readExponent? ('e' :: (if x < 0 then '-' else '+') :: (padded 2 x.natAbs).toList) = some x := by
  have hspan : spanDigits (padded 2 x.natAbs).toList = (digitValues (padded 2 x.natAbs).toList, []) := by
    rw [← List.append_nil (padded 2 x.natAbs).toList,
      spanDigits_append (fun c hc => isDigit_of_mem_padded (by simpa using hc)) spanDigits_nil,
      List.append_nil]
  obtain ⟨d, ds, hds⟩ : ∃ d ds, digitValues (padded 2 x.natAbs).toList = d :: ds :=
    List.exists_cons_of_ne_nil (digitValues_ne_nil (padded_ne_nil 2 x.natAbs))
  have hvalue := ofDigits_padded 2 x.natAbs
  rw [hds] at hspan hvalue
  rw [readExponent?, if_pos (by decide)]
  split_ifs with hneg
  · rw [takeSign]
    simp only [hspan, hvalue, if_true]
    exact congrArg some (by omega)
  · rw [takeSign]
    simp only [hspan, hvalue, Bool.false_eq_true, if_false]
    exact congrArg some (by omega)

/-! ### Layouts are read back -/

/-- Digits around a point, with nothing after them. -/
theorem readUnsigned?_digits (hds : ∀ c ∈ ds, c.isDigit = true) (hne : ds ≠ [])
    (hps : ∀ c ∈ ps, c.isDigit = true) :
    readUnsigned? (ds ++ '.' :: ps) = some (ofDigits 10 (digitValues (ds ++ ps)), -(ps.length : Int)) := by
  have h := readUnsigned?_point hds hne hps spanDigits_nil
  rw [List.append_nil] at h
  rw [h, readExponent?, Option.map_some, Int.zero_sub]

theorem isDigit_of_mem_zeros {n : Nat} (h : c ∈ List.replicate n '0') : c.isDigit = true := by
  rw [List.eq_of_mem_replicate h]
  rfl

/-- Zeros between the point and the digits. -/
theorem readUnsigned?_small (hds : ∀ c ∈ ds, c.isDigit = true) (n : Nat) :
    readUnsigned? ('0' :: '.' :: List.replicate n '0' ++ ds)
      = some (ofDigits 10 (digitValues ds), -((n + ds.length : Nat) : Int)) := by
  have hps : ∀ c ∈ List.replicate n '0' ++ ds, c.isDigit = true := fun c hc =>
    (List.mem_append.mp hc).elim isDigit_of_mem_zeros (hds c)
  have hzero : ofDigits 10 (digitValues (['0'] ++ List.replicate n '0')) = 0 := by
    rw [digitValues_append, digitValues_zeros, ofDigits_append, ofDigits_zeros]
    exact Nat.zero_mul _
  show readUnsigned? (['0'] ++ '.' :: (List.replicate n '0' ++ ds)) = _
  rw [readUnsigned?_digits (List.forall_mem_singleton.mpr rfl) (List.cons_ne_nil '0' []) hps,
    ← List.append_assoc, digitValues_append, ofDigits_append, hzero, Nat.zero_mul, Nat.zero_add,
    List.length_append, List.length_replicate]

/-- Zeros between the digits and the point. -/
theorem readUnsigned?_large (hds : ∀ c ∈ ds, c.isDigit = true) (hne : ds ≠ []) (n : Nat) :
    readUnsigned? (ds ++ List.replicate n '0' ++ ['.', '0'])
      = some (ofDigits 10 (digitValues ds) * 10 ^ n * 10, -1) := by
  have hwhole : ∀ c ∈ ds ++ List.replicate n '0', c.isDigit = true := fun c hc =>
    (List.mem_append.mp hc).elim (hds c) isDigit_of_mem_zeros
  rw [readUnsigned?_digits hwhole (List.append_ne_nil_of_left_ne_nil hne _)
    (List.forall_mem_singleton.mpr rfl), digitValues_append, digitValues_append, digitValues_zeros,
    ofDigits_append, ofDigits_append, ofDigits_zeros, List.length_replicate]
  rfl

/-- The point among the digits. -/
theorem readUnsigned?_between (hds : ∀ c ∈ ds, c.isDigit = true) {n : Nat} (hpos : 0 < n)
    (hne : ds ≠ []) :
    readUnsigned? (ds.take n ++ '.' :: ds.drop n)
      = some (ofDigits 10 (digitValues ds), -((ds.length - n : Nat) : Int)) := by
  have hwhole : ds.take n ≠ [] := by
    simp only [ne_eq, List.take_eq_nil_iff, hne, or_false]
    omega
  rw [readUnsigned?_digits (fun c hc => hds c (List.mem_of_mem_take hc)) hwhole
    fun c hc => hds c (List.mem_of_mem_drop hc), List.take_append_drop, List.length_drop]

/-- Digits and an exponent, with a point after the first digit if there are more. -/
theorem readUnsigned?_scientific (hds : ∀ d ∈ c :: ds, d.isDigit = true) (x : Int) :
    readUnsigned? ((match c :: ds with
        | [] => ['0']
        | [c] => [c]
        | c :: cs => c :: '.' :: cs)
      ++ 'e' :: (if x < 0 then '-' else '+') :: (padded 2 x.natAbs).toList)
      = some (ofDigits 10 (digitValues (c :: ds)), x - ds.length) := by
  have hstop : ∀ cs, spanDigits ('e' :: cs) = ([], 'e' :: cs) := fun cs => spanDigits_stop (by decide)
  cases ds with
  | nil =>
    rw [readUnsigned?_whole hds (List.cons_ne_nil c []) (hstop _) nofun, readExponent?_padded]
    simp
  | cons d ds =>
    rw [List.forall_mem_cons] at hds
    rw [show ∀ r, (c :: '.' :: d :: ds) ++ r = [c] ++ '.' :: (d :: ds ++ r) from fun _ => rfl,
      readUnsigned?_point (by simpa using hds.1) (List.cons_ne_nil c []) hds.2 (hstop _),
      readExponent?_padded]
    rfl

/-- **A layout is read back** as the number that is laid out. -/
theorem readUnsigned?_write (l : Double.Layout) (d : Nat) (k : Int) :
    ∃ n j, readUnsigned? (l.write d k).toList = some (n, j) ∧ (n * 10 ^ j : ℚ) = d * 10 ^ k := by
  have hds : ∀ c ∈ decimalDigits d, c.isDigit = true := fun c => isDigit_of_mem_decimalDigits
  have hd := ofDigits_decimal d
  have hne := decimalDigits_ne_nil d
  rw [Double.Layout.write, String.toList_ofList]
  dsimp only
  generalize decimalDigits d = ds at hds hd hne
  split
  · split
    · next hpoint =>
      refine ⟨d, k, ?_, rfl⟩
      rw [readUnsigned?_small hds, hd]
      congr 2
      omega
    · split
      · next hpoint hwhole =>
        obtain ⟨z, rfl⟩ : ∃ z : Nat, k = z := ⟨k.toNat, by omega⟩
        refine ⟨d * 10 ^ z * 10, -1, ?_, ?_⟩
        · rw [show ((z : Int) + ds.length).toNat - ds.length = z by omega,
            readUnsigned?_large hds hne, hd]
        · rw [zpow_natCast]
          push_cast
          ring
      · next hpoint hwhole =>
        refine ⟨d, k, ?_, rfl⟩
        rw [readUnsigned?_between hds (by omega) hne, hd]
        congr 2
        omega
  · refine ⟨d, k, ?_, rfl⟩
    obtain ⟨c, cs, rfl⟩ := List.exists_cons_of_ne_nil hne
    refine (readUnsigned?_scientific hds _).trans ?_
    rw [hd, List.length_cons]
    congr 2
    push_cast
    ring

end

/-! ### Doubles with one text -/

namespace Double

/-- The double has the form in which every double is kept. -/
def Proper : Double → Prop
  | .finite _ m e => InForm m e
  | _ => True

/-- The number that a text names, with its sign apart. -/
def numeral? (cs : List Char) : Option (Bool × ℚ) :=
  let (negative, cs) := takeSign cs
  (readUnsigned? cs).map fun (n, j) => (negative, (n : ℚ) * 10 ^ j)

/-- A sign is no part of an unsigned numeral. -/
theorem numeral?_sign {s : Bool} {cs : List Char} {n : Nat} {j : Int}
    (h : readUnsigned? cs = some (n, j)) :
    numeral? ((if s then ['-'] else []) ++ cs) = some (s, (n : ℚ) * 10 ^ j) := by
  have hsign : takeSign cs = (false, cs) := by
    rw [takeSign.eq_def]
    split
    · next cs' => exact nomatch (show readUnsigned? ('-' :: cs') = none from rfl).symm.trans h
    · next cs' => exact nomatch (show readUnsigned? ('+' :: cs') = none from rfl).symm.trans h
    · rfl
  cases s with
  | true =>
    rw [numeral?, if_pos rfl, List.singleton_append, takeSign]
    dsimp only
    rw [h]
    rfl
  | false =>
    rw [numeral?, if_neg Bool.false_ne_true, List.nil_append, hsign]
    dsimp only
    rw [h]
    rfl

/-- The text of a finite double names a number that rounds to it. -/
theorem numeral?_render {s : Bool} {m : Nat} {e : Int} (hf : InForm m e) (l : Layout) :
    ∃ x, numeral? (l.render (.finite s m e)).toList = some (s, x) ∧ RoundsTo m e x := by
  have hsign : (if s then "-" else "").toList = if s then ['-'] else [] := by cases s <;> rfl
  rw [Layout.render, String.toList_append, hsign]
  by_cases hm : m = 0
  · rw [if_pos hm]
    have hzero : readUnsigned? "0.0".toList = some (0, -1) := by decide
    refine ⟨_, numeral?_sign hzero, ?_⟩
    subst hm
    have := two_zpow_pos e
    have := gapBelow_pos 0 e
    constructor <;> left
    · push_cast
      nlinarith
    · push_cast
      linarith
  · rw [if_neg hm]
    obtain ⟨n, j, hread, hvalue⟩ := readUnsigned?_write l (shortest m e).1 (shortest m e).2
    refine ⟨_, numeral?_sign hread, ?_⟩
    rw [hvalue]
    exact roundsTo_shortest hf (Nat.pos_of_ne_zero hm)

/-- The names of the infinities and of what is no number name no number. -/
theorem numeral?_name (s : Bool) :
    numeral? (plainLayout.render (.infinite s)).toList = none
      ∧ numeral? (plainLayout.render .nan).toList = none := by
  revert s
  decide

/-- **Doubles with one text are one double.** -/
theorem eq_of_render_eq {x y : Double} (hx : x.Proper) (hy : y.Proper)
    (h : plainLayout.render x = plainLayout.render y) : x = y := by
  have hname : ∀ {s m e} {z : Double}, InForm m e → numeral? (plainLayout.render z).toList = none →
      plainLayout.render (.finite s m e) ≠ plainLayout.render z := fun {s m e z} hf hz heq => by
    obtain ⟨q, hq, -⟩ := numeral?_render (s := s) hf plainLayout
    rw [heq, hz] at hq
    cases hq
  have hsign : ∀ s t, plainLayout.render (.infinite s) = plainLayout.render (.infinite t) → s = t := by
    decide
  have hnan : ∀ s, plainLayout.render (.infinite s) ≠ plainLayout.render .nan := by decide
  cases x with
  | finite s m e =>
    cases y with
    | finite s' m' e' =>
      obtain ⟨q, hq, hround⟩ := numeral?_render (s := s) hx plainLayout
      obtain ⟨q', hq', hround'⟩ := numeral?_render (s := s') hy plainLayout
      rw [h, hq'] at hq
      cases hq
      obtain ⟨rfl, rfl⟩ := hround.unique hx hy hround'
      rfl
    | infinite t => exact absurd h (hname hx (numeral?_name t).1)
    | nan => exact absurd h (hname hx (numeral?_name true).2)
  | infinite s =>
    cases y with
    | finite s' m' e' => exact absurd h.symm (hname hy (numeral?_name s).1)
    | infinite t => rw [hsign s t h]
    | nan => exact absurd h (hnan s)
  | nan =>
    cases y with
    | finite s' m' e' => exact absurd h.symm (hname hy (numeral?_name true).2)
    | infinite t => exact absurd h.symm (hnan t)
    | nan => rfl

end Double

end SecretForge.Number
