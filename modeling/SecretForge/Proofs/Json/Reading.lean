import Mathlib.Data.List.TakeWhile
import SecretForge.Json.Read
import SecretForge.Json.Value
import SecretForge.Proofs.Except
import SecretForge.Proofs.Json.Form

/-!
# What reading yields

Whatever text is read, the value can be written again: a half pair that is followed by its other half
is joined with it, a whole number with too many digits is refused, and a key that comes a second time
replaces the first.

* `readUnit_ok` — what is known of a unit escape and of what follows it.
* **`parse_writable`** — every value that is read is writable throughout; `plain_of_writable` — and so it
  has a text.
-/

namespace SecretForge.Json

open SecretForge.Number SecretForge.Text

/-! ### Units -/

theorem hexDigit?_lt {c : Char} {d : Nat} (h : hexDigit? c = some d) : d < 16 := by
  rw [hexDigit?, Option.filter_eq_some_iff] at h
  exact of_decide_eq_true h.2

theorem hexValue_lt {cs : List Char} {n : Nat} (acc : Nat) (h : hexValue acc cs = some n) :
    n < (acc + 1) * Nat.pow 16 cs.length := by
  induction cs generalizing acc with
  | nil =>
    have hn : acc = n := Option.some.inj h
    rw [hn]
    exact Nat.lt_of_lt_of_eq (Nat.lt_succ_self n) (Nat.mul_one _).symm
  | cons c cs ih =>
    rw [hexValue, List.foldlM_cons] at h
    cases hd : hexDigit? c with
    | none => rw [hd] at h; cases h
    | some d =>
      rw [hd] at h
      have hlt := hexDigit?_lt hd
      have hn := ih (acc * 16 + d) h
      rw [List.length_cons, show Nat.pow 16 (cs.length + 1) = Nat.pow 16 cs.length * 16 from rfl,
        Nat.mul_comm (Nat.pow 16 _) 16, ← Nat.mul_assoc]
      exact Nat.lt_of_lt_of_le hn (Nat.mul_le_mul_right _ (by omega))

theorem unit?_lt {cs : List Char} {n : Nat} (h : unit? cs = some n) : n < 0x10000 := by
  rw [unit?] at h
  split at h
  · next hlen =>
    have hlt := hexValue_lt 0 h
    rwa [hlen] at hlt
  · cases h

/-- The text goes on with a unit escape of `n`, and still goes on after it. -/
def UnitNext (n : Nat) (cs : List Char) : Prop :=
  ∃ more, cs = '\\' :: 'u' :: more ∧ unit? (more.take 4) = some n ∧ 4 < more.length

/-- **A unit escape gives a code point.**  Only a unit escape gives half of a pair, and a first half is
not followed by the escape of a second one. -/
theorem readUnit_ok {p next : Place} {n : Nat} (h : readUnit p = .ok (n, next)) :
    n < 0x110000
      ∧ (isLow n = true → unit? ((p.rest.drop 1).take 4) = some n ∧ 4 < (p.rest.drop 1).length)
      ∧ (isHigh n = true → ∀ m, UnitNext m next.rest → isLow m = false) := by
  have hlen : ∀ c cs, p.rest.drop 5 = c :: cs → 4 < (p.rest.drop 1).length := by
    intro c cs hdrop
    have := congrArg List.length hdrop
    rw [List.length_drop, List.length_cons] at this
    rw [List.length_drop]
    omega
  unfold readUnit at h
  split at h
  · next hi more hhi hrest =>
    have hlt := unit?_lt hhi
    split at h
    · next hcond =>
      rw [Bool.and_eq_true, Bool.and_eq_true, decide_eq_true_iff, decide_eq_true_iff] at hcond
      split at h
      · cases h
      · next lo hlo =>
        split at h
        · next hlow =>
          -- the two halves make one code point beyond the halves
          have hn := (Prod.mk.inj (Except.ok.inj h)).1
          rw [Bool.and_eq_true, decide_eq_true_iff, decide_eq_true_iff] at hlow
          refine ⟨by omega, fun hl => ?_, fun hh => ?_⟩
          · rw [isLow, Bool.and_eq_true, decide_eq_true_iff, decide_eq_true_iff] at hl
            omega
          · rw [isHigh, Bool.and_eq_true, decide_eq_true_iff, decide_eq_true_iff] at hh
            omega
        · next hlow =>
          cases h
          refine ⟨by omega, fun _ => ⟨hhi, hlen _ _ hrest⟩, ?_⟩
          rintro - m ⟨more', heq, hm, -⟩
          cases hrest.symm.trans heq
          rw [hlo] at hm
          cases hm
          exact eq_false_of_ne_true hlow
    · next hcond =>
      cases h
      refine ⟨by omega, fun _ => ⟨hhi, hlen _ _ hrest⟩, ?_⟩
      rintro hhigh m ⟨more', heq, -, hlong⟩
      cases hrest.symm.trans heq
      rw [Bool.and_eq_true, decide_eq_true_iff] at hcond
      exact absurd ⟨hhigh, hlong⟩ hcond
  · next c cs hshape hn hrest =>
    cases h
    have hlt := unit?_lt hn
    refine ⟨by omega, fun _ => ⟨hn, hlen _ _ hrest⟩, ?_⟩
    rintro - m ⟨more, heq, -, -⟩
    cases hrest.symm.trans heq
    exact absurd rfl (hshape _ rfl)
  · cases h

/-! ### Texts -/

/-- What is known of a text read from a place: it can be spelled, and the second half of a pair stands
at its start only where its escape does. -/
def TextRead (p : Place) (s : CodePoints) : Prop :=
  Spellable s ∧ ∀ m ∈ s.head?, isLow m = true → UnitNext m p.rest

/-- A code point that is no half of a pair may stand before every text. -/
theorem textRead_cons {p next : Place} {n : Nat} {s : CodePoints} (hn : n < 0x110000)
    (hhigh : isHigh n = false) (hlow : isLow n = false) (hs : TextRead next s) :
    TextRead p (n :: s) := by
  refine ⟨⟨hn, fun h => ?_, hs.1⟩, fun m hm h => ?_⟩
  · rw [hhigh] at h
    cases h
  · cases hm
    rw [hlow] at h
    cases h

theorem escapeOf?_lt {c : Char} {n : Nat} (h : escapeOf? c = some n) : n < 0x80 := by
  unfold escapeOf? at h
  split at h <;> cases h <;> decide

theorem readText_spellable {start fuel : Nat} {p q : Place} {s : CodePoints}
    (h : readText start fuel p = .ok (s, q)) : TextRead p s := by
  induction fuel generalizing p s q with
  | zero => cases h
  | succ fuel ih =>
    rw [readText] at h
    split at h
    · cases h
    · cases h
      exact ⟨trivial, fun _ hm => nomatch hm⟩
    · cases h
    · next tail hrest =>
      obtain ⟨⟨n, next⟩, hunit, h⟩ := exists_of_bind_ok h
      obtain ⟨⟨more, last⟩, hmore, h⟩ := exists_of_bind_ok h
      cases h
      obtain ⟨hn, hlow, hhigh⟩ := readUnit_ok hunit
      have hs := ih hmore
      refine ⟨⟨hn, fun hh m hm => ?_, hs.1⟩, fun m hm hl => ?_⟩
      · -- a second half could only come from the escape that a first half takes along
        by_contra hl
        rw [Bool.not_eq_false] at hl
        rw [hhigh hh m (hs.2 m hm hl)] at hl
        cases hl
      · cases hm
        obtain ⟨hvalue, hlong⟩ := hlow hl
        rw [Place.skip, hrest, List.drop_succ_cons, List.drop_zero] at hvalue hlong
        exact ⟨tail, hrest, hvalue, hlong⟩
    · next c tail _ hrest =>
      split at h
      · cases h
      · next n hn =>
        obtain ⟨⟨more, last⟩, hmore, h⟩ := exists_of_map_ok h
        cases h
        have hlt := escapeOf?_lt hn
        refine textRead_cons (by omega) ?_ ?_ (ih hmore)
        all_goals
          simp only [isHigh, isLow, Bool.and_eq_false_iff, decide_eq_false_iff_not]
          omega
    · next c tail _ _ _ _ hrest =>
      split at h
      · cases h
      · obtain ⟨⟨more, last⟩, hmore, h⟩ := exists_of_map_ok h
        cases h
        have := toNat_valid c
        exact textRead_cons (by omega) (isHigh_toNat c) (isLow_toNat c) (ih hmore)

/-! ### Numbers and words -/

theorem isDigit_of_mem_digitsHere {cs : List Char} {c : Char} (h : c ∈ digitsHere cs) :
    c.isDigit = true :=
  List.mem_takeWhile_imp h

/-- A whole number has no more digits than the numeral it was read from. -/
theorem writable_int {whole fraction : List Char} {negative : Prop} [Decidable negative]
    (hne : whole.isEmpty = false) (hdigits : ∀ c ∈ whole, c.isDigit = true) (hlimit : whole.length ≤ digitLimit)
    (hfraction : fraction.isEmpty = true) :
    Writable (.int (if negative then
      -(ofDigits 10 ((whole ++ fraction).map fun d => d.toNat - 48) : Int)
      else ofDigits 10 ((whole ++ fraction).map fun d => d.toNat - 48))) := by
  rw [List.isEmpty_iff.mp hfraction, List.append_nil]
  have hle := length_decimalDigits_le (List.isEmpty_eq_false_iff.mp hne) hdigits
  have habs : ∀ n : Nat, (if negative then -(n : Int) else n).natAbs = n := fun n => by
    split <;> omega
  rw [Writable, habs]
  exact Nat.le_trans hle hlimit

theorem readNumber_writable {p q : Place} {v : Json} (h : readNumber p = .ok (v, q)) :
    Everywhere Writable v := by
  unfold readNumber at h
  simp only at h
  generalize (if p.rest.head? = some '-' then p.rest.drop 1 else p.rest) = body at h
  split at h
  case' h_1 tail =>
    have hdigits : ∀ c ∈ ['0'], c.isDigit = true := fun c hc => by
      rw [List.mem_singleton.mp hc]
      decide
    generalize ['0'] = whole at h hdigits
    generalize '0' :: tail = body at h
  case' h_2 =>
    have hdigits : ∀ c ∈ digitsHere body, c.isDigit = true := fun _ => isDigit_of_mem_digitsHere
    generalize digitsHere body = whole at h hdigits
  all_goals
    generalize fractionHere (body.drop whole.length) = fraction at h
    generalize exponentHere? (if fraction.isEmpty = true then body.drop whole.length
      else (body.drop whole.length).drop (fraction.length + 1)) = exponent at h
    by_cases hempty : whole.isEmpty = true
    · rw [if_pos hempty] at h
      cases h
    rw [if_neg hempty] at h
    by_cases hint : (fraction.isEmpty && exponent.isNone) = true
    · rw [if_pos hint] at h
      by_cases hlimit : digitLimit < whole.length
      · rw [if_pos hlimit] at h
        cases h
      · rw [if_neg hlimit] at h
        cases h
        rw [Bool.and_eq_true] at hint
        exact writable_int (eq_false_of_ne_true hempty) hdigits (Nat.le_of_not_lt hlimit) hint.1
    · rw [if_neg hint] at h
      cases h
      trivial

/-- A word stands for a value without parts. -/
theorem wordHere?_writable {cs : List Char} {v : Json} {n : Nat}
    (h : wordHere? cs = some (v, n)) : Everywhere Writable v := by
  rw [wordHere?, Option.map_eq_some_iff] at h
  obtain ⟨w, hw, heq⟩ := h
  cases heq
  have hmem := List.mem_of_find?_eq_some hw
  simp only [List.mem_cons, List.not_mem_nil, or_false] at hmem
  rcases hmem with rfl | rfl | rfl | rfl | rfl | rfl <;> trivial

/-! ### Values -/

theorem writable_nil : Everywhere Writable (.object []) :=
  ⟨⟨List.nodup_nil, fun _ hk => nomatch hk⟩, trivial⟩

theorem writable_put {k : CodePoints} {v : Json} {done : List (CodePoints × Json)}
    (hdone : Everywhere Writable (.object done)) (hk : Spellable k) (hv : Everywhere Writable v) :
    Everywhere Writable (.object (put k v done)) := by
  obtain ⟨⟨hnodup, hkeys⟩, hvalues⟩ := hdone
  rw [everywhereUnder_iff] at hvalues
  refine ⟨⟨nodup_put hnodup, fun key hkey => ?_⟩, everywhereUnder_iff.mpr fun e he => ?_⟩
  · rw [keys_put] at hkey
    split at hkey
    · exact hkeys key hkey
    · rcases List.mem_append.mp hkey with hmem | hmem
      · exact hkeys key hmem
      · exact List.mem_singleton.mp hmem ▸ hk
  · rcases mem_put he with hmem | rfl
    · exact hvalues e hmem
    · exact hv

section

variable {fuel : Nat}
  (hvalue : ∀ {p v q}, readValue fuel p = .ok (v, q) → Everywhere Writable v)
  (hitems : ∀ {p vs q}, readItems fuel p = .ok (vs, q) → EverywhereIn Writable vs)
  (hentries : ∀ {done p es q}, Everywhere Writable (.object done) →
    readEntries fuel done p = .ok (es, q) → Everywhere Writable (.object es))

include hitems hentries in
theorem readValue_writable {p q : Place} {v : Json} (h : readValue (fuel + 1) p = .ok (v, q)) :
    Everywhere Writable v := by
  rw [readValue] at h
  split at h
  · obtain ⟨⟨s, next⟩, hs, h⟩ := exists_of_map_ok h
    cases h
    exact (readText_spellable hs).1
  · simp only at h
    split at h
    · cases h
      exact ⟨trivial, trivial⟩
    · obtain ⟨⟨vs, next⟩, hvs, h⟩ := exists_of_map_ok h
      cases h
      exact ⟨trivial, hitems hvs⟩
  · simp only at h
    split at h
    · cases h
      exact writable_nil
    · obtain ⟨⟨es, next⟩, hes, h⟩ := exists_of_map_ok h
      cases h
      exact hentries writable_nil hes
  · split at h
    · next hw =>
      cases h
      exact wordHere?_writable hw
    · exact readNumber_writable h

include hvalue hitems in
theorem readItems_writable {p q : Place} {vs : List Json}
    (h : readItems (fuel + 1) p = .ok (vs, q)) : EverywhereIn Writable vs := by
  rw [readItems] at h
  obtain ⟨⟨v, q₁⟩, hv, h⟩ := exists_of_bind_ok h
  simp only at h
  split at h
  · cases h
    exact ⟨hvalue hv, trivial⟩
  · obtain ⟨⟨vs', last⟩, hvs, h⟩ := exists_of_bind_ok h
    cases h
    exact ⟨hvalue hv, hitems hvs⟩
  · cases h

include hvalue hentries in
theorem readEntries_writable {done es : List (CodePoints × Json)} {p q : Place}
    (hdone : Everywhere Writable (.object done))
    (h : readEntries (fuel + 1) done p = .ok (es, q)) : Everywhere Writable (.object es) := by
  rw [readEntries] at h
  split at h
  · cases h
  · obtain ⟨⟨k, q₁⟩, hk, h⟩ := exists_of_bind_ok h
    simp only at h
    split at h
    · cases h
    · obtain ⟨⟨v, q₂⟩, hv, h⟩ := exists_of_bind_ok h
      have hput := writable_put hdone (readText_spellable hk).1 (hvalue hv)
      simp only at h
      split at h
      · cases h
        exact hput
      · exact hentries hput h
      · cases h

end

theorem read_writable (fuel : Nat) :
    (∀ {p v q}, readValue fuel p = .ok (v, q) → Everywhere Writable v)
      ∧ (∀ {p vs q}, readItems fuel p = .ok (vs, q) → EverywhereIn Writable vs)
      ∧ ∀ {done p es q}, Everywhere Writable (.object done) →
        readEntries fuel done p = .ok (es, q) → Everywhere Writable (.object es) := by
  induction fuel with
  | zero => exact ⟨fun h => (nomatch h), fun h => (nomatch h), fun _ h => (nomatch h)⟩
  | succ fuel ih =>
    obtain ⟨hvalue, hitems, hentries⟩ := ih
    exact ⟨readValue_writable hitems hentries, readItems_writable hvalue hitems,
      readEntries_writable hvalue hentries⟩

/-- **Every value that is read is writable throughout.** -/
theorem parse_writable {text : String} {v : Json} (h : parse text = .ok v) :
    Everywhere Writable v := by
  rw [parse] at h
  simp only at h
  split at h
  · cases h
  · obtain ⟨⟨w, p⟩, hread, h⟩ := exists_of_bind_ok h
    simp only at h
    split at h
    · cases h
      exact (read_writable _).1 hread
    · cases h

/-! ### Values with a text -/

theorem quoted_int {i : Int} (h : Writable (.int i)) : ∃ text, (Scalar.int i).quoted = .ok text := by
  rw [Scalar.quoted, writeInteger, if_neg (Nat.not_lt.mpr h)]
  exact ⟨_, rfl⟩

mutual

/-- **A value that can be written as JSON has a quoted text**: only a whole number with too many digits
has none. -/
theorem quoted_of_writable : ∀ {v : Json}, Everywhere Writable v → ∃ text, v.quoted = .ok text
  | .null, _ | .bool _, _ | .float _, _ | .text _, _ => ⟨_, rfl⟩
  | .int _, h => quoted_int h
  | .list _, h => by
    obtain ⟨texts, htexts⟩ := quotedAll_of_writable h.2
    rw [quoted, htexts]
    exact ⟨_, rfl⟩
  | .object _, h => by
    obtain ⟨texts, htexts⟩ := quotedEntries_of_writable h.2
    rw [quoted, htexts]
    exact ⟨_, rfl⟩

theorem quotedAll_of_writable : ∀ {vs : List Json}, EverywhereIn Writable vs →
    ∃ texts, quotedAll vs = .ok texts
  | [], _ => ⟨[], rfl⟩
  | _ :: _, h => by
    obtain ⟨text, htext⟩ := quoted_of_writable h.1
    obtain ⟨texts, htexts⟩ := quotedAll_of_writable h.2
    rw [quotedAll, htext, htexts]
    exact ⟨_, rfl⟩

theorem quotedEntries_of_writable : ∀ {es : List (CodePoints × Json)}, EverywhereUnder Writable es →
    ∃ texts, quotedEntries es = .ok texts
  | [], _ => ⟨[], rfl⟩
  | (_, _) :: _, h => by
    obtain ⟨text, htext⟩ := quoted_of_writable h.1
    obtain ⟨texts, htexts⟩ := quotedEntries_of_writable h.2
    rw [quotedEntries, htext, htexts]
    exact ⟨_, rfl⟩

end

theorem plain_of_writable {v : Json} (h : Everywhere Writable v) :
    ∃ text, Layered.plain v = .ok text := by
  cases v with
  | null => exact ⟨_, rfl⟩
  | bool b => exact ⟨_, rfl⟩
  | int i => exact quoted_int h
  | float x => exact ⟨_, rfl⟩
  | text s => exact ⟨_, rfl⟩
  | list vs => exact quoted_of_writable h
  | object es => exact quoted_of_writable h

end SecretForge.Json
