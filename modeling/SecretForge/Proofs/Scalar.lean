import SecretForge.Proofs.Number.Numeral
import SecretForge.Scalar

/-!
# Scalars with one text

The plain text of a scalar does not say of what kind it is, for a text may be spelt like anything.  Among
the other kinds it does: a number, a truth value, a date and a missing value never have one text, and two
scalars of one of these kinds have one text only if they are the same.  So two keys that are told apart
have one text in two ways only: a text spells the other one, or neither is a number.

* `Spelling`, `spellingOf_plain` — the kind of a scalar that is no text can be told from its text.
* `eq_of_plain` — of one kind, scalars with one text are the same.
* `Clash` — two keys that are told apart and have one text; **`clash_iff`** says so.
-/

namespace SecretForge

open SecretForge.Calendar SecretForge.Number SecretForge.Text

/-! ### Dates and times -/

namespace Calendar

theorem toList_render (d : Date) :
    d.render.toList = (padded 4 d.year).toList
      ++ '-' :: ((padded 2 d.month).toList ++ '-' :: (padded 2 d.day).toList) := by
  simp [Date.render, toString]

/-- The text of an offset, after the seconds. -/
theorem toList_offsetText (minutes : Int) :
    (offsetText minutes).toList = (if minutes < 0 then '-' else '+')
      :: ((padded 2 (minutes.natAbs / 60)).toList ++ ':' :: (padded 2 (minutes.natAbs % 60)).toList) := by
  rw [offsetText]
  split <;> simp [toString]

def fraction (microsecond : Nat) : List Char :=
  if microsecond = 0 then [] else '.' :: (padded 6 microsecond).toList

def zone : Option Int → List Char
  | none => []
  | some o => (offsetText o).toList

theorem toList_render_timestamp (t : Timestamp) :
    t.render.toList = t.date.render.toList ++ ' ' :: ((padded 2 t.hour).toList
      ++ ':' :: ((padded 2 t.minute).toList
      ++ ':' :: ((padded 2 t.second).toList ++ (fraction t.microsecond ++ zone t.offset)))) := by
  rw [Timestamp.render, fraction]
  cases t.offset <;> by_cases hzero : t.microsecond = 0 <;> simp [hzero, toString, zone]

/-- Numbers at the start of two equal texts are the same, and so is what follows them. -/
theorem eq_of_padded_append {width n n' : Nat} {r r' : List Char} (hr : spanDigits r = ([], r))
    (hr' : spanDigits r' = ([], r')) (h : (padded width n).toList ++ r = (padded width n').toList ++ r') :
    n = n' ∧ r = r' := by
  have hdigits (n : Nat) : ∀ c ∈ (padded width n).toList, c.isDigit = true := fun c => isDigit_of_mem_padded
  have hspan := spanDigits_append (hdigits n) hr
  rw [h, spanDigits_append (hdigits n') hr'] at hspan
  obtain ⟨hvalues, rfl⟩ := Prod.mk.inj hspan
  have hn := ofDigits_padded width n
  rw [← hvalues, ofDigits_padded] at hn
  exact ⟨hn.symm, rfl⟩

theorem spanDigits_dash (cs : List Char) : spanDigits ('-' :: cs) = ([], '-' :: cs) :=
  spanDigits_stop (by decide)

theorem spanDigits_colon (cs : List Char) : spanDigits (':' :: cs) = ([], ':' :: cs) :=
  spanDigits_stop (by decide)

theorem spanDigits_space (cs : List Char) : spanDigits (' ' :: cs) = ([], ' ' :: cs) :=
  spanDigits_stop (by decide)

/-- A date is at the start of a text that it starts. -/
theorem eq_of_render_append {d d' : Date} {r r' : List Char} (hr : spanDigits r = ([], r))
    (hr' : spanDigits r' = ([], r')) (h : d.render.toList ++ r = d'.render.toList ++ r') :
    d = d' ∧ r = r' := by
  simp only [toList_render, List.append_assoc, List.cons_append] at h
  obtain ⟨hyear, h⟩ := eq_of_padded_append (spanDigits_dash _) (spanDigits_dash _) h
  obtain ⟨hmonth, h⟩ := eq_of_padded_append (spanDigits_dash _) (spanDigits_dash _) (List.cons.inj h).2
  obtain ⟨hday, h⟩ := eq_of_padded_append hr hr' (List.cons.inj h).2
  cases d
  cases d'
  simp_all

theorem spanDigits_zone (offset : Option Int) : spanDigits (zone offset) = ([], zone offset) := by
  cases offset with
  | none => rfl
  | some o =>
    rw [zone, toList_offsetText]
    exact spanDigits_stop (by split <;> decide)

theorem spanDigits_fraction (microsecond : Nat) (offset : Option Int) :
    spanDigits (fraction microsecond ++ zone offset) = ([], fraction microsecond ++ zone offset) := by
  rw [fraction]
  split
  · exact spanDigits_zone offset
  · exact spanDigits_stop (by decide)

/-- An offset is told by its text. -/
theorem eq_of_zone_eq {offset offset' : Option Int} (h : zone offset = zone offset') : offset = offset' := by
  rcases offset with _ | o <;> rcases offset' with _ | o'
  · rfl
  · rw [zone, zone, toList_offsetText] at h
    cases h
  · rw [zone, zone, toList_offsetText] at h
    cases h
  · simp only [zone, toList_offsetText, List.cons.injEq] at h
    obtain ⟨hsign, h⟩ := h
    obtain ⟨hhours, h⟩ := eq_of_padded_append (spanDigits_colon _) (spanDigits_colon _) h
    have hlast : (padded 2 (o.natAbs % 60)).toList ++ [] = (padded 2 (o'.natAbs % 60)).toList ++ [] := by
      simpa using (List.cons.inj h).2
    obtain ⟨hminutes, -⟩ := eq_of_padded_append spanDigits_nil spanDigits_nil hlast
    have hiff : o < 0 ↔ o' < 0 := by
      constructor <;> intro hneg <;> by_contra hpos <;> simp [hneg, hpos] at hsign
    exact congrArg some (by omega)

/-- No offset starts like a fraction. -/
theorem zone_ne_point (offset : Option Int) (cs : List Char) : zone offset ≠ '.' :: cs := by
  cases offset with
  | none => nofun
  | some o =>
    rw [zone, toList_offsetText]
    split <;> simp

/-- A fraction of a second and an offset are told by their text. -/
theorem eq_of_fraction_append {m m' : Nat} {offset offset' : Option Int}
    (h : fraction m ++ zone offset = fraction m' ++ zone offset') : m = m' ∧ offset = offset' := by
  rw [fraction, fraction] at h
  split_ifs at h with hm hm'
  · exact ⟨hm.trans hm'.symm, eq_of_zone_eq h⟩
  · exact absurd h (zone_ne_point offset _)
  · exact absurd h.symm (zone_ne_point offset' _)
  · obtain ⟨hm, h⟩ := eq_of_padded_append (spanDigits_zone offset) (spanDigits_zone offset')
      (List.cons.inj h).2
    exact ⟨hm, eq_of_zone_eq h⟩

/-- **Timestamps with one text are one timestamp.** -/
theorem eq_of_render_timestamp {t t' : Timestamp} (h : t.render = t'.render) : t = t' := by
  have h := congrArg String.toList h
  simp only [toList_render_timestamp] at h
  obtain ⟨hdate, h⟩ := eq_of_render_append (spanDigits_space _) (spanDigits_space _) h
  obtain ⟨hhour, h⟩ := eq_of_padded_append (spanDigits_colon _) (spanDigits_colon _) (List.cons.inj h).2
  obtain ⟨hminute, h⟩ := eq_of_padded_append (spanDigits_colon _) (spanDigits_colon _) (List.cons.inj h).2
  obtain ⟨hsecond, h⟩ := eq_of_padded_append (spanDigits_fraction _ _) (spanDigits_fraction _ _)
    (List.cons.inj h).2
  obtain ⟨hmicrosecond, hoffset⟩ := eq_of_fraction_append h
  cases t
  cases t'
  simp_all

end Calendar

/-! ### Numbers -/

namespace Number

theorem toList_of_writeInteger {i : Int} {s : String} (h : writeInteger i = .ok s) :
    s.toList = (if i < 0 then ['-'] else []) ++ decimalDigits i.natAbs := by
  rw [writeInteger] at h
  split at h
  · cases h
  · cases h
    rw [String.toList_ofList]
    split <;> rfl

/-- **Whole numbers with one text are one number.** -/
theorem eq_of_writeInteger {i j : Int} {s : String} (h : writeInteger i = .ok s)
    (h' : writeInteger j = .ok s) : i = j := by
  have h := (toList_of_writeInteger h).symm.trans (toList_of_writeInteger h')
  have hdigit : ∀ n cs, decimalDigits n ≠ '-' :: cs := fun n cs heq => by
    have := isDigit_of_mem_decimalDigits (n := n) (c := '-') (by rw [heq]; exact List.mem_cons_self)
    cases this
  have habs : i.natAbs = j.natAbs ∧ (i < 0 ↔ j < 0) := by
    have hinj : ∀ {m n : Nat}, decimalDigits m = decimalDigits n → m = n := fun {m n} heq => by
      rw [← ofDigits_decimal m, heq, ofDigits_decimal]
    split_ifs at h with hi hj hj
    · exact ⟨hinj (List.cons.inj h).2, by simp [hi, hj]⟩
    · exact absurd h.symm (hdigit _ _)
    · exact absurd h (hdigit _ _)
    · exact ⟨hinj h, by simp [hi, hj]⟩
  omega

/-- A character of a number. -/
def Numeric (c : Char) : Prop := c.isDigit = true ∨ c ∈ ['.', 'e', '+', '-']

/-- A layout is written in the characters of numbers. -/
theorem numeric_write (l : Double.Layout) (d : Nat) (k : Int) : ∀ c ∈ (l.write d k).toList, Numeric c := by
  have hds : ∀ c ∈ decimalDigits d, Numeric c := fun c hc => .inl (isDigit_of_mem_decimalDigits hc)
  have hzeros (n : Nat) : ∀ c ∈ List.replicate n '0', Numeric c := fun c hc => by
    rw [List.eq_of_mem_replicate hc]
    exact .inl rfl
  have hsign (x : Int) : Numeric (if x < 0 then '-' else '+') := .inr (by split <;> simp)
  have hpadded (n : Nat) : ∀ c ∈ (padded 2 n).toList, Numeric c := fun c hc =>
    .inl (isDigit_of_mem_padded hc)
  have hpoint : Numeric '.' := .inr (by simp)
  have he : Numeric 'e' := .inr (by simp)
  have hzero : Numeric '0' := .inl rfl
  rw [Double.Layout.write, String.toList_ofList]
  dsimp only
  generalize decimalDigits d = ds at hds
  split
  · split
    · simp only [List.cons_append, List.forall_mem_cons, List.forall_mem_append]
      exact ⟨hzero, hpoint, hzeros _, hds⟩
    · split
      · simp only [List.forall_mem_cons, List.forall_mem_append]
        exact ⟨⟨hds, hzeros _⟩, hpoint, hzero, List.forall_mem_nil _⟩
      · simp only [List.forall_mem_cons, List.forall_mem_append]
        exact ⟨fun c hc => hds c (List.mem_of_mem_take hc), hpoint, fun c hc => hds c (List.mem_of_mem_drop hc)⟩
  · simp only [List.forall_mem_cons, List.forall_mem_append]
    refine ⟨?_, he, hsign _, hpadded _⟩
    split
    · simpa using hzero
    · exact hds
    · simp only [List.forall_mem_cons] at hds ⊢
      exact ⟨hds.1, hpoint, hds.2⟩

/-- A layout has a point or an exponent. -/
theorem mark_mem_write (l : Double.Layout) (d : Nat) (k : Int) :
    '.' ∈ (l.write d k).toList ∨ 'e' ∈ (l.write d k).toList := by
  rw [Double.Layout.write, String.toList_ofList]
  dsimp only
  split
  · left
    split
    · simp
    · split <;> simp
  · right
    simp

end Number

/-! ### The kind of a scalar from its text -/

/-- How a scalar that is no text is spelt. -/
inductive Spelling where
  | constant
  | int
  | float
  | date
  | timestamp
  deriving DecidableEq

/-- The capitals of constants. -/
def isCapital (c : Char) : Bool := c == 'N' || c == 'T' || c == 'F'

/-- What only doubles have: a point, an exponent, or the names of the infinities and of what is no
number. -/
def isDoubleMark (c : Char) : Bool := c == '.' || c == 'e' || c == 'n'

/-- How the scalars with a text are spelt.  A space stands only between a date and a time, a capital only
in a constant, a mark of doubles in nothing else that is left, and a dash behind the first character only
in a date. -/
def spellingOf (cs : List Char) : Spelling :=
  if cs.contains ' ' then .timestamp
  else if cs.any isCapital then .constant
  else if cs.any isDoubleMark then .float
  else if cs.tail.contains '-' then .date
  else .int

/-- No character of a whole number or a date is of another kind. -/
theorem unmarked_of_digit {c : Char} (h : c.isDigit = true ∨ c = '-') :
    c ≠ ' ' ∧ isCapital c = false ∧ isDoubleMark c = false := by
  rcases h with h | rfl
  · have hne (m : Char) (hm : m.isDigit = false) : (c == m) = false := by
      rw [beq_eq_false_iff_ne]
      rintro rfl
      exact absurd (h.symm.trans hm) nofun
    refine ⟨ne_of_beq_false (hne ' ' rfl), ?_, ?_⟩
    · rw [isCapital, hne 'N' rfl, hne 'T' rfl, hne 'F' rfl]
      rfl
    · rw [isDoubleMark, hne '.' rfl, hne 'e' rfl, hne 'n' rfl]
      rfl
  · exact ⟨by simp, rfl, rfl⟩

theorem spellingOf_digits {cs : List Char} (h : ∀ c ∈ cs, c.isDigit = true ∨ c = '-') :
    spellingOf cs = if '-' ∈ cs.tail then .date else .int := by
  have hspace : ' ' ∉ cs := fun hmem => (unmarked_of_digit (h _ hmem)).1 rfl
  have hcapital : cs.any isCapital = false :=
    List.any_eq_false.mpr fun c hc => by simp [(unmarked_of_digit (h c hc)).2.1]
  have hmark : cs.any isDoubleMark = false :=
    List.any_eq_false.mpr fun c hc => by simp [(unmarked_of_digit (h c hc)).2.2]
  simp [spellingOf, hspace, hcapital, hmark]

theorem spellingOf_numeric {cs : List Char} (h : ∀ c ∈ cs, Numeric c) (hmark : '.' ∈ cs ∨ 'e' ∈ cs) :
    spellingOf cs = .float := by
  have hspace : ' ' ∉ cs := fun hmem => by
    rcases h _ hmem with hdigit | hsign
    · cases hdigit
    · simp at hsign
  have hcapital : cs.any isCapital = false := List.any_eq_false.mpr fun c hc => by
    rcases h c hc with hdigit | hsign
    · simp [(unmarked_of_digit (.inl hdigit)).2.1]
    · simp only [List.mem_cons, List.not_mem_nil, or_false] at hsign
      rcases hsign with rfl | rfl | rfl | rfl <;> decide
  have hdouble : cs.any isDoubleMark = true := by
    rcases hmark with hmark | hmark
    · exact List.any_eq_true.mpr ⟨_, hmark, rfl⟩
    · exact List.any_eq_true.mpr ⟨_, hmark, rfl⟩
  simp [spellingOf, hspace, hcapital, hdouble]

/-! ### One kind after the other -/

theorem spellingOf_writeInteger {i : Int} {s : String} (h : writeInteger i = .ok s) :
    spellingOf s.toList = .int := by
  have hdash : '-' ∉ decimalDigits i.natAbs := fun hmem => nomatch isDigit_of_mem_decimalDigits hmem
  rw [toList_of_writeInteger h, spellingOf_digits, if_neg]
  · split
    · exact hdash
    · exact fun hmem => hdash (List.mem_of_mem_tail hmem)
  · intro c hc
    rcases List.mem_append.mp hc with hc | hc
    · split at hc
      · exact .inr (List.mem_singleton.mp hc)
      · cases hc
    · exact .inl (isDigit_of_mem_decimalDigits hc)

theorem spellingOf_double (x : Double) : spellingOf (Double.plainLayout.render x).toList = .float := by
  cases x with
  | infinite s => cases s <;> decide
  | nan => decide
  | finite s m e =>
    have hsign : ∀ c ∈ (if s then "-" else "").toList, Numeric c := by
      intro c hc
      split at hc
      · exact .inr (by simp_all)
      · simp at hc
    rw [Double.Layout.render, String.toList_append]
    by_cases hm : m = 0
    · rw [if_pos hm]
      refine spellingOf_numeric (List.forall_mem_append.mpr ⟨hsign, ?_⟩) (.inl (by simp))
      simp [Numeric]
    · rw [if_neg hm]
      refine spellingOf_numeric (List.forall_mem_append.mpr ⟨hsign, numeric_write _ _ _⟩) ?_
      exact (mark_mem_write _ _ _).imp (List.mem_append_right _) (List.mem_append_right _)

theorem spellingOf_date (d : Date) : spellingOf d.render.toList = .date := by
  have hpadded (w n : Nat) : ∀ c ∈ (padded w n).toList, c.isDigit = true ∨ c = '-' := fun c hc =>
    .inl (isDigit_of_mem_padded hc)
  rw [toList_render, spellingOf_digits, if_pos]
  · obtain ⟨c, cs, hyear⟩ := List.exists_cons_of_ne_nil (padded_ne_nil 4 d.year)
    rw [hyear]
    simp
  · simp only [List.forall_mem_append, List.forall_mem_cons]
    exact ⟨hpadded _ _, .inr trivial, hpadded _ _, .inr trivial, hpadded _ _⟩

theorem spellingOf_timestamp (t : Timestamp) : spellingOf t.render.toList = .timestamp := by
  rw [toList_render_timestamp, spellingOf, if_pos (by simp)]

namespace Scalar

/-- A scalar that, if it is a double, is one in form. -/
def Proper : Scalar → Prop
  | .float x => x.Proper
  | _ => True

/-- A text, a number, a truth value, a date or null. -/
structure IsKey (a : Scalar) : Prop where
  proper : a.Proper
  noBytes : ∀ bs, a ≠ .bytes bs

/-- How a scalar that is no text is spelt. -/
def spelling? : Scalar → Option Spelling
  | .null => some .constant
  | .bool _ => some .constant
  | .int _ => some .int
  | .float _ => some .float
  | .date _ => some .date
  | .timestamp _ => some .timestamp
  | .text _ => none
  | .bytes _ => none

/-- **The kind of a scalar** can be told from its text. -/
theorem spellingOf_plain {a : Scalar} {s : String} {f : Spelling} (hf : a.spelling? = some f)
    (h : a.plain = .ok s) : spellingOf s.toList = f := by
  cases a <;> cases hf
  case null.refl => cases h; decide
  case bool.refl b => cases b <;> cases h <;> decide
  case int.refl i => exact spellingOf_writeInteger h
  case float.refl x =>
    obtain rfl := Except.ok.inj h
    exact spellingOf_double x
  case date.refl d =>
    obtain rfl := Except.ok.inj h
    exact spellingOf_date d
  case timestamp.refl t =>
    obtain rfl := Except.ok.inj h
    exact spellingOf_timestamp t

theorem exists_spelling {a : Scalar} (ha : a.IsKey) (htext : ∀ t, a ≠ .text t) : ∃ f, a.spelling? = some f := by
  cases a with
  | text t => exact absurd rfl (htext t)
  | bytes bs => exact absurd rfl (ha.noBytes bs)
  | _ => exact ⟨_, rfl⟩

/-- **Keys with one text are one key**, if neither is a text. -/
theorem eq_of_plain {a b : Scalar} {s : String} (ha : a.IsKey) (hb : b.IsKey)
    (ha' : ∀ t, a ≠ .text t) (hb' : ∀ t, b ≠ .text t) (h : a.plain = .ok s) (h' : b.plain = .ok s) :
    a = b := by
  obtain ⟨f, hf⟩ := exists_spelling ha ha'
  obtain ⟨f', hf'⟩ := exists_spelling hb hb'
  obtain rfl := (spellingOf_plain hf h).symm.trans (spellingOf_plain hf' h')
  have hok := h.trans h'.symm
  cases a <;> cases hf <;> cases b <;> cases hf'
  case null.refl.null.refl => rfl
  case null.refl.bool.refl x => exact absurd (Except.ok.inj hok) (by cases x <;> decide)
  case bool.refl.null.refl x => exact absurd (Except.ok.inj hok) (by cases x <;> decide)
  case bool.refl.bool.refl x y =>
    have hinj : ∀ x y : Bool, (if x then "True" else "False") = (if y then "True" else "False") → x = y := by
      decide
    rw [hinj x y (Except.ok.inj hok)]
  case int.refl.int.refl i j => rw [eq_of_writeInteger h h']
  case float.refl.float.refl x y => rw [Double.eq_of_render_eq ha.proper hb.proper (Except.ok.inj hok)]
  case date.refl.date.refl d e =>
    have hrender : d.render.toList ++ [] = e.render.toList ++ [] :=
      congrArg (fun s : String => s.toList ++ []) (Except.ok.inj hok)
    obtain ⟨rfl, -⟩ := eq_of_render_append spanDigits_nil spanDigits_nil hrender
    rfl
  case timestamp.refl.timestamp.refl t u => rw [eq_of_render_timestamp (Except.ok.inj hok)]

/-! ### Keys that are told apart -/

theorem sameKey_self {a : Scalar} (ha : a ≠ .float .nan) : a.sameKey a = true := by
  cases a with
  | float x =>
    cases x with
    | nan => exact absurd rfl ha
    | _ => simp [sameKey, Double.same]
  | timestamp t => simp [sameKey, Timestamp.same]
  | _ => simp [sameKey, asInt?]

/-- Two keys that are told apart although they have one text: one of them is a text that spells the other,
which is no text, or neither is a number. -/
inductive Clash : Scalar → Scalar → Prop
  | spelt {k : Scalar} {s : String} (hk : ∀ t, k ≠ .text t) (h : k.plain = .ok s) : Clash k (.text s)
  | spelling {k : Scalar} {s : String} (hk : ∀ t, k ≠ .text t) (h : k.plain = .ok s) : Clash (.text s) k
  | noNumber : Clash (.float .nan) (.float .nan)

theorem Clash.plain_eq {a b : Scalar} (h : Clash a b) : a.plain = b.plain := by
  cases h with
  | spelt _ h => exact h
  | spelling _ h => exact h.symm
  | noNumber => rfl

/-- **Two keys that are told apart** have one text only if they clash. -/
theorem clash_iff {a b : Scalar} {s s' : String} (ha : a.IsKey) (hb : b.IsKey) (hne : a.sameKey b = false)
    (h : a.plain = .ok s) (h' : b.plain = .ok s') : a.Clash b ↔ s = s' := by
  constructor
  · intro hclash
    exact Except.ok.inj (h.symm.trans (hclash.plain_eq.trans h'))
  · rintro rfl
    by_cases ha' : ∃ t, a = .text t <;> by_cases hb' : ∃ t, b = .text t
    · obtain ⟨t, rfl⟩ := ha'
      obtain ⟨u, rfl⟩ := hb'
      cases h
      cases h'
      rw [sameKey_self (by simp)] at hne
      cases hne
    · obtain ⟨t, rfl⟩ := ha'
      cases h
      exact .spelling (fun u hu => hb' ⟨u, hu⟩) h'
    · obtain ⟨u, rfl⟩ := hb'
      cases h'
      exact .spelt (fun t ht => ha' ⟨t, ht⟩) h
    · obtain rfl := eq_of_plain ha hb (fun t ht => ha' ⟨t, ht⟩) (fun t ht => hb' ⟨t, ht⟩) h h'
      by_cases hnan : a = .float .nan
      · rw [hnan]
        exact .noNumber
      · rw [sameKey_self hnan] at hne
        cases hne

end Scalar

end SecretForge
