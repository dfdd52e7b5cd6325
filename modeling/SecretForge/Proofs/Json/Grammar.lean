import SecretForge.Proofs.Json.Reading
import SecretForge.Proofs.Text.Search

/-!
# The grammar of JSON, and that nothing else is read

What a JSON text is, said without reading it: a value stands in front of what is left of the text, and
so do blanks, the units of a text, and the members of a list or an object.  Two things are the reader's
own choice and belong to its grammar: the names of infinity and of no number are numbers, and a whole
number has at most as many digits as can be converted.

Whatever is read is shown to be what the grammar says, part by part.  The grammar does not say that a
text is one value only, or where a part of it ends; that follows once all documents are known to be
read.

* `Units`, `joinHalves` — the units of a text, and the halves of a pair joined.
* `Numeral` — a number with its parts; `Numeral.value` is what it stands for.
* `Written`, `WrittenItems`, `WrittenEntries` — values, members and entries; `Document` — a whole text.
* `readText_units`, `readNumber_numeral`, `read_written` — what is read is written, part by part.
* **`document_of_parse`** — a text that is read is a document.
-/

namespace SecretForge.Json

open SecretForge.Number SecretForge.Text

/-! ### Blanks -/

/-- A character that may stand between the parts of a document. -/
def isGap (c : Char) : Bool := c = ' ' || c = '\t' || c = '\n' || c = '\r'

/-- Some blanks, or none, in front of what is left. -/
inductive Blanks : List Char → List Char → Prop
  | none {rest : List Char} : Blanks rest rest
  | more {c : Char} {cs rest : List Char} : isGap c = true → Blanks cs rest → Blanks (c :: cs) rest

/-! ### Texts -/

/-- The units of a text, up to the quote that closes it: a character stands for its own code point, an
escape for the one it names. -/
inductive Units : List Char → CodePoints → List Char → Prop
  | close {rest : List Char} : Units ('"' :: rest) [] rest
  | plain {c : Char} {cs rest : List Char} {us : CodePoints} : c ≠ '"' → c ≠ '\\' →
      0x20 ≤ c.toNat → Units cs us rest → Units (c :: cs) (c.toNat :: us) rest
  | escape {c : Char} {n : Nat} {cs rest : List Char} {us : CodePoints} : escapeOf? c = some n →
      Units cs us rest → Units ('\\' :: c :: cs) (n :: us) rest
  | unit {a b c d : Char} {n : Nat} {cs rest : List Char} {us : CodePoints} :
      unit? [a, b, c, d] = some n → Units cs us rest →
      Units ('\\' :: 'u' :: a :: b :: c :: d :: cs) (n :: us) rest

/-- The code point that the two halves of a pair make. -/
def joined (hi lo : Nat) : Nat := 0x10000 + (hi - 0xD800) * 0x400 + (lo - 0xDC00)

/-- The code points of a text from its units: a first half with the second half right after it is one
code point. -/
def joinHalves : CodePoints → CodePoints
  | [] => []
  | [n] => [n]
  | hi :: lo :: us =>
    if isHigh hi && isLow lo then joined hi lo :: joinHalves us else hi :: joinHalves (lo :: us)

/-! ### Numbers -/

def Digits (ds : List Char) : Prop := ds ≠ [] ∧ ∀ d ∈ ds, d.isDigit = true

/-- The number that decimal digits write. -/
def decimal (ds : List Char) : Nat := ofDigits 10 (ds.map fun d => d.toNat - 48)

structure Exponent where
  mark : Char
  sign : List Char
  digits : List Char
  isMark : mark = 'e' ∨ mark = 'E'
  isSign : sign = [] ∨ sign = ['+'] ∨ sign = ['-']
  isNumber : Digits digits

namespace Exponent

def spelling (e : Exponent) : List Char := e.mark :: (e.sign ++ e.digits)

def value (e : Exponent) : Int :=
  if e.sign = ['-'] then -(decimal e.digits : Int) else decimal e.digits

end Exponent

/-- A number by its parts.  The whole part has no needless zero in front; without a point there are no
digits after the point. -/
structure Numeral where
  negative : Bool
  whole : List Char
  fraction : List Char
  exponent : Option Exponent
  isWhole : Digits whole
  noNeedlessZero : ∀ ds, whole = '0' :: ds → ds = []
  isFraction : ∀ d ∈ fraction, d.isDigit = true

namespace Numeral

def sign (n : Numeral) : List Char := if n.negative then ['-'] else []

theorem length_sign (n : Numeral) : n.sign.length = if n.negative then 1 else 0 :=
  apply_ite List.length _ _ _

/-- The point with the digits after it. -/
def pointed (ds : List Char) : List Char := if ds.isEmpty then [] else '.' :: ds

theorem length_pointed (ds : List Char) :
    (pointed ds).length = if ds.isEmpty then 0 else ds.length + 1 :=
  apply_ite List.length _ _ _

/-- The exponent, if there is one. -/
def raised (e : Option Exponent) : List Char := (e.map Exponent.spelling).getD []

/-- The power of ten that the exponent names, if there is one. -/
def power (e : Option Exponent) : Int := (e.map Exponent.value).getD 0

def spelling (n : Numeral) : List Char :=
  n.sign ++ (n.whole ++ (pointed n.fraction ++ raised n.exponent))

/-- Whether a number is written as a whole one. -/
def isInt (n : Numeral) : Bool := n.fraction.isEmpty && n.exponent.isNone

/-- A number that is written as a whole one has no more digits than can be converted. -/
def Fits (n : Numeral) : Prop := n.isInt = true → n.whole.length ≤ digitLimit

instance (n : Numeral) : Decidable n.Fits := inferInstanceAs (Decidable (_ → _))

def value (n : Numeral) : Json :=
  if n.isInt then .int (if n.negative then -(decimal n.whole : Int) else decimal n.whole)
  else .float (Double.ofDecimal n.negative (decimal (n.whole ++ n.fraction))
    (power n.exponent - n.fraction.length))

end Numeral

/-! ### Values -/

def words : List (String × Json) :=
  [("null", .null), ("true", .bool true), ("false", .bool false), ("NaN", .float .nan),
    ("Infinity", .float (.infinite false)), ("-Infinity", .float (.infinite true))]

/-- The entries of an object from the entries as they are written: the last one with a key counts, in the
place of the first. -/
def collect (done es : List (CodePoints × Json)) : List (CodePoints × Json) :=
  es.foldl (fun done e => put e.1 e.2 done) done

mutual

/-- A value in front of what is left of a text. -/
inductive Written : List Char → Json → List Char → Prop
  | word {w : String × Json} {rest : List Char} : w ∈ words → Written (w.1.toList ++ rest) w.2 rest
  | number {rest : List Char} (n : Numeral) : n.Fits → Written (n.spelling ++ rest) n.value rest
  | text {cs rest : List Char} {us : CodePoints} : Units cs us rest →
      Written ('"' :: cs) (.text (joinHalves us)) rest
  | noItems {cs rest : List Char} : Blanks cs (']' :: rest) → Written ('[' :: cs) (.list []) rest
  | items {cs ds rest : List Char} {vs : List Json} : Blanks cs ds → WrittenItems ds vs rest →
      Written ('[' :: cs) (.list vs) rest
  | noEntries {cs rest : List Char} : Blanks cs ('\x7d' :: rest) →
      Written ('\x7b' :: cs) (.object []) rest
  | entries {cs ds rest : List Char} {es : List (CodePoints × Json)} : Blanks cs ds →
      WrittenEntries ds es rest → Written ('\x7b' :: cs) (.object (collect [] es)) rest

/-- The members of a list up to the bracket that closes it. -/
inductive WrittenItems : List Char → List Json → List Char → Prop
  | last {cs ds rest : List Char} {v : Json} : Written cs v ds → Blanks ds (']' :: rest) →
      WrittenItems cs [v] rest
  | more {cs ds es fs rest : List Char} {v : Json} {vs : List Json} : Written cs v ds →
      Blanks ds (',' :: es) → Blanks es fs → WrittenItems fs vs rest →
      WrittenItems cs (v :: vs) rest

/-- An entry of an object: a text, a colon and a value. -/
inductive WrittenEntry : List Char → CodePoints × Json → List Char → Prop
  | mk {cs ds es fs rest : List Char} {us : CodePoints} {v : Json} : Units cs us ds →
      Blanks ds (':' :: es) → Blanks es fs → Written fs v rest →
      WrittenEntry ('"' :: cs) (joinHalves us, v) rest

/-- The entries of an object, in the order in which they are written, up to the brace that closes
it. -/
inductive WrittenEntries : List Char → List (CodePoints × Json) → List Char → Prop
  | last {cs ds rest : List Char} {e : CodePoints × Json} : WrittenEntry cs e ds →
      Blanks ds ('\x7d' :: rest) → WrittenEntries cs [e] rest
  | more {cs ds fs gs rest : List Char} {e : CodePoints × Json} {es : List (CodePoints × Json)} :
      WrittenEntry cs e ds → Blanks ds (',' :: fs) → Blanks fs gs → WrittenEntries gs es rest →
      WrittenEntries cs (e :: es) rest

end

/-- A whole text is one value with nothing but blanks around it. -/
def Document (cs : List Char) (v : Json) : Prop :=
  ∃ ds rest, Blanks cs ds ∧ Written ds v rest ∧ Blanks rest []

/-! ### Reading goes by the grammar -/

theorem Blanks.append {bs cs rest : List Char} (h : ∀ c ∈ bs, isGap c = true)
    (hcs : Blanks cs rest) : Blanks (bs ++ cs) rest := by
  induction bs with
  | nil => exact hcs
  | cons b bs ih =>
    exact .more (h b List.mem_cons_self) (ih fun c hc => h c (List.mem_cons_of_mem b hc))

/-- The blanks that are skipped are blanks. -/
theorem blanks_skipBlanks (p : Place) : Blanks p.rest p.skipBlanks.rest := by
  have happend : p.rest.takeWhile isGap ++ p.skipBlanks.rest = p.rest :=
    List.prefix_iff_eq_append.mp (List.takeWhile_prefix isGap)
  have hblanks : Blanks (p.rest.takeWhile isGap ++ p.skipBlanks.rest) p.skipBlanks.rest :=
    .append (fun _ hc => List.mem_takeWhile_imp hc) .none
  rwa [happend] at hblanks

theorem rest_skip_one {p : Place} {c : Char} {cs : List Char} (h : p.rest = c :: cs) :
    (p.skip 1).rest = cs := by
  rw [Place.skip, h]
  rfl

theorem blanks_after {p : Place} {c : Char} {cs : List Char} (h : p.rest = c :: cs) :
    Blanks cs (p.skip 1).skipBlanks.rest :=
  rest_skip_one h ▸ blanks_skipBlanks (p.skip 1)

/-! #### Texts -/

theorem joinHalves_pair {hi lo : Nat} (hhi : isHigh hi = true) (hlo : isLow lo = true)
    (us : CodePoints) : joinHalves (hi :: lo :: us) = joined hi lo :: joinHalves us := by
  rw [joinHalves, hhi, hlo]
  rfl

/-- A unit that does not make a pair with the next one stands for itself. -/
theorem joinHalves_single {n : Nat} {us : CodePoints}
    (h : isHigh n = true → ∀ m ∈ us.head?, isLow m = false) :
    joinHalves (n :: us) = n :: joinHalves us := by
  cases us with
  | nil => rfl
  | cons m us =>
    rw [joinHalves, if_neg]
    rw [Bool.and_eq_true]
    rintro ⟨hhigh, hlow⟩
    rw [h hhigh m rfl] at hlow
    cases hlow

/-- What follows the closing quote is less than what the text was read from. -/
theorem Units.length_lt {cs rest : List Char} {us : CodePoints} (h : Units cs us rest) :
    rest.length < cs.length := by
  induction h with
  | close => exact Nat.lt_succ_self _
  | plain _ _ _ _ ih => exact Nat.lt_succ_of_lt ih
  | escape _ _ ih =>
    simp only [List.length_cons]
    omega
  | unit _ _ ih =>
    simp only [List.length_cons]
    omega

/-- The second half of a pair comes from its escape. -/
theorem Units.unitNext {cs rest : List Char} {us : CodePoints} (h : Units cs us rest) {m : Nat}
    (hm : m ∈ us.head?) (hlow : isLow m = true) : UnitNext m cs := by
  cases h with
  | close => cases hm
  | plain =>
    cases hm
    rw [isLow_toNat] at hlow
    cases hlow
  | escape hn =>
    cases hm
    have := escapeOf?_lt hn
    rw [isLow, Bool.and_eq_true, decide_eq_true_iff] at hlow
    omega
  | unit hn hs =>
    cases hm
    have := hs.length_lt
    exact ⟨_, rfl, hn, by simp only [List.length_cons]; omega⟩

/-- Four digits are all that a unit is read from. -/
theorem exists_of_unit? {cs : List Char} {n : Nat} (h : unit? (cs.take 4) = some n) :
    ∃ a b c d, cs = a :: b :: c :: d :: cs.drop 4 ∧ unit? [a, b, c, d] = some n := by
  match cs with
  | a :: b :: c :: d :: cs => exact ⟨a, b, c, d, rfl, h⟩
  | [] | [_] | [_, _] | [_, _, _] => cases h

section

variable {tail more rest : List Char} {n hi lo : Nat} {us : CodePoints}

/-- The escape of a unit that makes no pair with what follows it. -/
theorem Units.single (hn : unit? (tail.take 4) = some n) (hs : Units (tail.drop 4) us rest)
    (halone : isHigh n = true → ∀ m, UnitNext m (tail.drop 4) → isLow m = false) :
    ∃ us', Units ('\\' :: 'u' :: tail) us' rest ∧ joinHalves us' = n :: joinHalves us := by
  obtain ⟨a, b, c, d, htail, hunit⟩ := exists_of_unit? hn
  refine ⟨n :: us, htail ▸ .unit hunit hs, joinHalves_single fun hhigh m hm => ?_⟩
  by_contra hlow
  rw [Bool.not_eq_false] at hlow
  have hother := halone hhigh m (hs.unitNext hm hlow)
  rw [hother] at hlow
  cases hlow

/-- The escapes of the two halves of a pair. -/
theorem Units.pair (hn : unit? (tail.take 4) = some hi) (htail : tail.drop 4 = '\\' :: 'u' :: more)
    (hm : unit? (more.take 4) = some lo) (hhi : isHigh hi = true) (hlo : isLow lo = true)
    (hs : Units (more.drop 4) us rest) :
    ∃ us', Units ('\\' :: 'u' :: tail) us' rest
      ∧ joinHalves us' = joined hi lo :: joinHalves us := by
  obtain ⟨a, b, c, d, hfirst, hunit⟩ := exists_of_unit? hn
  obtain ⟨a', b', c', d', hsecond, hunit'⟩ := exists_of_unit? hm
  have hboth : Units ('\\' :: 'u' :: more) (lo :: us) rest := hsecond ▸ .unit hunit' hs
  rw [htail] at hfirst
  exact ⟨hi :: lo :: us, hfirst ▸ .unit hunit hboth, joinHalves_pair hhi hlo us⟩

/-- **A unit escape is read from one escape, or from the two that make a pair.** -/
theorem readUnit_units {o : Nat} {next : Place} (h : readUnit ⟨'u' :: tail, o⟩ = .ok (n, next))
    (hs : Units next.rest us rest) :
    ∃ us', Units ('\\' :: 'u' :: tail) us' rest ∧ joinHalves us' = n :: joinHalves us := by
  have halone := (readUnit_ok h).2.2
  unfold readUnit at h
  simp only [List.drop_succ_cons, List.drop_zero] at h
  split at h
  · next hi more hhi hrest =>
    split at h
    · next hcond =>
      rw [Bool.and_eq_true] at hcond
      split at h
      · cases h
      · next lo hlo =>
        split at h
        · next hlow =>
          -- both escapes are taken at once
          obtain ⟨rfl, rfl⟩ := Prod.mk.inj (Except.ok.inj h)
          have hnext : (Place.skip 11 ⟨'u' :: tail, o⟩).rest = more.drop 4 := by
            rw [Place.skip, List.drop_succ_cons, show 10 = 4 + 6 from rfl, ← List.drop_drop, hrest,
              List.drop_succ_cons, List.drop_succ_cons]
          exact Units.pair hhi hrest hlo hcond.1 hlow (hnext ▸ hs)
        · cases h
          exact Units.single hhi hs halone
    · cases h
      exact Units.single hhi hs halone
  · next m c cs _ hm _ =>
    cases h
    exact Units.single hm hs halone
  · cases h

end

/-- **A text is read from its units.** -/
theorem readText_units {start fuel : Nat} {p q : Place} {s : CodePoints}
    (h : readText start fuel p = .ok (s, q)) :
    ∃ us, Units p.rest us q.rest ∧ joinHalves us = s := by
  induction fuel generalizing p s q with
  | zero => cases h
  | succ fuel ih =>
    rw [readText] at h
    split at h
    · cases h
    · next rest hrest =>
      cases h
      refine ⟨[], ?_, rfl⟩
      rw [hrest, Place.skip, hrest]
      exact .close
    · cases h
    · next tail hrest =>
      obtain ⟨⟨n, next⟩, hunit, h⟩ := exists_of_bind_ok h
      obtain ⟨⟨more, last⟩, hmore, h⟩ := exists_of_bind_ok h
      cases h
      obtain ⟨us, hus, rfl⟩ := ih hmore
      rw [Place.skip, hrest, List.drop_succ_cons, List.drop_zero] at hunit
      rw [hrest]
      exact readUnit_units hunit hus
    · next c tail _ hrest =>
      split at h
      · cases h
      · next n hn =>
        obtain ⟨⟨more, last⟩, hmore, h⟩ := exists_of_map_ok h
        cases h
        obtain ⟨us, hus, rfl⟩ := ih hmore
        rw [Place.skip, hrest] at hus
        have hlt := escapeOf?_lt hn
        refine ⟨n :: us, hrest ▸ .escape hn hus, joinHalves_single fun hhigh => ?_⟩
        rw [isHigh, Bool.and_eq_true, decide_eq_true_iff] at hhigh
        omega
    · next c tail hquote hend _ hescape hrest =>
      split at h
      · cases h
      · next hc =>
        obtain ⟨⟨more, last⟩, hmore, h⟩ := exists_of_map_ok h
        cases h
        obtain ⟨us, hus, rfl⟩ := ih hmore
        rw [Place.skip, hrest] at hus
        refine ⟨c.toNat :: us, hrest ▸ .plain hquote ?_ (Nat.le_of_not_lt hc) hus,
          joinHalves_single fun hhigh => ?_⟩
        · rintro rfl
          cases tail with
          | nil => exact hend rfl rfl
          | cons d ds => exact hescape d ds rfl rfl
        · rw [isHigh_toNat] at hhigh
          cases hhigh

/-! #### Numbers -/

theorem digitsHere_append (cs : List Char) :
    digitsHere cs ++ cs.drop (digitsHere cs).length = cs :=
  List.prefix_iff_eq_append.mp (List.takeWhile_prefix _)

def dropFraction (cs : List Char) : List Char :=
  if (fractionHere cs).isEmpty then cs else cs.drop ((fractionHere cs).length + 1)

/-- A fraction takes the point and its digits. -/
theorem fractionHere_append (cs : List Char) :
    Numeral.pointed (fractionHere cs) ++ dropFraction cs = cs := by
  unfold dropFraction fractionHere Numeral.pointed
  split
  · split
    · rfl
    · rw [List.drop_succ_cons, List.cons_append, digitsHere_append]
  · rfl

theorem isDigit_of_mem_fractionHere {cs : List Char} {c : Char} (h : c ∈ fractionHere cs) :
    c.isDigit = true := by
  unfold fractionHere at h
  split at h
  · exact isDigit_of_mem_digitsHere h
  · cases h

theorem takeSign_append (cs : List Char) :
    ∃ sign, cs = sign ++ (takeSign cs).2
      ∧ (sign = [] ∨ sign = ['+'] ∨ sign = ['-']) ∧ ((takeSign cs).1 = true ↔ sign = ['-']) := by
  unfold takeSign
  split
  · exact ⟨['-'], rfl, .inr (.inr rfl), by simp⟩
  · exact ⟨['+'], rfl, .inr (.inl rfl), by simp⟩
  · exact ⟨[], rfl, .inl rfl, by simp⟩

/-- What is found of an exponent: the characters that it takes, and its value. -/
def foundExponent (e : Option Exponent) : Option (Nat × Int) :=
  e.map fun e => (e.spelling.length, e.value)

/-- An exponent is read from its parts. -/
theorem exponentHere?_exponent (cs : List Char) :
    ∃ e, exponentHere? cs = foundExponent e ∧ Numeral.raised e <+: cs := by
  have hnone : ∃ e, none = foundExponent e ∧ Numeral.raised e <+: cs :=
    ⟨none, rfl, List.nil_prefix⟩
  unfold exponentHere?
  split
  · next m tail =>
    split
    · next hmark =>
      rw [Bool.or_eq_true, decide_eq_true_iff, decide_eq_true_iff] at hmark
      obtain ⟨sign, htail, hsign, hneg⟩ := takeSign_append tail
      simp only
      split
      · exact hnone
      · next hne =>
        have hdigits : Digits (digitsHere (takeSign tail).2) :=
          ⟨fun heq => hne (List.isEmpty_iff.mpr heq), fun _ => isDigit_of_mem_digitsHere⟩
        let e : Exponent := ⟨m, sign, _, hmark, hsign, hdigits⟩
        have hlen : 1 + (tail.length - (takeSign tail).2.length)
            + (digitsHere (takeSign tail).2).length = e.spelling.length := by
          have := congrArg List.length htail
          rw [List.length_append] at this
          show _ = (m :: (sign ++ digitsHere (takeSign tail).2)).length
          rw [List.length_cons, List.length_append]
          omega
        refine ⟨some e, ?_, ?_⟩
        · rw [hlen]
          exact congrArg (fun i => some (e.spelling.length, i)) (if_congr hneg rfl rfl)
        · refine List.cons_prefix_cons.mpr ⟨rfl, ?_⟩
          have hprefix : sign ++ digitsHere (takeSign tail).2 <+: sign ++ (takeSign tail).2 :=
            (List.prefix_append_right_inj sign).mpr (List.takeWhile_prefix _)
          rwa [← htail] at hprefix
    · exact hnone
  · exact hnone

/-- The whole part of a number: a zero stands alone. -/
def wholeHere (cs : List Char) : List Char :=
  match cs with
  | '0' :: _ => ['0']
  | _ => digitsHere cs

theorem wholeHere_append (cs : List Char) : wholeHere cs ++ cs.drop (wholeHere cs).length = cs := by
  unfold wholeHere
  split
  · rfl
  · exact digitsHere_append cs

theorem isDigit_of_mem_wholeHere {cs : List Char} {c : Char} (h : c ∈ wholeHere cs) :
    c.isDigit = true := by
  unfold wholeHere at h
  split at h
  · rw [List.mem_singleton.mp h]
    decide
  · exact isDigit_of_mem_digitsHere h

theorem eq_nil_of_wholeHere {cs ds : List Char} (h : wholeHere cs = '0' :: ds) : ds = [] := by
  unfold wholeHere at h
  split at h
  · exact (List.cons.inj h).2.symm
  · next hzero =>
    cases cs with
    | nil => cases h
    | cons c cs =>
      have hc : c = '0' := by
        have := digitsHere_append (c :: cs)
        rw [h] at this
        exact (List.cons.inj this).1.symm
      exact (hzero cs (hc ▸ rfl)).elim

/-- What is left after the sign. -/
def bodyHere (cs : List Char) : List Char := if cs.head? = some '-' then cs.drop 1 else cs

/-- What is read once the parts of a number are found. -/
def numberOf (p : Place) (negative : Prop) [Decidable negative] (whole fraction : List Char)
    (exponent : Option (Nat × Int)) : Except Fault (Json × Place) :=
  let next := p.skip ((if negative then 1 else 0) + whole.length
    + (if fraction.isEmpty then 0 else fraction.length + 1)
    + (match exponent with | some (k, _) => k | none => 0))
  let value := decimal (whole ++ fraction)
  if whole.isEmpty then p.fail .value
  else if fraction.isEmpty && exponent.isNone then
    if digitLimit < whole.length then .error (.number (.numeralTooLong whole.length))
    else .ok (.int (if negative then -(value : Int) else value), next)
  else
    let power := match exponent with | some (_, i) => i | none => 0
    .ok (.float (Double.ofDecimal negative value (power - fraction.length)), next)

theorem readNumber_eq (p : Place) :
    readNumber p = numberOf p (p.rest.head? = some '-') (wholeHere (bodyHere p.rest))
      (fractionHere ((bodyHere p.rest).drop (wholeHere (bodyHere p.rest)).length))
      (exponentHere? (dropFraction
        ((bodyHere p.rest).drop (wholeHere (bodyHere p.rest)).length))) := by
  rw [readNumber]
  rfl

/-- **The parts of a number are read as what the number stands for**, unless it is a whole one with too
many digits. -/
theorem numberOf_numeral (p : Place) (n : Numeral) {negative : Prop} [Decidable negative]
    (hneg : negative ↔ n.negative = true) :
    numberOf p negative n.whole n.fraction (foundExponent n.exponent)
      = if n.Fits then .ok (n.value, p.skip n.spelling.length)
        else .error (.number (.numeralTooLong n.whole.length)) := by
  have hlen : (if negative then 1 else 0) + n.whole.length
      + (if n.fraction.isEmpty then 0 else n.fraction.length + 1)
      + (Numeral.raised n.exponent).length = n.spelling.length := by
    rw [Numeral.spelling, List.length_append, List.length_append, List.length_append,
      Numeral.length_pointed, Numeral.length_sign, if_congr hneg rfl rfl, Nat.add_assoc,
      Nat.add_assoc]
  have hraised : (match foundExponent n.exponent with | some (k, _) => k | none => 0)
      = (Numeral.raised n.exponent).length := by
    cases n.exponent <;> rfl
  have hpower : (match foundExponent n.exponent with | some (_, i) => i | none => 0)
      = Numeral.power n.exponent := by
    cases n.exponent <;> rfl
  have hint : (n.fraction.isEmpty && (foundExponent n.exponent).isNone) = n.isInt := by
    rw [Numeral.isInt, foundExponent, Option.isNone_map]
  have hwhole : ¬ n.whole.isEmpty = true := fun h => n.isWhole.1 (List.isEmpty_iff.mp h)
  have hdecide : decide negative = n.negative :=
    Bool.eq_iff_iff.mpr (decide_eq_true_iff.trans hneg)
  unfold numberOf
  simp only [hraised, hpower, hint, hlen, hdecide]
  rw [if_neg hwhole, Numeral.value]
  cases hisInt : n.isInt with
  | false =>
    have hfits : n.Fits := fun h => by
      rw [hisInt] at h
      cases h
    rw [if_pos hfits]
    rfl
  | true =>
    have hempty : n.fraction = [] :=
      List.isEmpty_iff.mp (Bool.and_eq_true_iff.mp hisInt).1
    have hfits : n.Fits ↔ ¬ digitLimit < n.whole.length := by
      rw [Nat.not_lt]
      exact ⟨fun h => h hisInt, fun h _ => h⟩
    rw [hempty, List.append_nil, if_congr hfits rfl rfl, ite_not, if_congr hneg rfl rfl]
    rfl

theorem bodyHere_append (cs : List Char) :
    (if cs.head? = some '-' then ['-'] else []) ++ bodyHere cs = cs := by
  unfold bodyHere
  split
  · next h =>
    obtain ⟨tail, rfl⟩ := List.head?_eq_some_iff.mp h
    rfl
  · rfl

/-- **A number is read from its parts.** -/
theorem readNumber_numeral {p q : Place} {v : Json} (h : readNumber p = .ok (v, q)) :
    ∃ n : Numeral, n.Fits ∧ p.rest = n.spelling ++ q.rest ∧ n.value = v := by
  rw [readNumber_eq] at h
  have hbody := bodyHere_append p.rest
  have hwhole := wholeHere_append (bodyHere p.rest)
  have hdigits : ∀ c ∈ wholeHere (bodyHere p.rest), c.isDigit = true := fun _ =>
    isDigit_of_mem_wholeHere
  have hzero : ∀ ds, wholeHere (bodyHere p.rest) = '0' :: ds → ds = [] := fun _ =>
    eq_nil_of_wholeHere
  generalize wholeHere (bodyHere p.rest) = whole at *
  generalize (bodyHere p.rest).drop whole.length = rest at *
  have hfraction := fractionHere_append rest
  have hpoint : ∀ c ∈ fractionHere rest, c.isDigit = true := fun _ => isDigit_of_mem_fractionHere
  obtain ⟨exponent, hfound, hexponent⟩ := exponentHere?_exponent (dropFraction rest)
  rw [hfound] at h
  generalize fractionHere rest = fraction at *
  have hne : whole ≠ [] := by
    rintro rfl
    cases h
  let n : Numeral :=
    { negative := p.rest.head? = some '-', whole, fraction, exponent, isWhole := ⟨hne, hdigits⟩
      noNeedlessZero := hzero, isFraction := hpoint }
  have hsign : n.sign = if p.rest.head? = some '-' then ['-'] else [] :=
    if_congr decide_eq_true_iff rfl rfl
  have hspelling : n.spelling <+: p.rest := by
    obtain ⟨tail, htail⟩ := hexponent
    refine ⟨tail, ?_⟩
    rw [Numeral.spelling, hsign, List.append_assoc, List.append_assoc, List.append_assoc, htail,
      hfraction, hwhole, hbody]
  have hneg : p.rest.head? = some '-' ↔ n.negative = true := decide_eq_true_iff.symm
  rw [show whole = n.whole from rfl, show fraction = n.fraction from rfl,
    show exponent = n.exponent from rfl, numberOf_numeral p n hneg] at h
  split at h
  · next hfits =>
    obtain ⟨rfl, rfl⟩ := Prod.mk.inj (Except.ok.inj h)
    exact ⟨n, hfits, (List.prefix_iff_eq_append.mp hspelling).symm, rfl⟩
  · cases h

/-! #### Values -/

theorem wordHere?_words {cs : List Char} {v : Json} {k : Nat} (h : wordHere? cs = some (v, k)) :
    ∃ w ∈ words, w.1.toList ++ cs.drop k = cs ∧ w.2 = v := by
  obtain ⟨w, hw, heq⟩ := Option.map_eq_some_iff.mp h
  obtain ⟨hv, rfl⟩ := Prod.mk.inj heq
  have hstarts : startsWith w.1.toList cs = true :=
    List.find?_some (p := fun w : String × Json => startsWith w.1.toList cs) hw
  have hprefix := startsWith_iff.mp hstarts
  have happend := List.prefix_iff_eq_append.mp hprefix
  rw [String.length_toList] at happend
  exact ⟨w, List.mem_of_find?_eq_some hw, happend, hv⟩

theorem collect_cons (e : CodePoints × Json) (done es : List (CodePoints × Json)) :
    collect done (e :: es) = collect (put e.1 e.2 done) es := rfl

section

variable {fuel : Nat}
  (hvalue : ∀ {p v q}, readValue fuel p = .ok (v, q) → Written p.rest v q.rest)
  (hitems : ∀ {p vs q}, readItems fuel p = .ok (vs, q) → WrittenItems p.rest vs q.rest)
  (hentries : ∀ {done p es q}, readEntries fuel done p = .ok (es, q) →
    ∃ es', WrittenEntries p.rest es' q.rest ∧ es = collect done es')

include hitems hentries in
theorem readValue_written {p q : Place} {v : Json} (h : readValue (fuel + 1) p = .ok (v, q)) :
    Written p.rest v q.rest := by
  rw [readValue] at h
  split at h
  · next cs hrest =>
    obtain ⟨⟨s, next⟩, hs, h⟩ := exists_of_map_ok h
    cases h
    obtain ⟨us, hus, rfl⟩ := readText_units hs
    rw [rest_skip_one hrest] at hus
    exact hrest ▸ .text hus
  · next cs hrest =>
    have hblanks := blanks_after hrest
    rw [hrest]
    simp only at h
    split at h
    · next ds hclose =>
      cases h
      rw [rest_skip_one hclose]
      exact .noItems (hclose ▸ hblanks)
    · obtain ⟨⟨vs, next⟩, hvs, h⟩ := exists_of_map_ok h
      cases h
      exact .items hblanks (hitems hvs)
  · next cs hrest =>
    have hblanks := blanks_after hrest
    rw [hrest]
    simp only at h
    split at h
    · next ds hclose =>
      cases h
      rw [rest_skip_one hclose]
      exact .noEntries (hclose ▸ hblanks)
    · obtain ⟨⟨es, next⟩, hes, h⟩ := exists_of_map_ok h
      cases h
      obtain ⟨es', hes', rfl⟩ := hentries hes
      exact .entries hblanks hes'
  · split at h
    · next v k hw =>
      cases h
      obtain ⟨w, hmem, hrest, rfl⟩ := wordHere?_words hw
      have hword : Written (w.1.toList ++ (p.skip k).rest) w.2 (p.skip k).rest := .word hmem
      rwa [Place.skip, hrest] at hword
    · obtain ⟨n, hfits, hrest, rfl⟩ := readNumber_numeral h
      rw [hrest]
      exact .number n hfits

include hvalue hitems in
theorem readItems_written {p q : Place} {vs : List Json}
    (h : readItems (fuel + 1) p = .ok (vs, q)) : WrittenItems p.rest vs q.rest := by
  rw [readItems] at h
  obtain ⟨⟨v, q₁⟩, hv, h⟩ := exists_of_bind_ok h
  have hblanks := blanks_skipBlanks q₁
  simp only at h
  split at h
  · next ds hclose =>
    cases h
    rw [rest_skip_one hclose]
    exact .last (hvalue hv) (hclose ▸ hblanks)
  · next ds hcomma =>
    obtain ⟨⟨vs', last⟩, hvs, h⟩ := exists_of_bind_ok h
    cases h
    exact .more (hvalue hv) (hcomma ▸ hblanks) (blanks_after hcomma) (hitems hvs)
  · cases h

include hvalue hentries in
theorem readEntries_written {done es : List (CodePoints × Json)} {p q : Place}
    (h : readEntries (fuel + 1) done p = .ok (es, q)) :
    ∃ es', WrittenEntries p.rest es' q.rest ∧ es = collect done es' := by
  rw [readEntries] at h
  split at h
  · cases h
  next hquote =>
  obtain ⟨tail, hrest⟩ := List.head?_eq_some_iff.mp (Decidable.not_not.mp hquote)
  obtain ⟨⟨k, q₁⟩, hk, h⟩ := exists_of_bind_ok h
  obtain ⟨us, hus, rfl⟩ := readText_units hk
  rw [rest_skip_one hrest] at hus
  have hafterKey := blanks_skipBlanks q₁
  simp only at h
  split at h
  · cases h
  next hcolon =>
  obtain ⟨tail', hcolon⟩ := List.head?_eq_some_iff.mp (Decidable.not_not.mp hcolon)
  obtain ⟨⟨v, q₂⟩, hv, h⟩ := exists_of_bind_ok h
  have hentry : WrittenEntry p.rest (joinHalves us, v) q₂.rest :=
    hrest ▸ .mk hus (hcolon ▸ hafterKey) (blanks_after hcolon) (hvalue hv)
  have hafterValue := blanks_skipBlanks q₂
  simp only at h
  split at h
  · next ds hclose =>
    cases h
    rw [rest_skip_one hclose]
    exact ⟨_, .last hentry (hclose ▸ hafterValue), rfl⟩
  · next ds hcomma =>
    obtain ⟨es', hes', rfl⟩ := hentries h
    exact ⟨_, .more hentry (hcomma ▸ hafterValue) (blanks_after hcomma) hes', rfl⟩
  · cases h

end

/-- **What is read is written**: values, the members of lists and the entries of objects. -/
theorem read_written (fuel : Nat) :
    (∀ {p v q}, readValue fuel p = .ok (v, q) → Written p.rest v q.rest)
      ∧ (∀ {p vs q}, readItems fuel p = .ok (vs, q) → WrittenItems p.rest vs q.rest)
      ∧ ∀ {done p es q}, readEntries fuel done p = .ok (es, q) →
        ∃ es', WrittenEntries p.rest es' q.rest ∧ es = collect done es' := by
  induction fuel with
  | zero => exact ⟨fun h => (nomatch h), fun h => (nomatch h), fun h => (nomatch h)⟩
  | succ fuel ih =>
    obtain ⟨hvalue, hitems, hentries⟩ := ih
    exact ⟨readValue_written hitems hentries, readItems_written hvalue hitems,
      readEntries_written hvalue hentries⟩

/-- **A text that is read is a document.** -/
theorem document_of_parse {text : String} {v : Json} (h : parse text = .ok v) :
    Document text.toList v := by
  rw [parse] at h
  simp only at h
  split at h
  · cases h
  · obtain ⟨⟨w, p⟩, hread, h⟩ := exists_of_bind_ok h
    have hafter := blanks_skipBlanks p
    simp only at h
    split at h
    · next hend =>
      cases h
      rw [List.isEmpty_iff.mp hend] at hafter
      exact ⟨_, _, blanks_skipBlanks ⟨text.toList, 0⟩, (read_written _).1 hread, hafter⟩
    · cases h

end SecretForge.Json
