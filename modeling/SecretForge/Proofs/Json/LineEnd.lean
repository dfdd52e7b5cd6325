import SecretForge.Proofs.Json.Grammar
import SecretForge.Text.Blank
import SecretForge.TextFile

/-!
# Line ends do not matter to a document

A text file is read with each of its line ends as one character, whichever kind it is.  A JSON text is
none the worse for it: line ends stand only among its blanks, since none may stand in a text, a number
or a word.

* `Relined` — one text is another with its line ends put otherwise.
* `Document.relined` — which leaves a document what it is, by induction on how it is written.
* **`document_plainLines`** — the content of a file, trimmed, and the text that is read of it are
  documents together.
-/

namespace SecretForge.Json

open SecretForge.Number SecretForge.Text

def isLineEnd (c : Char) : Bool := c = '\n' || c = '\r'

/-- The second text is the first one with other line ends, or none, where the first has some. -/
inductive Relined : List Char → List Char → Prop
  | nil : Relined [] []
  | keep (c : Char) {cs ds : List Char} : Relined cs ds → Relined (c :: cs) (c :: ds)
  | change (es : List Char) {c : Char} {cs ds : List Char} : isLineEnd c = true →
      (∀ e ∈ es, isLineEnd e = true) → Relined cs ds → Relined (c :: cs) (es ++ ds)

theorem isLineEnd_iff {c : Char} : isLineEnd c = true ↔ c = '\n' ∨ c = '\r' := by
  simp [isLineEnd]

/-- What holds of a character, but of no line end, tells it from a line end. -/
theorem isLineEnd_eq_false {P : Char → Prop} {c : Char} (hc : P c) (hfeed : ¬ P '\n')
    (hreturn : ¬ P '\r') : isLineEnd c = false := by
  rw [Bool.eq_false_iff, Ne, isLineEnd_iff]
  rintro (rfl | rfl)
  · exact hfeed hc
  · exact hreturn hc

theorem isGap_of_isLineEnd {c : Char} (h : isLineEnd c = true) : isGap c = true := by
  rcases isLineEnd_iff.mp h with rfl | rfl <;> rfl

theorem isBlank_of_isLineEnd {c : Char} (h : isLineEnd c = true) : isBlank c = true := by
  rcases isLineEnd_iff.mp h with rfl | rfl <;> rfl

namespace Relined

variable {cs ds es fs : List Char}

theorem eq_nil (h : Relined [] ds) : ds = [] := by
  cases h
  rfl

/-- What is no line end stays. -/
theorem cons_left {c : Char} (h : Relined (c :: cs) ds) (hc : isLineEnd c = false) :
    ∃ ds', ds = c :: ds' ∧ Relined cs ds' := by
  cases h with
  | keep _ h => exact ⟨_, rfl, h⟩
  | change _ hend =>
    rw [hc] at hend
    cases hend

theorem append_left {as : List Char} (h : Relined (as ++ cs) ds)
    (has : ∀ c ∈ as, isLineEnd c = false) : ∃ ds', ds = as ++ ds' ∧ Relined cs ds' := by
  induction as generalizing ds with
  | nil => exact ⟨ds, rfl, h⟩
  | cons a as ih =>
    obtain ⟨ds₁, rfl, h₁⟩ := h.cons_left (has a List.mem_cons_self)
    obtain ⟨ds₂, rfl, h₂⟩ := ih h₁ fun c hc => has c (List.mem_cons_of_mem a hc)
    exact ⟨ds₂, rfl, h₂⟩

theorem append (h : Relined cs ds) (h' : Relined es fs) : Relined (cs ++ es) (ds ++ fs) := by
  induction h with
  | nil => exact h'
  | keep c _ ih => exact .keep c ih
  | change as hc hends _ ih =>
    rw [List.append_assoc]
    exact .change as hc hends ih

theorem reverse (h : Relined cs ds) : Relined cs.reverse ds.reverse := by
  induction h with
  | nil => exact .nil
  | keep c _ ih =>
    rw [List.reverse_cons, List.reverse_cons]
    exact ih.append (.keep c .nil)
  | @change es c _ _ hc hends _ ih =>
    rw [List.reverse_cons, List.reverse_append]
    have hlast : Relined [c] (es.reverse ++ []) :=
      .change es.reverse hc (fun e he => hends e (List.mem_reverse.mp he)) .nil
    rw [List.append_nil] at hlast
    exact ih.append hlast

/-- Line ends are blanks, so trimming is not in the way. -/
theorem dropWhile (h : Relined cs ds) : Relined (cs.dropWhile isBlank) (ds.dropWhile isBlank) := by
  induction h with
  | nil => exact .nil
  | keep c h ih =>
    by_cases hc : isBlank c = true
    · rwa [List.dropWhile_cons_of_pos hc, List.dropWhile_cons_of_pos hc]
    · rw [List.dropWhile_cons_of_neg hc, List.dropWhile_cons_of_neg hc]
      exact .keep c h
  | change _ hc hends _ ih =>
    rwa [List.dropWhile_cons_of_pos (isBlank_of_isLineEnd hc),
      List.dropWhile_append_of_pos fun e he => isBlank_of_isLineEnd (hends e he)]

theorem trimChars (h : Relined cs ds) : Relined (trimChars cs) (trimChars ds) :=
  h.dropWhile.reverse.dropWhile.reverse

/-- Each line end is put as one character. -/
theorem to_plainLines (cs : List Char) : Relined cs (plainLines cs) := by
  fun_induction plainLines cs with
  | case1 cs ih => exact .change [] rfl (fun _ h => nomatch h) (.keep '\n' ih)
  | case2 cs _ ih => exact .change ['\n'] rfl (List.forall_mem_singleton.mpr rfl) ih
  | case3 c cs _ _ ih => exact .keep c ih
  | case4 => exact .nil

/-- Each line end is put as it was. -/
theorem of_plainLines (cs : List Char) : Relined (plainLines cs) cs := by
  fun_induction plainLines cs with
  | case1 cs ih =>
    exact .change ['\r', '\n'] rfl
      (List.forall_mem_cons.mpr ⟨rfl, List.forall_mem_singleton.mpr rfl⟩) ih
  | case2 cs _ ih => exact .change ['\r'] rfl (List.forall_mem_singleton.mpr rfl) ih
  | case3 c cs _ _ ih => exact .keep c ih
  | case4 => exact .nil

end Relined

/-! ### The parts of a document -/

variable {cs ds rest : List Char}

theorem Blanks.relined (h : Blanks cs rest) (hds : Relined cs ds) :
    ∃ rest', Blanks ds rest' ∧ Relined rest rest' := by
  induction h generalizing ds with
  | none => exact ⟨ds, .none, hds⟩
  | more hc _ ih =>
    cases hds with
    | keep _ hds =>
      obtain ⟨rest', hb, hrest⟩ := ih hds
      exact ⟨rest', .more hc hb, hrest⟩
    | change _ _ hends hds =>
      obtain ⟨rest', hb, hrest⟩ := ih hds
      exact ⟨rest', .append (fun e he => isGap_of_isLineEnd (hends e he)) hb, hrest⟩

theorem isLineEnd_of_escapeOf? {c : Char} {n : Nat} (h : escapeOf? c = some n) :
    isLineEnd c = false :=
  isLineEnd_eq_false (P := fun c => escapeOf? c = some n) h (fun h => by cases h) fun h => by cases h

/-- Whatever is read as a hexadecimal number is made of digits. -/
theorem isSome_of_hexValue {cs : List Char} {acc n : Nat} (h : hexValue acc cs = some n) :
    ∀ c ∈ cs, (hexDigit? c).isSome := by
  induction cs generalizing acc with
  | nil => exact fun c hc => nomatch hc
  | cons d cs ih =>
    rw [hexValue, List.foldlM_cons] at h
    cases hd : hexDigit? d with
    | none => rw [hd] at h; cases h
    | some k =>
      rw [hd] at h
      intro c hc
      rcases List.mem_cons.mp hc with rfl | hc
      · rw [hd]
        rfl
      · exact ih h c hc

theorem isLineEnd_of_unit? {ds : List Char} {n : Nat} (h : unit? ds = some n) :
    ∀ c ∈ ds, isLineEnd c = false := by
  intro c hc
  rw [unit?] at h
  split at h
  · exact isLineEnd_eq_false (P := fun c => (hexDigit? c).isSome) (isSome_of_hexValue h c hc)
      (by decide) (by decide)
  · cases h

theorem isLineEnd_of_le {c : Char} (h : 0x20 ≤ c.toNat) : isLineEnd c = false :=
  isLineEnd_eq_false (P := fun c => 0x20 ≤ c.toNat) h (by decide) (by decide)

theorem Units.relined {us : CodePoints} (h : Units cs us rest) (hds : Relined cs ds) :
    ∃ rest', Units ds us rest' ∧ Relined rest rest' := by
  induction h generalizing ds with
  | close =>
    obtain ⟨ds, rfl, hrest⟩ := hds.cons_left rfl
    exact ⟨_, .close, hrest⟩
  | plain hquote hslash hc _ ih =>
    obtain ⟨ds₁, rfl, h₁⟩ := hds.cons_left (isLineEnd_of_le hc)
    obtain ⟨rest', hus, hrest⟩ := ih h₁
    exact ⟨rest', .plain hquote hslash hc hus, hrest⟩
  | escape hn _ ih =>
    obtain ⟨ds₁, rfl, h₁⟩ := hds.cons_left rfl
    obtain ⟨ds₂, rfl, h₂⟩ := h₁.cons_left (isLineEnd_of_escapeOf? hn)
    obtain ⟨rest', hus, hrest⟩ := ih h₂
    exact ⟨rest', .escape hn hus, hrest⟩
  | @unit a b c d n cs _ _ hn _ ih =>
    obtain ⟨ds₁, rfl, h₁⟩ := hds.cons_left rfl
    obtain ⟨ds₂, rfl, h₂⟩ := h₁.cons_left rfl
    have hdigits : Relined ([a, b, c, d] ++ cs) ds₂ := h₂
    obtain ⟨ds₃, rfl, h₃⟩ := hdigits.append_left (isLineEnd_of_unit? hn)
    obtain ⟨rest', hus, hrest⟩ := ih h₃
    exact ⟨rest', .unit hn hus, hrest⟩

theorem isLineEnd_of_isDigit {c : Char} (h : c.isDigit = true) : isLineEnd c = false :=
  isLineEnd_eq_false (P := fun c => c.isDigit = true) h (by decide) (by decide)

theorem Exponent.isLineEnd_of_mem_spelling (e : Exponent) {c : Char} (h : c ∈ e.spelling) :
    isLineEnd c = false := by
  rw [spelling, List.mem_cons, List.mem_append] at h
  rcases h with rfl | h | h
  · rcases e.isMark with h | h <;> rw [h] <;> rfl
  · rcases e.isSign with hs | hs | hs <;> rw [hs] at h
    · cases h
    all_goals
      rw [List.mem_singleton.mp h]
      rfl
  · exact isLineEnd_of_isDigit (e.isNumber.2 c h)

theorem Numeral.isLineEnd_of_mem_spelling (n : Numeral) {c : Char} (h : c ∈ n.spelling) :
    isLineEnd c = false := by
  rw [spelling, List.mem_append, List.mem_append, List.mem_append] at h
  rcases h with h | h | h | h
  · rw [sign] at h
    split at h
    · rw [List.mem_singleton.mp h]
      rfl
    · cases h
  · exact isLineEnd_of_isDigit (n.isWhole.2 c h)
  · rw [pointed] at h
    split at h
    · cases h
    · rcases List.mem_cons.mp h with rfl | h
      · rfl
      · exact isLineEnd_of_isDigit (n.isFraction c h)
  · rw [raised] at h
    cases he : n.exponent with
    | none =>
      rw [he] at h
      cases h
    | some e =>
      rw [he] at h
      exact e.isLineEnd_of_mem_spelling h

theorem isLineEnd_of_mem_words {w : String × Json} (hw : w ∈ words) {c : Char}
    (hc : c ∈ w.1.toList) : isLineEnd c = false := by
  have hall : (words.all fun w => w.1.toList.all fun c => !isLineEnd c) = true := by decide
  have hword := List.all_eq_true.mp (List.all_eq_true.mp hall w hw) c hc
  rwa [Bool.not_eq_true'] at hword

mutual

theorem Written.relined : ∀ {cs rest : List Char} {v : Json}, Written cs v rest →
    ∀ {ds : List Char}, Relined cs ds → ∃ rest', Written ds v rest' ∧ Relined rest rest'
  | _, _, _, .word hw, _, hds => by
    obtain ⟨rest', rfl, hrest⟩ := hds.append_left fun _ => isLineEnd_of_mem_words hw
    exact ⟨rest', .word hw, hrest⟩
  | _, _, _, .number n hfits, _, hds => by
    obtain ⟨rest', rfl, hrest⟩ := hds.append_left fun _ => n.isLineEnd_of_mem_spelling
    exact ⟨rest', .number n hfits, hrest⟩
  | _, _, _, .text hs, _, hds => by
    obtain ⟨ds₁, rfl, h₁⟩ := hds.cons_left rfl
    obtain ⟨rest', hus, hrest⟩ := hs.relined h₁
    exact ⟨rest', .text hus, hrest⟩
  | _, _, _, .noItems hb, _, hds => by
    obtain ⟨ds₁, rfl, h₁⟩ := hds.cons_left rfl
    obtain ⟨ds₂, hb', h₂⟩ := hb.relined h₁
    obtain ⟨rest', rfl, hrest⟩ := h₂.cons_left rfl
    exact ⟨rest', .noItems hb', hrest⟩
  | _, _, _, .items hb hs, _, hds => by
    obtain ⟨ds₁, rfl, h₁⟩ := hds.cons_left rfl
    obtain ⟨ds₂, hb', h₂⟩ := hb.relined h₁
    obtain ⟨rest', hs', hrest⟩ := hs.relined h₂
    exact ⟨rest', .items hb' hs', hrest⟩
  | _, _, _, .noEntries hb, _, hds => by
    obtain ⟨ds₁, rfl, h₁⟩ := hds.cons_left rfl
    obtain ⟨ds₂, hb', h₂⟩ := hb.relined h₁
    obtain ⟨rest', rfl, hrest⟩ := h₂.cons_left rfl
    exact ⟨rest', .noEntries hb', hrest⟩
  | _, _, _, .entries hb hs, _, hds => by
    obtain ⟨ds₁, rfl, h₁⟩ := hds.cons_left rfl
    obtain ⟨ds₂, hb', h₂⟩ := hb.relined h₁
    obtain ⟨rest', hs', hrest⟩ := hs.relined h₂
    exact ⟨rest', .entries hb' hs', hrest⟩

theorem WrittenItems.relined : ∀ {cs rest : List Char} {vs : List Json}, WrittenItems cs vs rest →
    ∀ {ds : List Char}, Relined cs ds → ∃ rest', WrittenItems ds vs rest' ∧ Relined rest rest'
  | _, _, _, .last hv hend, _, hds => by
    obtain ⟨ds₁, hv', h₁⟩ := hv.relined hds
    obtain ⟨ds₂, hend', h₂⟩ := hend.relined h₁
    obtain ⟨rest', rfl, hrest⟩ := h₂.cons_left rfl
    exact ⟨rest', .last hv' hend', hrest⟩
  | _, _, _, .more hv hcomma hb hs, _, hds => by
    obtain ⟨ds₁, hv', h₁⟩ := hv.relined hds
    obtain ⟨ds₂, hcomma', h₂⟩ := hcomma.relined h₁
    obtain ⟨ds₃, rfl, h₃⟩ := h₂.cons_left rfl
    obtain ⟨ds₄, hb', h₄⟩ := hb.relined h₃
    obtain ⟨rest', hs', hrest⟩ := hs.relined h₄
    exact ⟨rest', .more hv' hcomma' hb' hs', hrest⟩

theorem WrittenEntry.relined : ∀ {cs rest : List Char} {e : CodePoints × Json},
    WrittenEntry cs e rest → ∀ {ds : List Char}, Relined cs ds →
    ∃ rest', WrittenEntry ds e rest' ∧ Relined rest rest'
  | _, _, _, .mk hk hcolon hb hv, _, hds => by
    obtain ⟨ds₁, rfl, h₁⟩ := hds.cons_left rfl
    obtain ⟨ds₂, hk', h₂⟩ := hk.relined h₁
    obtain ⟨ds₃, hcolon', h₃⟩ := hcolon.relined h₂
    obtain ⟨ds₄, rfl, h₄⟩ := h₃.cons_left rfl
    obtain ⟨ds₅, hb', h₅⟩ := hb.relined h₄
    obtain ⟨rest', hv', hrest⟩ := hv.relined h₅
    exact ⟨rest', .mk hk' hcolon' hb' hv', hrest⟩

theorem WrittenEntries.relined : ∀ {cs rest : List Char} {es : List (CodePoints × Json)},
    WrittenEntries cs es rest → ∀ {ds : List Char}, Relined cs ds →
    ∃ rest', WrittenEntries ds es rest' ∧ Relined rest rest'
  | _, _, _, .last he hend, _, hds => by
    obtain ⟨ds₁, he', h₁⟩ := he.relined hds
    obtain ⟨ds₂, hend', h₂⟩ := hend.relined h₁
    obtain ⟨rest', rfl, hrest⟩ := h₂.cons_left rfl
    exact ⟨rest', .last he' hend', hrest⟩
  | _, _, _, .more he hcomma hb hs, _, hds => by
    obtain ⟨ds₁, he', h₁⟩ := he.relined hds
    obtain ⟨ds₂, hcomma', h₂⟩ := hcomma.relined h₁
    obtain ⟨ds₃, rfl, h₃⟩ := h₂.cons_left rfl
    obtain ⟨ds₄, hb', h₄⟩ := hb.relined h₃
    obtain ⟨rest', hs', hrest⟩ := hs.relined h₄
    exact ⟨rest', .more he' hcomma' hb' hs', hrest⟩

end

/-- **A document with its line ends put otherwise is the same document.** -/
theorem Document.relined {v : Json} (h : Document cs v) (hds : Relined cs ds) : Document ds v := by
  obtain ⟨es, rest, hb, hv, hend⟩ := h
  obtain ⟨es', hb', hes⟩ := hb.relined hds
  obtain ⟨rest', hv', hrest⟩ := hv.relined hes
  obtain ⟨fs, hend', hfs⟩ := hend.relined hrest
  exact ⟨es', rest', hb', hv', hfs.eq_nil ▸ hend'⟩

/-- **A trimmed text is a document just when it is one with its line ends as they are read.** -/
theorem document_plainLines (cs : List Char) (v : Json) :
    Document (trimChars (plainLines cs)) v ↔ Document (trimChars cs) v :=
  ⟨fun h => h.relined (Relined.of_plainLines cs).trimChars,
    fun h => h.relined (Relined.to_plainLines cs).trimChars⟩

end SecretForge.Json
