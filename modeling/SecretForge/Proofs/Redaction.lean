import Mathlib.Data.List.DropRight
import SecretForge.Log.Message
import SecretForge.Proofs.Text.Search
import SecretForge.Redaction

/-!
# What redaction hides

A secret that has no asterisk in it and is no part of the word inside the mask is divided by the mask,
so that masking one secret never puts another one together.  Hence the order in which secrets are
masked does not matter for what is hidden, and masking twice is masking once.

* `Maskable` is the condition on a secret, `divides_mask` what it gives.
* `SecretSet.MaskOrder` — an order in which secrets may be masked: the longest first, and those of one
  length anyhow.  `maskAll_spec` — in any order, no secret is left in a masked text, and a text without
  secrets is left as it is.
* `Notice` is an event of a logging session: a secret is learned, or a record is to be shown.
* **`redaction_sound_stable`** — at every record of a session, every handler shows one and the same
  redacted draft, in which nothing stands that was learned before; and so it would be if the secrets
  were masked in another order.
-/

namespace SecretForge

open Text

/-! ### Secrets that can be masked -/

def maskWord : List Char := "REDACTED".toList

/-- A secret that no mask can complete: it has no asterisk and does not stand in the word of the
mask. -/
def Maskable (secret : String) : Prop :=
  '*' ∉ secret.toList ∧ ¬ secret.toList <:+: maskWord

theorem divides_mask {w : String} (hw : Maskable w) : Divides mask.toList w.toList := by
  obtain ⟨hstar, hword⟩ := hw
  have hnil : ¬ w.toList <:+: [] := fun h =>
    hword (h.trans List.nil_infix)
  intro x y h
  have hmask : x ++ mask.toList ++ y
      = x ++ '*' :: ('*' :: '*' :: (maskWord ++ '*' :: '*' :: '*' :: y)) := by
    rw [List.append_assoc]
    rfl
  rw [hmask] at h
  -- each asterisk of the mask is a border
  rcases infix_append_cons hstar h with h | h
  · exact .inl h
  rcases infix_append_cons (x := []) hstar h with h | h
  · exact absurd h hnil
  rcases infix_append_cons (x := []) hstar h with h | h
  · exact absurd h hnil
  rcases infix_append_cons hstar h with h | h
  · exact absurd h hword
  rcases infix_append_cons (x := []) hstar h with h | h
  · exact absurd h hnil
  rcases infix_append_cons (x := []) hstar h with h | h
  · exact absurd h hnil
  · exact .inr h

theorem Maskable.ne_nil {w : String} (hw : Maskable w) : w.toList ≠ [] := fun h =>
  hw.2 (h ▸ List.nil_infix)

/-! ### Masking one secret after the other -/

def maskAll (secrets : List String) (text : String) : String :=
  secrets.foldl (fun text value => replace value mask text) text

theorem toList_replace (p r s : String) :
    (replace p r s).toList = replaceAll p.toList r.toList s.toList := by
  rw [replace, String.toList_ofList]

theorem infix_of_infix_maskAll {secrets : List String} {w : String} (hw : Maskable w)
    {text : String} (h : w.toList <:+: (maskAll secrets text).toList) :
    w.toList <:+: text.toList := by
  induction secrets generalizing text with
  | nil => exact h
  | cons v secrets ih =>
    have hstep := ih h
    rw [toList_replace] at hstep
    exact infix_of_infix_replaceAll hw.1 (divides_mask hw) hstep

theorem not_infix_maskAll {secrets : List String} (hs : ∀ v ∈ secrets, Maskable v)
    {w : String} (hw : w ∈ secrets) (text : String) :
    ¬ w.toList <:+: (maskAll secrets text).toList := by
  induction secrets generalizing text with
  | nil => exact absurd hw List.not_mem_nil
  | cons v secrets ih =>
    have hv := hs v List.mem_cons_self
    rcases List.mem_cons.mp hw with rfl | hw
    · -- masked here, and no later mask brings it back
      intro h
      have hstep := @infix_of_infix_maskAll secrets _ hv _ h
      rw [toList_replace] at hstep
      exact not_infix_replaceAll hv.ne_nil hv.1 (divides_mask hv) text.toList hstep
    · exact ih (fun u hu => hs u (List.mem_cons_of_mem v hu)) hw _

theorem maskAll_of_not_infix {secrets : List String} {text : String}
    (h : ∀ v ∈ secrets, ¬ v.toList <:+: text.toList) : maskAll secrets text = text := by
  induction secrets with
  | nil => rfl
  | cons v secrets ih =>
    have hhead : replace v mask text = text := by
      rw [replace, replaceAll_of_not_infix (h v List.mem_cons_self), String.ofList_toList]
    show maskAll secrets (replace v mask text) = text
    rw [hhead]
    exact ih fun u hu => h u (List.mem_cons_of_mem v hu)

/-- **What masking does to a text**, whatever the order: no secret is left in it, and a text without
secrets is left as it is. -/
theorem maskAll_spec {secrets : List String} (hs : ∀ v ∈ secrets, Maskable v) (text : String) :
    (∀ v ∈ secrets, ¬ v.toList <:+: (maskAll secrets text).toList)
      ∧ ((∀ v ∈ secrets, ¬ v.toList <:+: text.toList) → maskAll secrets text = text) :=
  ⟨fun _ hv => not_infix_maskAll hs hv text, maskAll_of_not_infix⟩

/-- Masking once more, in the same or another order, changes nothing. -/
theorem maskAll_maskAll {secrets others : List String} (hs : ∀ v ∈ secrets, Maskable v)
    (hsub : ∀ v ∈ others, v ∈ secrets) (text : String) :
    maskAll others (maskAll secrets text) = maskAll secrets text :=
  maskAll_of_not_infix fun v hv => (maskAll_spec hs text).1 v (hsub v hv)

/-! ### Sets of secrets -/

/-- A text without the blanks at its ends has none there. -/
theorem trim_trim (text : String) : trim (trim text) = trim text := by
  have hhead : ∀ m, m <+: text.toList.dropWhile isBlank → m.dropWhile isBlank = m := by
    rintro (_ | ⟨c, m⟩) ⟨rest, h⟩
    · rfl
    · have hc := List.head?_dropWhile_not isBlank text.toList
      rw [← h] at hc
      exact List.dropWhile_cons_of_neg (by simpa using hc)
  have hprefix : trimChars text.toList <+: text.toList.dropWhile isBlank :=
    List.rdropWhile_prefix isBlank _
  rw [trim, trim, String.toList_ofList, trimChars, hhead _ hprefix]
  exact congrArg String.ofList (List.rdropWhile_idempotent isBlank (text.toList.dropWhile isBlank))

namespace SecretSet

/-- The secrets in an order in which they may be masked: the longest first, and those of one length in
any order. -/
structure MaskOrder (s : SecretSet) (order : List String) : Prop where
  perm : order.Perm s.values
  longest : order.Pairwise fun v w => w.length ≤ v.length

theorem maskOrder_longestFirst (s : SecretSet) : s.MaskOrder s.longestFirst where
  perm := List.mergeSort_perm s.values _
  longest := by
    have htrans : ∀ u v w : String, decide (v.length ≤ u.length) = true →
        decide (w.length ≤ v.length) = true → decide (w.length ≤ u.length) = true := by
      intro u v w huv hvw
      simp only [decide_eq_true_eq] at *
      omega
    have htotal : ∀ v w : String,
        (decide (w.length ≤ v.length) || decide (v.length ≤ w.length)) = true := by
      intro v w
      simp only [Bool.or_eq_true, decide_eq_true_eq]
      omega
    exact (List.pairwise_mergeSort htrans htotal s.values).imp of_decide_eq_true

theorem MaskOrder.mem_iff {s : SecretSet} {order : List String} (h : s.MaskOrder order) (v : String) :
    v ∈ order ↔ v ∈ s.values :=
  h.perm.mem_iff

/-- A text is known after one more text exactly when it was known before or is that text without its
blanks. -/
theorem mem_add (s : SecretSet) (text v : String) :
    v ∈ (s.add text).values ↔ v ∈ s.values ∨ (v = trim text ∧ trim text ≠ "") := by
  rw [add]
  split
  · next h =>
    simp only [Bool.or_eq_true, String.isEmpty_iff, List.contains_iff_mem] at h
    constructor
    · exact .inl
    · rintro (hv | ⟨rfl, hne⟩)
      · exact hv
      · exact h.resolve_left hne
  · next h =>
    simp only [Bool.or_eq_true, String.isEmpty_iff, not_or] at h
    simp only [List.mem_append, List.mem_singleton]
    constructor
    · exact fun hv => hv.imp_right fun hv => ⟨hv, h.1⟩
    · exact fun hv => hv.imp_right And.left

/-- The secrets among texts are the texts without their blanks, except empty ones. -/
theorem mem_ofTexts (texts : List String) (v : String) :
    v ∈ (ofTexts texts).values ↔ ∃ text ∈ texts, v = trim text ∧ trim text ≠ "" := by
  induction texts using List.reverseRecOn with
  | nil => simp [ofTexts]
  | append_singleton texts text ih =>
    have hstep : ofTexts (texts ++ [text]) = (ofTexts texts).add text := by
      rw [ofTexts, ofTexts, List.foldl_append, List.foldl_cons, List.foldl_nil]
    rw [hstep, mem_add, ih]
    simp only [List.mem_append, List.mem_singleton, or_and_right, exists_or, exists_eq_left]

/-- A redacted text has no secret. -/
theorem not_infix_redact {s : SecretSet} (hs : ∀ v ∈ s.values, Maskable v) (text : String) :
    ∀ v ∈ s.values, ¬ v.toList <:+: (s.redact text).toList := by
  intro v hv
  have horder := s.maskOrder_longestFirst.mem_iff
  exact (maskAll_spec (fun u hu => hs u ((horder u).mp hu)) text).1 v ((horder v).mpr hv)

end SecretSet

/-! ### Handlers that share a draft -/

namespace Draft

def maskIn (order : List String) (d : Draft) : Draft :=
  { d with message := maskAll order d.message, failure := d.failure.map (maskAll order) }

theorem redact_eq_maskIn (s : SecretSet) (d : Draft) : d.redact s = d.maskIn s.longestFirst := rfl

/-- A masked draft is left as it is when it is masked once more, in the same or another order. -/
theorem maskIn_maskIn {s : SecretSet} (hs : ∀ v ∈ s.values, Maskable v) {order order' : List String}
    (h : s.MaskOrder order) (h' : s.MaskOrder order') (d : Draft) :
    (d.maskIn order).maskIn order' = d.maskIn order := by
  have horder : ∀ v ∈ order, Maskable v := fun v hv => hs v ((h.mem_iff v).mp hv)
  have hsub : ∀ v ∈ order', v ∈ order := fun v hv => (h.mem_iff v).mpr ((h'.mem_iff v).mp hv)
  have htext := maskAll_maskAll horder hsub
  rcases d with ⟨level, message, failure⟩
  cases failure <;> simp only [maskIn, Option.map, htext]

/-- A draft is left as it is by a second redaction. -/
theorem redact_redact {s : SecretSet} (hs : ∀ v ∈ s.values, Maskable v) (d : Draft) :
    (d.redact s).redact s = d.redact s :=
  maskIn_maskIn hs s.maskOrder_longestFirst s.maskOrder_longestFirst d

/-- The handlers of a draft all show its first redaction. -/
theorem shownBy_eq_replicate {s : SecretSet} (hs : ∀ v ∈ s.values, Maskable v) (n : Nat)
    (d : Draft) : d.shownBy (some s) n = List.replicate n (d.redact s).shown := by
  induction n generalizing d with
  | zero => rfl
  | succ n ih =>
    show (d.redact s).shown :: (d.redact s).shownBy (some s) n = _
    rw [ih, redact_redact hs, List.replicate_succ]

/-- What a handler gets to see after `k` others and itself is the first redaction. -/
theorem iterate_redact {s : SecretSet} (hs : ∀ v ∈ s.values, Maskable v) (k : Nat) (d : Draft) :
    (fun d : Draft => d.redact s)^[k + 1] d = d.redact s := by
  induction k with
  | zero => rfl
  | succ k ih => rw [Function.iterate_succ_apply', ih, redact_redact hs]

end Draft

/-! ### Logging sessions -/

/-- A record as it is raised: its arguments are still apart from its message.  With it comes the text
of the failure that it reports. -/
structure RaisedRecord where
  level : Level
  message : String
  arguments : List Value := []
  failure : Option String := none

/-- An event of a logging session. -/
inductive Notice where
  /-- A text is learned as a secret. -/
  | learned (text : String)
  /-- A record is to be shown. -/
  | raised (record : RaisedRecord)

def knownAfter (notices : List Notice) : SecretSet :=
  notices.foldl (fun s notice => match notice with
    | .learned text => s.add text
    | .raised _ => s) {}

/-- What each of some handlers shows of a record that is raised after some events, unless its message
cannot be filled in. -/
def handled (handlers : Nat) (before : List Notice) (r : RaisedRecord) :
    Except MessageFault (List String) :=
  (Message.ofRecord r.message r.arguments).map fun message =>
    Draft.shownBy (some (knownAfter before)) handlers ⟨r.level, message, r.failure⟩

/-- A text was learned as a secret: it is what was learned, without its blanks, and not empty. -/
def Learned (notices : List Notice) (secret : String) : Prop :=
  ∃ text, .learned text ∈ notices ∧ secret = trim text ∧ secret ≠ ""

/-- What is known is what was learned. -/
theorem mem_knownAfter (notices : List Notice) (v : String) :
    v ∈ (knownAfter notices).values ↔ Learned notices v := by
  induction notices using List.reverseRecOn with
  | nil => simp [knownAfter, Learned]
  | append_singleton notices notice ih =>
    have hstep : knownAfter (notices ++ [notice]) = match notice with
        | .learned text => (knownAfter notices).add text
        | .raised _ => knownAfter notices := by
      rw [knownAfter, List.foldl_append]
      rfl
    rw [hstep]
    cases notice with
    | raised record => rw [ih]; simp [Learned]
    | learned text =>
      rw [SecretSet.mem_add, ih]
      simp only [Learned, List.mem_append, List.mem_singleton, Notice.learned.injEq]
      constructor
      · rintro (⟨t, ht, h⟩ | ⟨rfl, hne⟩)
        · exact ⟨t, .inl ht, h⟩
        · exact ⟨text, .inr rfl, rfl, hne⟩
      · rintro ⟨t, ht | rfl, rfl, hne⟩
        · exact .inl ⟨t, ht, rfl, hne⟩
        · exact .inr ⟨rfl, hne⟩

/-- What is shown of a draft hides what was learned, and nothing else: nothing that was learned stands
in its message or in the text of its failure, and a message or failure in which nothing stands that was
learned is shown as it is. -/
structure Hides (before : List Notice) (d shown : Draft) : Prop where
  level : shown.level = d.level
  failure : shown.failure.isSome = d.failure.isSome
  messageHidden : ∀ secret, Learned before secret → ¬ secret.toList <:+: shown.message.toList
  failureHidden : ∀ secret, Learned before secret →
    ∀ text ∈ shown.failure, ¬ secret.toList <:+: text.toList
  messageKept : (∀ secret, Learned before secret → ¬ secret.toList <:+: d.message.toList) →
    shown.message = d.message
  failureKept : ∀ text ∈ d.failure,
    (∀ secret, Learned before secret → ¬ secret.toList <:+: text.toList) → shown.failure = some text

/-- A draft that is masked in order hides what was learned. -/
theorem hides_maskIn {before : List Notice} (hmask : ∀ secret, Learned before secret → Maskable secret)
    {order : List String} (h : (knownAfter before).MaskOrder order) (d : Draft) :
    Hides before d (d.maskIn order) := by
  have hmem (v : String) : v ∈ order ↔ Learned before v :=
    (h.mem_iff v).trans (mem_knownAfter before v)
  have hspec := maskAll_spec fun v hv => hmask v ((hmem v).mp hv)
  refine ⟨rfl, Option.isSome_map, ?_, ?_, ?_, ?_⟩
  · intro secret hsecret
    exact (hspec d.message).1 secret ((hmem secret).mpr hsecret)
  · intro secret hsecret text htext
    obtain ⟨original, -, rfl⟩ := Option.map_eq_some_iff.mp htext
    exact (hspec original).1 secret ((hmem secret).mpr hsecret)
  · intro hnone
    exact (hspec d.message).2 fun v hv => hnone v ((hmem v).mp hv)
  · intro text htext hnone
    have hkept : maskAll order text = text := (hspec text).2 fun v hv => hnone v ((hmem v).mp hv)
    show d.failure.map (maskAll order) = some text
    rw [htext, Option.map_some, hkept]

/-- **Redaction is sound and stable.**  In a session in which only texts are learned that a mask can
hide, whatever else was raised in between and however the secrets overlap: of a record whose message
can be filled in, every handler shows one and the same draft, which a further redaction leaves as it
is, and which hides what was learned and nothing else.  It does not matter in which order secrets of
one length are masked, nor whether each handler masks them in an order of its own. -/
theorem redaction_sound_stable (before : List Notice)
    (hmask : ∀ secret, Learned before secret → Maskable secret) (r : RaisedRecord)
    (message : String) (hformat : Message.ofRecord r.message r.arguments = .ok message)
    (handlers : Nat) :
    let d : Draft := ⟨r.level, message, r.failure⟩
    (∃ shown : Draft,
        handled handlers before r = .ok (List.replicate handlers shown.shown)
        ∧ (∀ k, (fun d : Draft => d.redact (knownAfter before))^[k + 1] d = shown)
        ∧ Hides before d shown)
      ∧ ∀ order, (knownAfter before).MaskOrder order →
        Hides before d (d.maskIn order)
        ∧ ∀ order', (knownAfter before).MaskOrder order' →
          (d.maskIn order).maskIn order' = d.maskIn order := by
  intro d
  have hs : ∀ v ∈ (knownAfter before).values, Maskable v := fun v hv =>
    hmask v ((mem_knownAfter before v).mp hv)
  constructor
  · refine ⟨d.redact (knownAfter before), ?_, fun k => Draft.iterate_redact hs k d, ?_⟩
    · rw [handled, hformat, ← Draft.shownBy_eq_replicate hs]
      rfl
    · rw [Draft.redact_eq_maskIn]
      exact hides_maskIn hmask (knownAfter before).maskOrder_longestFirst d
  · intro order horder
    exact ⟨hides_maskIn hmask horder d, fun order' horder' => Draft.maskIn_maskIn hs horder horder' d⟩

/-- Two overlapping secrets, one of which is learned with blanks around it, and a record that names
both in its message and one in its failure. -/
theorem redaction_sound_stable_overlap :
    let before : List Notice := [.learned " abc ", .raised ⟨.info, "%s", [], none⟩, .learned "bcd"]
    let r : RaisedRecord := ⟨.error, "token %s", [.text "abcd"], some "bad: bcd"⟩
    (∀ secret, Learned before secret → Maskable secret)
      ∧ Message.ofRecord r.message r.arguments = .ok "token abcd"
      ∧ (∃ shown : Draft, handled 2 before r = .ok [shown.shown, shown.shown]
        ∧ ¬ "bcd".toList <:+: shown.message.toList)
      ∧ Hides before ⟨.error, "token abcd", some "bad: bcd"⟩
        ⟨.error, "token a***REDACTED***", some "bad: ***REDACTED***"⟩ := by
  intro before r
  have hlearned : ∀ secret, Learned before secret → secret = "abc" ∨ secret = "bcd" := by
    rintro secret ⟨text, htext, rfl, -⟩
    simp only [before, List.mem_cons, List.not_mem_nil, or_false, Notice.learned.injEq,
      reduceCtorEq, false_or] at htext
    rcases htext with rfl | rfl
    · exact .inl (by decide)
    · exact .inr (by decide)
  have hmask : ∀ secret, Learned before secret → Maskable secret := by
    intro secret h
    rcases hlearned secret h with rfl | rfl <;> exact ⟨by decide, by decide⟩
  have hformat : Message.ofRecord r.message r.arguments = .ok "token abcd" := by decide +kernel
  obtain ⟨⟨shown, hhandled, -, hhides⟩, horders⟩ :=
    redaction_sound_stable before hmask r "token abcd" hformat 2
  -- the two secrets have one length, so that the one learned last may be masked first
  have horder : (knownAfter before).MaskOrder ["bcd", "abc"] :=
    ⟨by rw [show (knownAfter before).values = ["abc", "bcd"] by decide]; exact .swap _ _ _, by
      simp only [List.pairwise_pair]
      decide⟩
  have hmasked : (⟨.error, "token abcd", some "bad: bcd"⟩ : Draft).maskIn ["bcd", "abc"]
      = ⟨.error, "token a***REDACTED***", some "bad: ***REDACTED***"⟩ := by decide +kernel
  have hlast := (horders _ horder).1
  rw [hmasked] at hlast
  exact ⟨hmask, hformat, ⟨shown, hhandled,
    hhides.messageHidden "bcd" ⟨"bcd", by simp [before], by decide, by decide⟩⟩, hlast⟩

end SecretForge
