import Mathlib.Data.Prod.Lex
import SecretForge.Proofs.Expansion.Validity

/-!
# The first rule that is broken

Templates may break many rules at once, and only one of them is reported.  It is the one at the least
place: the places of a template come before those of the templates after it, and within a template the
name comes before the fields, the fields before the attachments and these before the params.  A report
names the place, so that it must be the place itself which is searched and not one of another section.

* `Location`, `Location.key` — where a rule can be broken, and the order of places.
* `Template.Breaks` — a rule is broken at a place of a template, with the report that this should have;
  `Config.Breaks` is the same of a list of templates.
* `violation?_least` — what is reported of one template; `violationFrom_least` — of many, by induction.
* **`validate_reports_least`** — templates are accepted, or the report is that of the least place.
-/

namespace SecretForge

/-! ### Locations -/

/-- A part of a template in which a rule can be broken. -/
inductive Part where
  | name
  | entries (inSection : Section)
  | params
  deriving DecidableEq, Repr

def Part.turn : Part → Nat
  | .name => 0
  | .entries .fields => 1
  | .entries .attachments => 2
  | .params => 3

/-- A place in a list of templates: the index of the template, the part, and the position in it. -/
structure Location where
  index : Nat
  part : Part
  position : Nat

theorem Part.turn_injective : Function.Injective Part.turn := by
  rintro (_ | ⟨_ | _⟩ | _) (_ | ⟨_ | _⟩ | _) h <;> simp_all [turn]

namespace Location

/-- What places are ordered by: first the template, then the part, then the position. -/
def key (p : Location) : ℕ ×ₗ ℕ ×ₗ ℕ := toLex (p.index, toLex (p.part.turn, p.position))

theorem key_injective : Function.Injective key := by
  rintro ⟨i, part, j⟩ ⟨i', part', j'⟩ h
  have houter : (i, toLex (part.turn, j)) = (i', toLex (part'.turn, j')) := toLex.injective h
  obtain ⟨rfl, hrest⟩ := Prod.mk.inj houter
  have hinner : (part.turn, j) = (part'.turn, j') := toLex.injective hrest
  obtain ⟨hturn, rfl⟩ := Prod.mk.inj hinner
  rw [Part.turn_injective hturn]

instance : LinearOrder Location := LinearOrder.lift' key key_injective

theorem le_of_index {p q : Location} (h : p.index < q.index) : p ≤ q :=
  Prod.Lex.toLex_le_toLex.mpr (.inl h)

variable {i j k : Nat} {part part' : Part}

theorem le_of_turn (h : part.turn < part'.turn) : (⟨i, part, j⟩ : Location) ≤ ⟨i, part', k⟩ :=
  Prod.Lex.toLex_le_toLex.mpr (.inr ⟨rfl, Prod.Lex.toLex_le_toLex.mpr (.inl h)⟩)

theorem le_of_position (h : j ≤ k) : (⟨i, part, j⟩ : Location) ≤ ⟨i, part, k⟩ :=
  Prod.Lex.toLex_le_toLex.mpr (.inr ⟨rfl, Prod.Lex.toLex_le_toLex.mpr (.inr ⟨rfl, h⟩)⟩)

end Location

/-! ### Rules that are broken -/

def Item.entries (item : Item) : Section → List Entry
  | .fields => item.fields
  | .attachments => item.attachments

/-- The template at an index breaks a rule at a position of a part, which is to be reported so. -/
inductive Template.Breaks (t : Template (List String)) (index : Nat) : Part → Nat → String → Prop
  | name (hname : t.name = "") :
    Breaks t index .name 0 s!"config[{index}].item_name: empty key is not allowed"
  | cmd {inSection : Section} {position : Nat} {e : Entry}
    (he : (t.entries inSection)[position]? = some e) (hname : e.name ≠ "") (hcmd : e.cmd = "") :
    Breaks t index (.entries inSection) position
      (s!"config[{index}].{inSection.name}[{position}]: "
        ++ "empty field not allowed for cmd if name is specified")
  | values {position : Nat} {p : String × List String} (hp : t.params[position]? = some p)
    (hempty : p.2 = []) :
    Breaks t index .params position
      s!"at least one argument required for param: {p.1}, item_name: {t.name}"

/-- A rule is broken at a place of a list of templates. -/
def Config.Breaks (ts : List (Template (List String))) (p : Location) (report : String) : Prop :=
  ∃ t, ts[p.index]? = some t ∧ t.Breaks p.index p.part p.position report

variable {t : Template (List String)} {index : Nat}

/-- There is one report for a place. -/
theorem Template.Breaks.unique {part : Part} {position : Nat} {report report' : String}
    (h : t.Breaks index part position report) (h' : t.Breaks index part position report') :
    report = report' := by
  cases h with
  | name => cases h'; rfl
  | cmd => cases h'; rfl
  | values hp =>
    cases h' with
    | values hp' =>
      rw [hp] at hp'
      cases hp'
      rfl

/-- A template that breaks a rule is not accepted. -/
theorem Template.Breaks.violation {part : Part} {position : Nat} {report : String}
    (h : t.Breaks index part position report) : t.violation? List.isEmpty index ≠ none := by
  intro hnone
  obtain ⟨hsound, hvalues⟩ := Template.violation?_eq_none_iff.mp hnone
  cases h with
  | name hname => exact hsound.name hname
  | @cmd inSection position e he hname hcmd =>
    have hmem : e ∈ t.fields ++ t.attachments := by
      have he := List.mem_of_getElem? he
      cases inSection with
      | fields => exact List.mem_append_left _ he
      | attachments => exact List.mem_append_right _ he
    exact hsound.cmd e hmem hname hcmd
  | @values position p hp hempty =>
    have := hvalues p (List.mem_of_getElem? hp)
    rw [hempty] at this
    cases this

/-! ### What is reported -/

theorem Entry.lacksCmd_iff (e : Entry) : e.lacksCmd = true ↔ e.name ≠ "" ∧ e.cmd = "" := by
  rw [Entry.lacksCmd, Bool.and_eq_true, Bool.not_eq_true', String.isEmpty_iff, ← Bool.not_eq_true,
    String.isEmpty_iff]

/-- The entry that is found has a name and no command, and no entry before it is so. -/
theorem findIdx?_lacksCmd {es : List Entry} {j : Nat} (h : es.findIdx? Entry.lacksCmd = some j) :
    (∃ e, es[j]? = some e ∧ e.name ≠ "" ∧ e.cmd = "")
      ∧ ∀ k e, es[k]? = some e → e.name ≠ "" → e.cmd = "" → j ≤ k := by
  obtain ⟨hj, hlacks, hbefore⟩ := List.findIdx?_eq_some_iff_getElem.mp h
  refine ⟨⟨es[j], List.getElem?_eq_getElem hj, (es[j].lacksCmd_iff).mp hlacks⟩, ?_⟩
  intro k e he hname hcmd
  obtain ⟨hk, rfl⟩ := List.getElem?_eq_some_iff.mp he
  exact Nat.le_of_not_lt fun hlt => hbefore k hlt ((es[k].lacksCmd_iff).mpr ⟨hname, hcmd⟩)

theorem not_lacks_of_findIdx? {es : List Entry} (h : es.findIdx? Entry.lacksCmd = none) {k : Nat}
    {e : Entry} (he : es[k]? = some e) (hname : e.name ≠ "") : e.cmd ≠ "" := fun hcmd => by
  have hnot := List.findIdx?_eq_none_iff.mp h e (List.mem_of_getElem? he)
  rw [(e.lacksCmd_iff).mpr ⟨hname, hcmd⟩] at hnot
  cases hnot

/-- **One template**: what is reported is broken at a place before which nothing is broken. -/
theorem Template.violation?_least {v : Violation} (h : t.violation? List.isEmpty index = some v) :
    ∃ part position, t.Breaks index part position v.message
      ∧ ∀ part' position' report, t.Breaks index part' position' report →
          (⟨index, part, position⟩ : Location) ≤ ⟨index, part', position'⟩ := by
  rw [Template.violation?] at h
  split at h
  · next hname =>
    cases h
    refine ⟨.name, 0, .name (String.isEmpty_iff.mp hname), fun part' position' report hother => ?_⟩
    cases hother with
    | name => exact le_rfl
    | @cmd inSection =>
      exact Location.le_of_turn (by cases inSection <;> decide)
    | values => exact Location.le_of_turn (by decide)
  · next hname =>
    rw [String.isEmpty_iff] at hname
    simp only [Option.orElse_eq_orElse, Option.orElse_eq_or, Option.or_eq_some_iff,
      Option.map_eq_some_iff, Option.map_eq_none_iff] at h
    rcases h with ⟨j, hfields, rfl⟩ | ⟨hfields, ⟨j, hattachments, rfl⟩ | ⟨hattachments, p, hp, rfl⟩⟩
    · obtain ⟨⟨e, he, hbroken⟩, hbefore⟩ := findIdx?_lacksCmd hfields
      refine ⟨.entries .fields, j, .cmd he hbroken.1 hbroken.2, fun part' position' report hother => ?_⟩
      cases hother with
      | name h => exact absurd h hname
      | @cmd inSection k e he hname hcmd =>
        cases inSection with
        | fields => exact Location.le_of_position (hbefore _ e he hname hcmd)
        | attachments => exact Location.le_of_turn (by decide)
      | values => exact Location.le_of_turn (by decide)
    · obtain ⟨⟨e, he, hbroken⟩, hbefore⟩ := findIdx?_lacksCmd hattachments
      refine ⟨.entries .attachments, j, .cmd he hbroken.1 hbroken.2,
        fun part' position' report hother => ?_⟩
      cases hother with
      | name h => exact absurd h hname
      | @cmd inSection k e he hname hcmd =>
        cases inSection with
        | fields => exact absurd hcmd (not_lacks_of_findIdx? hfields he hname)
        | attachments => exact Location.le_of_position (hbefore _ e he hname hcmd)
      | values => exact Location.le_of_turn (by decide)
    · obtain ⟨hempty, j, hj, rfl, hbefore⟩ := List.find?_eq_some_iff_getElem.mp hp
      refine ⟨.params, j, .values (List.getElem?_eq_getElem hj) (List.isEmpty_iff.mp hempty),
        fun part' position' report hother => ?_⟩
      cases hother with
      | name h => exact absurd h hname
      | @cmd inSection k e he hname hcmd =>
        cases inSection with
        | fields => exact absurd hcmd (not_lacks_of_findIdx? hfields he hname)
        | attachments => exact absurd hcmd (not_lacks_of_findIdx? hattachments he hname)
      | @values k q hq hempty =>
        obtain ⟨hk, rfl⟩ := List.getElem?_eq_some_iff.mp hq
        refine Location.le_of_position (Nat.le_of_not_lt fun hlt => ?_)
        have hnot := hbefore _ hlt
        rw [hempty] at hnot
        cases hnot

namespace Config

/-- **Many templates**, the first of which has the given index. -/
theorem violationFrom_least {ts : List (Template (List String))} {v : Violation}
    (h : violationFrom List.isEmpty index ts = some v) :
    ∃ (p : Location) (t : Template (List String)), (t, p.index) ∈ ts.zipIdx index
      ∧ t.Breaks p.index p.part p.position v.message
      ∧ ∀ (q : Location) (u : Template (List String)) (other : String), (u, q.index) ∈ ts.zipIdx index →
          u.Breaks q.index q.part q.position other → p ≤ q := by
  induction ts generalizing index with
  | nil => cases h
  | cons t ts ih =>
    rw [violationFrom, Option.orElse_eq_orElse, Option.orElse_eq_or, Option.or_eq_some_iff] at h
    simp only [List.zipIdx_cons, List.mem_cons, Prod.mk.injEq]
    rcases h with hfirst | ⟨hfirst, hrest⟩
    · obtain ⟨part, position, hbreaks, hleast⟩ := Template.violation?_least hfirst
      refine ⟨⟨index, part, position⟩, t, .inl ⟨rfl, rfl⟩, hbreaks, ?_⟩
      rintro ⟨i, part', position'⟩ u other (⟨rfl, rfl⟩ | hu) hother
      · exact hleast _ _ _ hother
      · exact Location.le_of_index (List.mem_zipIdx hu).1
    · obtain ⟨p, u, hu, hbreaks, hleast⟩ := ih hrest
      refine ⟨p, u, .inr hu, hbreaks, ?_⟩
      rintro q w other (⟨rfl, hindex⟩ | hw) hother
      · -- the first template breaks no rule
        rw [hindex] at hother
        exact absurd hfirst hother.violation
      · exact hleast q w other hw hother

/-- **Templates are accepted, or the least violation is reported.**  They are accepted exactly when each
has a name, each of its named fields and attachments a command, and each of its params a value.
Otherwise the report is that of the place before which no rule is broken. -/
theorem validate_reports_least (ts : List (Template (List String))) :
    (validate List.isEmpty ts = .ok ()
      ↔ ∀ t ∈ ts, t.name ≠ "" ∧ (∀ e ∈ t.fields ++ t.attachments, e.name ≠ "" → e.cmd ≠ "")
        ∧ ∀ p ∈ t.params, p.2 ≠ [])
      ∧ ∀ report, (validate List.isEmpty ts).mapError Violation.message = .error report
        ↔ ∃ p, Breaks ts p report ∧ ∀ q other, Breaks ts q other → p ≤ q := by
  constructor
  · rw [validate_eq_ok_iff]
    refine forall₂_congr fun t _ => ⟨fun h => ⟨h.1.name, h.1.cmd, fun p hp hempty => ?_⟩,
      fun h => ⟨⟨h.1, h.2.1⟩, fun p hp => ?_⟩⟩
    · have := h.2 p hp
      rw [hempty] at this
      cases this
    · simpa using h.2.2 p hp
  · intro report
    have hmem (p : Location) (t : Template (List String)) :
        (t, p.index) ∈ ts.zipIdx ↔ ts[p.index]? = some t := List.mem_zipIdx_iff_getElem?
    rw [validate]
    cases hfrom : violationFrom List.isEmpty 0 ts with
    | none =>
      refine iff_of_false (by rintro ⟨⟩) ?_
      rintro ⟨p, ⟨t, ht, hbreaks⟩, -⟩
      have hkept := (violationFrom_eq_none_iff 0).mp hfrom t (List.mem_of_getElem? ht)
      exact hbreaks.violation (Template.violation?_eq_none_iff.mpr hkept)
    | some v =>
      obtain ⟨p, t, ht, hbreaks, hleast⟩ := violationFrom_least hfrom
      have hat : Breaks ts p v.message := ⟨t, (hmem p t).mp ht, hbreaks⟩
      have hfirst (q : Location) (other : String) (h : Breaks ts q other) : p ≤ q := by
        obtain ⟨u, hu, hother⟩ := h
        exact hleast q u other ((hmem q u).mpr hu) hother
      constructor
      · rintro ⟨⟩
        exact ⟨p, hat, hfirst⟩
      · -- there is one least place and one report for it
        rintro ⟨q, hq, hqleast⟩
        obtain rfl := le_antisymm (hfirst q report hq) (hqleast p _ hat)
        obtain ⟨u, hu, hother⟩ := hq
        rw [(hmem p t).mp ht] at hu
        cases hu
        exact congrArg Except.error (hbreaks.unique hother)

end Config

end SecretForge
