import SecretForge.Config.Validate
import SecretForge.Proofs.Expansion.Literal
import SecretForge.Proofs.Update.Accounting

/-!
# What expansion leaves of validity

Templates are validated as they are written, before any value is substituted, and their items are not
validated again.  A value may be empty, and then a text that consists of placeholders of its param and
nothing else disappears: an item may lose its name and an entry its command.  This is the only way.

* `Item.Sound` — the rules of validation for an item; `Config.validate_eq_ok_iff` says that a list of
  templates is accepted exactly when each of them is sound and each of its params has a value.
* `Vanishes` — a text disappears in the course of a selection; `fillText_eq_empty_iff` says that no other
  text becomes empty.
* `Item.Sound.fillText_name_iff`, `Item.Sound.fillText_cmd_iff` — when an item loses its name, and an entry
  its command.
* `performAll_parts` — what an update asks the store for comes from the command run just before.
* **`expand_sound`** — the items of accepted templates: which of them are sound, that all are when no
  value is empty, and what an update of sound items never does.
-/

namespace SecretForge

open Text Act

/-! ### Sound items -/

/-- The item has a name, and each of its named entries a command. -/
structure Item.Sound (item : Item) : Prop where
  name : item.name ≠ ""
  cmd : ∀ e ∈ item.fields ++ item.attachments, e.name ≠ "" → e.cmd ≠ ""

instance : DecidablePred Item.Sound := fun item =>
  decidable_of_iff
    (item.name ≠ "" ∧ ∀ e ∈ item.fields ++ item.attachments, e.name ≠ "" → e.cmd ≠ "")
    ⟨fun h => ⟨h.1, h.2⟩, fun h => ⟨h.name, h.cmd⟩⟩

theorem Entry.lacksCmd_eq_false_iff (e : Entry) : e.lacksCmd = false ↔ (e.name ≠ "" → e.cmd ≠ "") := by
  rw [Entry.lacksCmd, Bool.and_eq_false_iff, Bool.not_eq_false', String.isEmpty_iff,
    ← Bool.not_eq_true, String.isEmpty_iff]
  exact (imp_iff_not_or.trans (or_congr_left not_not)).symm

theorem Template.violation?_eq_none_iff {ρ : Type} {noValue : ρ → Bool} {index : Nat}
    {t : Template ρ} :
    t.violation? noValue index = none
      ↔ t.toItem.Sound ∧ ∀ p ∈ t.params, noValue p.2 = false := by
  have hentries (es : List Entry) :
      es.findIdx? Entry.lacksCmd = none ↔ ∀ e ∈ es, e.name ≠ "" → e.cmd ≠ "" := by
    rw [List.findIdx?_eq_none_iff]
    exact forall₂_congr fun e _ => e.lacksCmd_eq_false_iff
  rw [Template.violation?]
  split
  · next hname => exact iff_of_false nofun fun h => h.1.name (String.isEmpty_iff.mp hname)
  · next hname =>
    rw [String.isEmpty_iff] at hname
    simp only [Option.orElse_eq_orElse, Option.orElse_eq_or, Option.or_eq_none_iff,
      Option.map_eq_none_iff, hentries, List.find?_eq_none, Bool.not_eq_true]
    constructor
    · rintro ⟨hfields, hattachments, hparams⟩
      exact ⟨⟨hname, fun e he => (List.mem_append.mp he).elim (hfields e) (hattachments e)⟩, hparams⟩
    · rintro ⟨hsound, hparams⟩
      exact ⟨fun e he => hsound.cmd e (List.mem_append_left _ he),
        fun e he => hsound.cmd e (List.mem_append_right _ he), hparams⟩

theorem Config.violationFrom_eq_none_iff {ρ : Type} {noValue : ρ → Bool} (index : Nat)
    {ts : List (Template ρ)} :
    Config.violationFrom noValue index ts = none
      ↔ ∀ t ∈ ts, t.toItem.Sound ∧ ∀ p ∈ t.params, noValue p.2 = false := by
  induction ts generalizing index with
  | nil => simp [Config.violationFrom]
  | cons t ts ih =>
    rw [Config.violationFrom, Option.orElse_eq_orElse, Option.orElse_eq_or, Option.or_eq_none_iff,
      ih, Template.violation?_eq_none_iff, List.forall_mem_cons]

/-- **Templates are accepted** exactly when each is sound and each of its params has a value. -/
theorem Config.validate_eq_ok_iff {ρ : Type} {noValue : ρ → Bool} {ts : List (Template ρ)} :
    Config.validate noValue ts = .ok ()
      ↔ ∀ t ∈ ts, t.toItem.Sound ∧ ∀ p ∈ t.params, noValue p.2 = false := by
  rw [← Config.violationFrom_eq_none_iff 0, Config.validate]
  split <;> simp_all

/-! ### Texts that disappear -/

/-- The text with each value of a selection substituted, in order. -/
def fillText (s : Selection) (text : String) : String :=
  s.foldl (fun text c => replaceParam c.1 c.2 text) text

/-- The text disappears: when it is the turn of some param whose value is empty, it consists of one or
more copies of the placeholder of that param. -/
def Vanishes (s : Selection) (text : String) : Prop :=
  ∃ before param after n, s = before ++ (param, "") :: after
    ∧ (fillText before text).toList = copies (n + 1) (placeholder param).toList

variable {s : Selection} {text : String}

theorem replaceParam_eq_empty_iff {param value : String} :
    replaceParam param value text = ""
      ↔ text = "" ∨ value = "" ∧ ∃ n, text.toList = copies (n + 1) (placeholder param).toList := by
  have hne : (placeholder param).toList ≠ [] := by
    rw [toList_placeholder]
    exact List.cons_ne_nil _ _
  rw [replaceParam, replace, ← String.toList_eq_nil_iff, String.toList_ofList,
    replaceAll_eq_nil_iff hne, String.toList_eq_nil_iff, String.toList_eq_nil_iff]

theorem vanishes_cons {c : String × String} :
    Vanishes (c :: s) text
      ↔ (c.2 = "" ∧ ∃ n, text.toList = copies (n + 1) (placeholder c.1).toList)
        ∨ Vanishes s (replaceParam c.1 c.2 text) := by
  constructor
  · rintro ⟨before, param, after, n, hs, hcopies⟩
    cases before with
    | nil =>
      obtain ⟨rfl, rfl⟩ := List.cons.inj hs
      exact .inl ⟨rfl, n, hcopies⟩
    | cons d before =>
      obtain ⟨rfl, rfl⟩ := List.cons.inj hs
      exact .inr ⟨before, param, after, n, rfl, hcopies⟩
  · rintro (⟨hempty, n, hcopies⟩ | ⟨before, param, after, n, rfl, hcopies⟩)
    · exact ⟨[], c.1, s, n, by rw [← hempty, List.nil_append], hcopies⟩
    · exact ⟨c :: before, param, after, n, List.cons_append.symm, hcopies⟩

/-- **No other text becomes empty.** -/
theorem fillText_eq_empty_iff : fillText s text = "" ↔ text = "" ∨ Vanishes s text := by
  induction s generalizing text with
  | nil =>
    have hnot : ¬ Vanishes [] text := fun ⟨_, _, _, _, h, _⟩ => by simp at h
    simp [fillText, hnot]
  | cons c s ih =>
    show fillText s (replaceParam c.1 c.2 text) = "" ↔ _
    rw [ih, replaceParam_eq_empty_iff, vanishes_cons, or_assoc]

/-- A text disappears only with an empty value. -/
theorem Vanishes.empty_mem (h : Vanishes s text) : ∃ param, (param, "") ∈ s := by
  obtain ⟨before, param, after, -, rfl, -⟩ := h
  exact ⟨param, List.mem_append_right before List.mem_cons_self⟩

section

variable {item : Item} (h : item.Sound)

include h

/-- A sound item loses its name only when the name disappears. -/
theorem Item.Sound.fillText_name_iff : fillText s item.name = "" ↔ Vanishes s item.name :=
  fillText_eq_empty_iff.trans (or_iff_right h.name)

/-- An entry that is named afterwards was named, and loses its command only when the command
disappears. -/
theorem Item.Sound.fillText_cmd_iff {e : Entry} (he : e ∈ item.fields ++ item.attachments)
    (hnamed : fillText s e.name ≠ "") : fillText s e.cmd = "" ↔ Vanishes s e.cmd := by
  have hname : e.name ≠ "" := fun hempty => hnamed (fillText_eq_empty_iff.mpr (.inl hempty))
  exact fillText_eq_empty_iff.trans (or_iff_right (h.cmd e he hname))

/-- **An item from which nothing disappears stays sound.** -/
theorem Item.Sound.mapTexts (hstays : ∀ text, ¬ Vanishes s text) :
    (item.mapTexts (fillText s)).Sound where
  name hempty := hstays _ (h.fillText_name_iff.mp hempty)
  cmd e he hnamed hempty := by
    have hentries : (item.mapTexts (fillText s)).fields ++ (item.mapTexts (fillText s)).attachments
        = (item.fields ++ item.attachments).map (·.mapTexts (fillText s)) := List.map_append.symm
    rw [hentries] at he
    obtain ⟨original, horiginal, rfl⟩ := List.mem_map.mp he
    exact hstays _ ((h.fillText_cmd_iff horiginal hnamed).mp hempty)

end

/-! ### Where uploads come from -/

/-- The calls that a task of a named item can take: its command alone, its command and the store with
what the command has just written, or the store with a text that needs no command. -/
inductive Task.Takes : String × Task → List Call → Prop where
  | stopped (item : String) (place : Place) (command : String) (stop : Stop CommandFailure) :
    Takes (item, .produce place command) [.ran command (.error stop)]
  | uploaded (item : String) (place : Place) (command : String) (output : List UInt8)
      (answer : Except (Stop StoreFailure) Unit) :
    Takes (item, .produce place command)
      [.ran command (.ok output), .stored ⟨item, place.assign output⟩ answer]
  | annotated (item text : String) (answer : Except (Stop StoreFailure) Unit) :
    Takes (item, .annotate text) [.stored ⟨item, .notes text⟩ answer]

def Assignment.named? : Assignment → Option (String × List UInt8)
  | .field name value => some (name, value)
  | .attachment name value => some (name, value)
  | _ => none

/-- A command whose output is set under a name is the command of an entry of that name. -/
theorem Item.mem_of_produce_mem {item : Item} {place : Place} {command name : String}
    {output value : List UInt8} (h : .produce place command ∈ item.tasks)
    (hnamed : (place.assign output).named? = some (name, value)) :
    value = output ∧ ⟨name, command⟩ ∈ item.fields ++ item.attachments := by
  have hmem :
      Task.produce place command ∈ item.fields.map (fun e => .produce (.field e.name) e.cmd)
      ∨ Task.produce place command ∈ item.attachments.map (fun e => .produce (.attachment e.name) e.cmd)
      ∨ place = .password := by
    rw [Item.tasks, List.mem_append, List.mem_append, List.mem_append] at h
    rcases h with ((h | h) | h) | h
    · exact .inl h
    · exact .inr (.inl h)
    · split at h <;> simp_all
    · split at h <;> simp at h
  rcases hmem with h | h | rfl
  · obtain ⟨e, he, hproduce⟩ := List.mem_map.mp h
    obtain ⟨rfl, rfl⟩ := Task.produce.inj hproduce
    obtain ⟨rfl, rfl⟩ := Prod.mk.inj (Option.some.inj hnamed)
    exact ⟨rfl, List.mem_append_left _ he⟩
  · obtain ⟨e, he, hproduce⟩ := List.mem_map.mp h
    obtain ⟨rfl, rfl⟩ := Task.produce.inj hproduce
    obtain ⟨rfl, rfl⟩ := Prod.mk.inj (Option.some.inj hnamed)
    exact ⟨rfl, List.mem_append_right _ he⟩
  · cases hnamed

/-- The call to the store among those of a task. -/
theorem Task.Takes.upload {item : String} {task : Task} {front back : List Call} {op : Operation}
    {answer : Except (Stop StoreFailure) Unit}
    (h : Task.Takes (item, task) (front ++ .stored op answer :: back)) :
    (∃ place command output, task = .produce place command ∧ front = [.ran command (.ok output)]
        ∧ op = ⟨item, place.assign output⟩)
      ∨ ∃ text, task = .annotate text ∧ front = [] ∧ op = ⟨item, .notes text⟩ := by
  generalize hcalls : front ++ .stored op answer :: back = calls at h
  cases h with
  | stopped _ place command stop => cases front <;> simp at hcalls
  | uploaded _ place command output answer' =>
    cases front with
    | nil => simp at hcalls
    | cons call front =>
      cases front with
      | nil =>
        obtain ⟨rfl, hstored⟩ := List.cons.inj hcalls
        obtain ⟨rfl, -⟩ := Call.stored.inj (List.cons.inj hstored).1
        exact .inl ⟨place, command, output, rfl, rfl, rfl⟩
      | cons call' front => simp at hcalls
  | annotated _ text answer' =>
    cases front with
    | nil =>
      obtain ⟨rfl, -⟩ := Call.stored.inj (List.cons.inj hcalls).1
      exact .inr ⟨text, rfl, rfl, rfl⟩
    | cons call front => simp at hcalls

section

variable {σ : Type} (shell : Shell σ) (store : Store σ)

/-- Whatever the shell and the store answer, and also when the user breaks the task off. -/
theorem perform_takes (item : String) (task : Task) (o : Observed σ) :
    ∃ calls, Task.Takes (item, task) calls
      ∧ (perform shell.observed store.observed item task o).state.calls = o.calls ++ calls := by
  cases task with
  | produce place command =>
    simp only [perform, log_bind_run]
    rcases command_ends shell command o with ⟨failure | output, hresult, hcalls⟩ | ⟨hresult, hcalls, -⟩
    · rw [bind_run_of_result hresult]
      exact ⟨_, .stopped item place command (.failed failure), hcalls⟩
    · rw [bind_run_of_result hresult]
      simp only
      rw [bind_state (by rintro (failure | _) t <;> rfl)]
      -- the store is asked for the output, whatever it answers
      rcases offer_ends store ⟨item, place.assign output⟩
          (Act.settle (execute shell.observed command) o).state
        with ⟨answer, -, hstored⟩ | ⟨-, hstored, -⟩
      all_goals
        rw [hstored, hcalls, List.append_assoc]
        exact ⟨_, .uploaded item place command output _, rfl⟩
    · rw [bind_run_of_failure hresult]
      exact ⟨_, .stopped item place command .interrupted, hcalls⟩
  | annotate text =>
    simp only [perform, log_bind_run]
    rw [bind_state (by rintro (failure | _) t <;> rfl), offer_run]
    exact ⟨_, .annotated item text _, rfl⟩

/-- **The calls of an update are those of its tasks**, also when it is broken off. -/
theorem performAll_parts (tasks : List (String × Task)) (o : Observed σ) :
    ∃ parts : List (List Call), (∀ part ∈ parts, ∃ task ∈ tasks, Task.Takes task part)
      ∧ (performAll shell.observed store.observed tasks o).state.calls
        = o.calls ++ parts.flatten := by
  induction tasks generalizing o with
  | nil => exact ⟨[], by simp, (List.append_nil _).symm⟩
  | cons entry tasks ih =>
    obtain ⟨item, task⟩ := entry
    obtain ⟨calls, htakes, hcalls⟩ := perform_takes shell store item task o
    rw [performAll]
    rcases h : perform shell.observed store.observed item task o with ⟨stop | failure, es, t⟩
    · refine ⟨[calls], by simpa using .inl htakes, ?_⟩
      rw [bind_run_error h, List.flatten_singleton, ← hcalls, h]
    · obtain ⟨parts, hparts, hrest⟩ := ih t
      refine ⟨calls :: parts, fun part hpart => ?_, ?_⟩
      · rcases List.mem_cons.mp hpart with rfl | hpart
        · exact ⟨_, List.mem_cons_self, htakes⟩
        · obtain ⟨entry, hentry, htakes⟩ := hparts part hpart
          exact ⟨entry, List.mem_cons_of_mem _ hentry, htakes⟩
      · rw [h] at hcalls
        simp only [bind_run_ok h]
        rw [bind_state fun _ _ => rfl, hrest, hcalls, List.flatten_cons, List.append_assoc]

/-- An element of joined parts stands in one of them, behind all of it that comes before. -/
theorem exists_part_of_flatten {α : Type} {parts : List (List α)} {before after : List α} {x : α}
    (h : parts.flatten = before ++ x :: after) :
    ∃ part ∈ parts, ∃ earlier front back, part = front ++ x :: back ∧ before = earlier ++ front := by
  induction parts generalizing before with
  | nil => simp at h
  | cons part parts ih =>
    rw [List.flatten_cons, List.append_eq_append_iff] at h
    rcases h with ⟨rest, rfl, hrest⟩ | ⟨rest, hpart, hrest⟩
    · obtain ⟨part', hmem, earlier, front, back, hpart, rfl⟩ := ih hrest
      exact ⟨part', List.mem_cons_of_mem _ hmem, part ++ earlier, front, back, hpart,
        (List.append_assoc _ _ _).symm⟩
    · cases rest with
      | nil =>
        obtain ⟨part', hmem, earlier, front, back, hpart', hearlier⟩ := @ih [] hrest.symm
        obtain ⟨rfl, rfl⟩ := List.append_eq_nil_iff.mp hearlier.symm
        exact ⟨part', List.mem_cons_of_mem _ hmem, before, [], back, hpart', (List.append_nil _).symm⟩
      | cons y rest =>
        obtain ⟨rfl, -⟩ := List.cons.inj hrest
        exact ⟨part, List.mem_cons_self, [], before, rest, hpart, rfl⟩

/-- **What is uploaded under a name** is what the command of an entry of that name of the addressed item
wrote just before. -/
theorem update_upload (items : List Item) (s : σ) {before after : List Call} {op : Operation}
    {answer : Except (Stop StoreFailure) Unit}
    (h : (update shell.observed store.observed items ⟨s, []⟩).state.calls
      = before ++ .stored op answer :: after) :
    ∃ item ∈ items, op.item = item.name ∧ ∀ name value, op.assignment.named? = some (name, value) →
      ∃ earlier command, before = earlier ++ [.ran command (.ok value)]
        ∧ ⟨name, command⟩ ∈ item.fields ++ item.attachments := by
  obtain ⟨parts, hparts, hcalls⟩ := performAll_parts shell store
    (items.flatMap fun item => item.tasks.map fun task => (item.name, task)) ⟨s, []⟩
  rw [update, hcalls, List.nil_append] at h
  obtain ⟨part, hpart, earlier, front, back, hsplit, rfl⟩ := exists_part_of_flatten h
  obtain ⟨declared, hdeclared, htakes⟩ := hparts part hpart
  obtain ⟨item, hitem, hentry⟩ := List.mem_flatMap.mp hdeclared
  obtain ⟨task, htask, rfl⟩ := List.mem_map.mp hentry
  rw [hsplit] at htakes
  rcases htakes.upload with ⟨place, command, output, rfl, rfl, rfl⟩ | ⟨text, rfl, rfl, rfl⟩
  · refine ⟨item, hitem, rfl, fun name value hnamed => ?_⟩
    obtain ⟨rfl, hmem⟩ := Item.mem_of_produce_mem htask hnamed
    exact ⟨earlier, command, rfl, hmem⟩
  · exact ⟨item, hitem, rfl, nofun⟩

end

/-! ### The expansion of accepted templates -/

/-- A sound item stays sound when no param has an empty value. -/
theorem Item.Sound.fill {item : Item} (h : item.Sound) {params : List (String × List String)}
    (hvalues : ∀ p ∈ params, "" ∉ p.2) (hs : s ∈ selections params) :
    (item.mapTexts (fillText s)).Sound := by
  refine h.mapTexts fun text hvanishes => ?_
  obtain ⟨param, hparam⟩ := hvanishes.empty_mem
  obtain ⟨p, hp, -, hvalue⟩ := exists_param_of_mem hs hparam
  exact hvalues p hp hvalue

/-- **The items of accepted templates.**  They all expand, and their items are the templates with each
selection substituted.  An item loses its name, and an entry that is named afterwards its command, exactly
when the text disappears in the course of the selection; so every item is sound when no param has an empty
value.  Whatever the shell and the store answer, each operation that an update of the items asks for
addresses one of them; if that item is sound, the operation addresses no empty name, and what it uploads
under a name is what a command that is not empty wrote just before. -/
theorem expand_sound {σ : Type} (ts : List (Template (List String)))
    (haccepted : Config.validate List.isEmpty ts = .ok ()) (s : σ) :
    ∃ items, ((expandAll Range.ofTexts ts : Act σ Interrupted _) s).result = .ok (items, [])
      ∧ items = (ts.flatMap fun t => (selections t.params).map fun sel => t.fill sel)
      ∧ (∀ t ∈ ts, ∀ sel ∈ selections t.params,
        (t.fill sel).toItem = t.toItem.mapTexts (fillText sel)
        ∧ (fillText sel t.name = "" ↔ Vanishes sel t.name)
        ∧ ∀ e ∈ t.fields ++ t.attachments, fillText sel e.name ≠ "" →
          (fillText sel e.cmd = "" ↔ Vanishes sel e.cmd))
      ∧ ((∀ t ∈ ts, ∀ p ∈ t.params, "" ∉ p.2) → ∀ item ∈ items, item.toItem.Sound)
      ∧ ∀ (shell : Shell σ) (store : Store σ) (before after : List Call) (op : Operation)
          (answer : Except (Stop StoreFailure) Unit),
        (update shell.observed store.observed (items.map (·.toItem)) ⟨s, []⟩).state.calls
            = before ++ .stored op answer :: after →
        ∃ item ∈ items, op.item = item.name ∧ (item.toItem.Sound → op.item ≠ ""
          ∧ ∀ name value, op.assignment.named? = some (name, value) → name ≠ "" →
            ∃ earlier command, before = earlier ++ [.ran command (.ok value)] ∧ command ≠ "") := by
  have hsound := Config.validate_eq_ok_iff.mp haccepted
  have hfill (t : Template (List String)) (sel : Selection) :
      (t.fill sel).toItem = t.toItem.mapTexts (fillText sel) := by
    rw [t.fill_eq sel]
    exact t.toItem.fill_eq_mapTexts sel
  refine ⟨_, (expandAll_ofTexts ts s).1, rfl, fun t ht sel _ => ?_, fun hvalues item hitem => ?_, ?_⟩
  · have ht := (hsound t ht).1
    exact ⟨hfill t sel, ht.fillText_name_iff, fun e he hnamed => ht.fillText_cmd_iff he hnamed⟩
  · obtain ⟨t, ht, hitem⟩ := List.mem_flatMap.mp hitem
    obtain ⟨sel, hsel, rfl⟩ := List.mem_map.mp hitem
    rw [hfill t sel]
    exact (hsound t ht).1.fill (hvalues t ht) hsel
  · intro shell store before after op answer hcalls
    obtain ⟨_, hmem, haddress, hupload⟩ := update_upload shell store _ s hcalls
    obtain ⟨item, hitem, rfl⟩ := List.mem_map.mp hmem
    refine ⟨item, hitem, haddress, fun hkept => ⟨haddress ▸ hkept.name, ?_⟩⟩
    intro name value hnamed hname
    obtain ⟨earlier, command, hbefore, hentry⟩ := hupload name value hnamed
    exact ⟨earlier, command, hbefore, hkept.cmd _ hentry hname⟩

/-- A template with an optional ending of its name and a command that may be left empty. -/
def optionalTemplate : Template (List String) where
  name := "db$(zone)"
  fields := [⟨"token", "$(how)$(how)"⟩]
  params := [("zone", ["", "-eu"]), ("how", ["make", ""])]

/-- An empty value is no harm to a name that has other parts, and takes a command that has none. -/
theorem expand_sound_optional :
    Config.validate List.isEmpty [optionalTemplate] = .ok ()
      ∧ ¬ Vanishes [("zone", ""), ("how", "")] optionalTemplate.name
      ∧ ¬ Vanishes [("zone", ""), ("how", "make")] "$(how)$(how)"
      ∧ Vanishes [("zone", ""), ("how", "")] "$(how)$(how)" := by
  have haccepted : Config.validate List.isEmpty [optionalTemplate] = .ok () := by decide
  obtain ⟨items, -, -, hitems, -⟩ :=
    expand_sound (σ := List Operation) [optionalTemplate] haccepted []
  have hentry : ⟨"token", "$(how)$(how)"⟩ ∈ optionalTemplate.fields ++ optionalTemplate.attachments := by
    decide
  obtain ⟨-, hname, hlost⟩ := hitems optionalTemplate (by decide) [("zone", ""), ("how", "")] (by decide)
  obtain ⟨-, -, hkept⟩ :=
    hitems optionalTemplate (by decide) [("zone", ""), ("how", "make")] (by decide)
  exact ⟨haccepted, fun h => absurd (hname.mpr h) (by decide +kernel),
    fun h => absurd ((hkept _ hentry (by decide +kernel)).mpr h) (by decide +kernel),
    (hlost _ hentry (by decide +kernel)).mp (by decide +kernel)⟩

/-- A template whose name and command consist of one placeholder each, with an empty value. -/
def emptiedTemplate : Template (List String) where
  name := "$(a)"
  fields := [⟨"x", "$(a)"⟩]
  params := [("a", [""])]

/-- A shell in which every command succeeds and writes nothing. -/
def silentShell : Shell (List Operation) := Shell.ofAnswers fun _ => .ended [] 0

/-- **An accepted template may lose its name and a command.**  The update runs the empty command and
hands its output to the store, as a named field of an item without a name. -/
theorem expand_emptied :
    Config.validate List.isEmpty [emptiedTemplate] = .ok ()
      ∧ ∃ item : Template (List String),
        ((expandAll Range.ofTexts [emptiedTemplate] : Act (List Operation) Interrupted _) []).result
            = .ok ([item], [])
        ∧ item.name = "" ∧ item.fields = [⟨"x", ""⟩]
        ∧ (update silentShell.observed (Recorder.store []).observed [item.toItem] ⟨[], []⟩).state.calls
          = [.ran "" (.ok []), .stored ⟨"", .field "x" []⟩ (.ok ())] :=
  ⟨by decide, { name := "", fields := [⟨"x", ""⟩], params := [("a", [""])] }, by rfl, rfl, rfl, rfl⟩

end SecretForge
