import SecretForge.Proofs.CommandLine.Trace
import SecretForge.Proofs.Redaction
import SecretForge.Proofs.Store.Trace

/-!
# What a run keeps secret

A record is shown with the secrets hidden that are known at that point of the run, so what a run keeps
secret is settled by the order of its events: a text is known before the first record that could hold it.
The text of the key file is known as soon as it is read, the keys in it as soon as it is parsed, and a
value that is handed to a server before the server is asked for anything.

* `Announced` — a property of traces: a value that is handed to the store is known right after.
* `written_append`, `errors_of_split` — a record is shown with what is known up to it.
* `Guarded` — the texts that a run must not show at a point of its trace.
* **`run_hides_guarded`** — no record of a run, whatever its arguments, files, commands and server, shows a
  guarded text.
-/

namespace SecretForge.CommandLine

open Act Text

/-! ### Values that are known as soon as they are handed over -/

/-- A value that is handed to the store is known right after. -/
def Announced (es : List Event) : Prop :=
  ∀ front op back, es = front ++ .offered op :: back → ∀ text, op.assignment.secret? = some text →
    ∃ rest, back = .learned text :: rest

theorem announced_of_not_offered {es : List Event} (h : ∀ op, .offered op ∉ es) : Announced es :=
  fun _ op _ hes => absurd (hes ▸ List.mem_append_right _ List.mem_cons_self) (h op)

theorem joins_announced : Joins Announced where
  nil := announced_of_not_offered fun _ => List.not_mem_nil
  append := by
    intro es fs hes hfs front op back hsplit text htext
    rcases List.append_eq_append_iff.mp hsplit with ⟨early, rfl, hlate⟩ | ⟨late, hearly, hlate⟩
    · exact hfs early op back hlate text htext
    · cases late with
      | nil => exact hfs [] op back hlate.symm text htext
      | cons e late =>
        obtain ⟨rfl, rfl⟩ := List.cons.inj hlate
        obtain ⟨rest, rfl⟩ := hes front op late hearly text htext
        exact ⟨rest ++ fs, rfl⟩

/-- An operation handed to an announcing store. -/
theorem offer_announced {store : Store System} (hstore : Announcing store) (op : Operation) :
    Emits Announced (offer store op) := by
  obtain ⟨settings, hannounces, rfl⟩ := hstore
  intro t
  obtain ⟨logs, hevents, hlogs⟩ := Versioned.apply_events settings op ⟨t.session, t.server⟩
  have hoffer : (offer (liveStore settings) op t).events
      = .offered op :: (op.assignment.secret?.toList.map .learned ++ logs) := by
    rw [offer, emit_bind_run, settle_run]
    simp only [Versioned.announcement, hannounces, if_pos] at hevents
    rw [← hevents]
    rfl
  rw [hoffer]
  intro front op' back hsplit text htext
  cases front with
  | nil =>
    obtain ⟨hop, rfl⟩ := List.cons.inj hsplit
    cases hop
    rw [htext]
    exact ⟨logs, rfl⟩
  | cons e front =>
    -- after the operation itself there are only a text learned and records
    have hmem : .offered op' ∈ op.assignment.secret?.toList.map .learned ++ logs := by
      rw [(List.cons.inj hsplit).2]
      exact List.mem_append_right _ List.mem_cons_self
    rcases List.mem_append.mp hmem with h | h
    · obtain ⟨_, -, h⟩ := List.mem_map.mp h
      cases h
    · obtain ⟨_, h⟩ := hlogs _ h
      cases h

theorem setUp_announced (around : Surroundings) (o : Options) : Emits Announced (setUp around o) :=
  setUp_emits joins_announced (fun _ => announced_of_not_offered (by simp))
    (fun _ => announced_of_not_offered (by simp)) around o

/-- A run that is no dry run makes every value known that it hands to the server. -/
theorem runOptions_announced (around : Surroundings) {o : Options} (hlive : o.dryRun = false) :
    Emits Announced (runOptions around o) := by
  have hP := joins_announced
  have hlogged (r : Record) : Announced [.logged r] := announced_of_not_offered (by simp)
  have htold (text : String) : Announced [.told text] := announced_of_not_offered (by simp)
  intro start
  cases ho : checkOptions o with
  | error f =>
    rw [runOptions, ho]
    exact Emits.bind hP (.emit (htold _)) (fun _ => .fail hP _) start
  | ok u =>
    rw [runOptions_run ho]
    refine hP.append ?_ (hP.append (setUp_announced around o start) ?_)
    · rw [preface]
      split
      · exact hlogged _
      · exact hP.nil
    · have hstore := setUp_yields around o start
      rcases hmade : (setUp around o start).result with (_ | _) | ⟨templates, store⟩
      · exact Emits.bind hP (.emit (hlogged _)) (fun _ => .fail hP _) _
      · exact Emits.fail hP _ _
      · obtain ⟨hdry, -⟩ | ⟨-, hannouncing⟩ := hstore _ hmade
        · exact absurd (hlive.symm.trans hdry) Bool.false_ne_true
        refine carryOut_emits hP hlogged (announced_of_not_offered (by simp)) ?_
          (fun _ => announced_of_not_offered (by simp)) htold (offer_announced hannouncing) around _ _
        obtain ⟨settings, -, rfl⟩ := hannouncing
        exact (Versioned.logout_emits hP).within

/-! ### What is shown of a record -/

def knownAt (es : List Event) : SecretSet := SecretSet.ofTexts (secrets es)

theorem secrets_append (es fs : List Event) : secrets (es ++ fs) = secrets es ++ secrets fs :=
  List.filterMap_append

theorem mem_secrets {es : List Event} {text : String} : text ∈ secrets es ↔ .learned text ∈ es := by
  rw [secrets, List.mem_filterMap]
  constructor
  · rintro ⟨e, he, h⟩
    cases e <;> cases h
    exact he
  · exact fun h => ⟨_, h, rfl⟩

theorem written_cons (least : Level) (s : SecretSet) (e : Event) (es : List Event) :
    written least s (e :: es)
      = ((written least s [e]).1 ++ (written least ((secrets [e]).foldl SecretSet.add s) es).1,
        (written least s [e]).2 ++ (written least ((secrets [e]).foldl SecretSet.add s) es).2) := by
  cases e with
  | logged r =>
    simp only [written]
    split <;> simp [secrets]
  | learned text => simp [written, secrets]
  | answered text => simp [written, secrets]
  | told text => simp [written, secrets]
  | ran _ | offered _ | loggedOut => simp [written, secrets]

/-- Two traces write one after the other, the second one with the secrets of the first. -/
theorem written_append (least : Level) (s : SecretSet) (es fs : List Event) :
    written least s (es ++ fs)
      = ((written least s es).1 ++ (written least ((secrets es).foldl SecretSet.add s) fs).1,
        (written least s es).2 ++ (written least ((secrets es).foldl SecretSet.add s) fs).2) := by
  induction es generalizing s with
  | nil => simp [written, secrets]
  | cons e es ih =>
    have hsecrets : secrets (e :: es) = secrets [e] ++ secrets es := secrets_append [e] es
    rw [List.cons_append, written_cons, ih, written_cons least s e es, hsecrets, List.foldl_append]
    simp only [String.append_assoc]

/-- **A record is shown with the secrets hidden that are known up to it.** -/
theorem errors_of_split {around : Surroundings} {arguments : List String} {start : System}
    {before after : List Event} {r : Record}
    (h : (run around arguments start).events = before ++ .logged r :: after) :
    (transcript around arguments start).errors
      = (written (levelOf arguments) {} before).2
        ++ (if (levelOf arguments).shownAt r.level then
            r.line ((knownAt before).redact r.message) else "")
        ++ (written (levelOf arguments) (knownAt before) after).2 := by
  rw [transcript, h, written_append, written_cons]
  show (written _ {} before).2 ++ ((written _ (knownAt before) [.logged r]).2
    ++ (written _ (knownAt before) after).2) = _
  simp only [written]
  split <;> simp only [String.append_assoc, String.append_empty, String.empty_append]

/-! ### What is kept secret -/

/-- A text that a run with some options, over some files, must not show after some of its events. -/
inductive Guarded (files : Files) (o : Options) (before : List Event) : String → Prop where
  /-- The text of the key file. -/
  | content {text : String} (hread : readText files o.credentialsPath = .ok text) :
    Guarded files o before (trim text)
  /-- A key in the key file that does not count as empty. -/
  | key {text name key : String} {entries : List (CodePoints × Json)} {v : Json}
    (hread : readText files o.credentialsPath = .ok text)
    (hparse : Json.parse (trim text) = .ok (.object entries))
    (hname : name = "private_key" ∨ name = "private_key_id")
    (hfind : Json.find? (codePoints name) entries = some v) (hfilled : v.layer.isEmpty = false)
    (hkey : Layered.plain v = .ok key) :
    Guarded files o before (trim key)
  /-- The text of a password, a field or an attachment that was handed to the server. -/
  | value {op : Operation} {bytes : List UInt8} (hlive : o.dryRun = false)
    (hoffered : .offered op ∈ before)
    (hvalue : op.assignment = .password bytes
      ∨ ∃ name, op.assignment = .field name bytes ∨ op.assignment = .attachment name bytes) :
    Guarded files o before (trim (Utf8.decodeReplacing bytes))

/-- The credentials are read before anything but the preface is logged. -/
theorem credentials_before {around : Surroundings} {o : Options} (ho : checkOptions o = .ok ())
    {start : System} {before after : List Event} {r : Record}
    (h : (runOptions around o start).events = before ++ .logged r :: after)
    (hpreface : preface o <+: before) :
    ∀ e ∈ (readCredentials (σ := System) start.files o.credentialsPath start).events, e ∈ before := by
  obtain ⟨before, rfl⟩ := hpreface
  obtain ⟨rest, hevents⟩ := setUp_events around o start
  rw [runOptions_run ho, List.append_assoc, List.append_cancel_left_eq, hevents, List.append_assoc] at h
  intro e he
  rcases List.append_eq_append_iff.mp h with ⟨early, rfl, -⟩ | ⟨late, hlate, hcons⟩
  · exact List.mem_append_right _ (List.mem_append_left _ he)
  cases late with
  | nil =>
    rw [List.append_nil] at hlate
    exact List.mem_append_right _ (hlate ▸ he)
  | cons first late =>
    -- reading makes texts known and logs nothing
    obtain ⟨rfl, -⟩ := List.cons.inj hcons
    have hlogged := readCredentials_emits (joins_forall fun e => e ≠ .logged r)
      (fun text e he => by rw [List.mem_singleton.mp he]; nofun) start (.logged r)
      (hlate ▸ List.mem_append_right _ List.mem_cons_self)
    exact absurd rfl hlogged

/-- What is guarded at a record is known there. -/
theorem Guarded.mem_knownAt {around : Surroundings} {o : Options} (ho : checkOptions o = .ok ())
    {start : System} {before after : List Event} {r : Record}
    (h : (runOptions around o start).events = before ++ .logged r :: after)
    (hpreface : preface o <+: before) {secret : String}
    (hguarded : Guarded start.files o before secret) (hne : secret ≠ "") :
    secret ∈ (knownAt before).values := by
  have hknown {text : String} (hlearned : .learned text ∈ before) (hne : trim text ≠ "") :
      trim text ∈ (knownAt before).values :=
    (SecretSet.mem_ofTexts _ _).mpr ⟨text, mem_secrets.mpr hlearned, rfl, hne⟩
  have hread := credentials_before ho h hpreface
  cases hguarded with
  | @content text hfile =>
    rw [← trim_trim]
    refine hknown (hread _ ?_) (by rwa [trim_trim])
    rw [readCredentials_run (credentialsText_ok hfile hne)]
    split
    · exact List.mem_cons_self
    · split <;> exact List.mem_cons_self
  | @key text name key c v hfile hparse hname hfind hvalue hkey =>
    obtain ⟨keys, hkeys, hrun⟩ :=
      readCredentials_object (credentialsText_ok hfile (trim_ne_empty hparse)) hparse start
    have hsecret : name ∈ secretKeys := by
      rcases hname with rfl | rfl <;> simp [secretKeys]
    have hfound : Credentials.find? c name = some v := by
      rw [Credentials.find?, hfind]
      simp [hvalue]
    rw [hrun] at hread
    refine hknown (hread _ (List.mem_cons_of_mem _ (List.mem_map_of_mem ?_))) hne
    exact mem_keyTexts hkeys hsecret hfound hkey
  | @value op bytes hlive hoffered hvalue =>
    have htext : op.assignment.secret? = some (Utf8.decodeReplacing bytes) := by
      rcases hvalue with h | ⟨name, h | h⟩ <;> rw [h] <;> rfl
    obtain ⟨front, back, rfl⟩ := List.append_of_mem hoffered
    rw [List.append_assoc, List.cons_append] at h
    obtain ⟨rest, hrest⟩ := runOptions_announced around hlive start front op _ h _ htext
    refine hknown (List.mem_append_right _ (List.mem_cons_of_mem _ ?_)) hne
    cases back with
    | nil => cases hrest
    | cons e back =>
      cases hrest
      exact List.mem_cons_self

/-- A record of a run with checked options is the preface, or the preface stands before it. -/
theorem preface_before {around : Surroundings} {o : Options} (ho : checkOptions o = .ok ())
    {start : System} {before after : List Event} {e : Event}
    (h : (runOptions around o start).events = before ++ e :: after) :
    (before = [] ∧ preface o = [e]) ∨ preface o <+: before := by
  have hpreface : preface o = [] ∨ ∃ first, preface o = [first] := by
    rw [preface]
    split
    · exact .inr ⟨_, rfl⟩
    · exact .inl rfl
  rw [runOptions_run ho] at h
  rcases hpreface with hnone | ⟨first, hfirst⟩
  · exact .inr (hnone ▸ List.nil_prefix)
  · simp only [hfirst, List.singleton_append] at h ⊢
    cases before with
    | nil => exact .inl ⟨rfl, by rw [(List.cons.inj h).1]⟩
    | cons e' before => exact .inr ⟨before, by rw [(List.cons.inj h).1]; rfl⟩

/-- **No record of a run shows a guarded text.**  Whatever the arguments, the files, the commands and the
server: every record of a run is one of a run with options; it is written with the secrets hidden that
are known up to it; and if these can all be hidden by a mask, then, unless it is the preface, nothing is
shown of the text of the key file, of a key in it, or, in a run that is not dry, of a value that was
handed to the server before. -/
theorem run_hides_guarded (around : Surroundings) (arguments : List String) (start : System)
    (before : List Event) (r : Record) (after : List Event)
    (h : (run around arguments start).events = before ++ .logged r :: after)
    (hmask : ∀ text ∈ secrets before, trim text ≠ "" → Maskable (trim text)) :
    ∃ o, Options.parse arguments = .ok (.run o)
      ∧ (transcript around arguments start).errors
        = (written (levelOf arguments) {} before).2
          ++ (if (levelOf arguments).shownAt r.level then
              r.line ((knownAt before).redact r.message) else "")
          ++ (written (levelOf arguments) (knownAt before) after).2
      ∧ ((before = [] ∧ preface o = [.logged r])
        ∨ ∀ secret, Guarded start.files o before secret → secret ≠ "" →
          ¬ secret.toList <:+: ((knownAt before).redact r.message).toList) := by
  have hr : .logged r ∈ (run around arguments start).events :=
    h ▸ List.mem_append_right _ List.mem_cons_self
  obtain ⟨o, hparse, ho, hrun⟩ := run_of_logged hr
  refine ⟨o, hparse, errors_of_split h, ?_⟩
  rw [hrun] at h
  refine (preface_before ho h).imp_right fun hpreface secret hguarded hne => ?_
  have hmaskable : ∀ v ∈ (knownAt before).values, Maskable v := by
    intro v hv
    obtain ⟨text, htext, rfl, hne⟩ := (SecretSet.mem_ofTexts _ _).mp hv
    exact hmask text htext hne
  exact SecretSet.not_infix_redact hmaskable r.message secret
    (hguarded.mem_knownAt ho h hpreface hne)

/-- Options of a run that is not dry, and the arguments that give them. -/
def givenOptions : Options where
  dryRun := false
  config := "items"
  credentialsPath := "key"
  projectId := some "p"

@[inherit_doc givenOptions] def givenArguments : List String :=
  ["--no-dry-run", "--conf=items", "--cred=key", "--project-id=p"]

def making : Surroundings where
  shell := .ofAnswers fun _ => .ended (Text.Utf8.encode "hunter2\n") 0
  temporaryName := ""

/-- A template with a password, and a server that refuses to be read and repeats the password and a
key of the key file. -/
def telling : System where
  files := { entries := [(["key"], .file (Text.Utf8.encode "\x7b\"private_key\": \" pk1 \"\x7d")),
    (["items"], .file (Text.Utf8.encode "- item_name: a\n  password: make"))] }
  server := { plan := [⟨.access, none, .refused ⟨.permissionDenied, "hunter2 may not, nor pk1"⟩⟩] }

def refusal : Record where
  level := .error
  origin := .update
  message := "item a: failed to upload password: failed to read secret a: 403 hunter2 may not, nor pk1"

theorem parse_givenArguments : Options.parse givenArguments = .ok (.run givenOptions) := by
  decide +kernel

theorem checkLevel_info : checkLevel "info" = .ok .info := by
  have hlower (s : String) : lowerAscii s = String.ofList (s.toList.map Char.toLower) := by
    rw [lowerAscii, ← String.toList_map, String.ofList_toList]
  rw [checkLevel, level?]
  simp only [hlower]
  decide +kernel

theorem run_givenArguments : run making givenArguments = runOptions making givenOptions :=
  run_of_parse parse_givenArguments checkLevel_info

/-- The report of the refusal is shown without the password, and without the key that the message of
the server repeats, too. -/
theorem run_hides_guarded_refusal :
    ∃ before after, (run making givenArguments telling).events = before ++ .logged refusal :: after
      ∧ (∀ text ∈ secrets before, trim text ≠ "" → Maskable (trim text))
      ∧ "pk1".toList <:+: refusal.message.toList ∧ "hunter2".toList <:+: refusal.message.toList
      ∧ ¬ "pk1".toList <:+: ((knownAt before).redact refusal.message).toList
      ∧ ¬ "hunter2".toList <:+: ((knownAt before).redact refusal.message).toList := by
  let es := (run making givenArguments telling).events
  have hes : es = (runOptions making givenOptions telling).events := by
    show (run making givenArguments telling).events = _
    rw [run_givenArguments]
  obtain ⟨hrecord, hsecrets, hoffered⟩ : es[11]? = some (.logged refusal)
      ∧ secrets (es.take 11) = ["\x7b\"private_key\": \" pk1 \"\x7d", " pk1 ", "hunter2\n"]
      ∧ .offered ⟨"a", .password (Text.Utf8.encode "hunter2\n")⟩ ∈ es.take 11 := by
    rw [hes]
    decide +kernel
  have hsplit : es = es.take 11 ++ .logged refusal :: es.drop 12 := by
    obtain ⟨hlength, hget⟩ := List.getElem?_eq_some_iff.mp hrecord
    rw [← hget, List.getElem_cons_drop, List.take_append_drop]
  have hmask : ∀ text ∈ secrets (es.take 11), trim text ≠ "" → Maskable (trim text) := by
    rw [hsecrets]
    intro text htext _
    simp only [List.mem_cons, List.not_mem_nil, or_false] at htext
    rcases htext with rfl | rfl | rfl <;> exact ⟨by decide +kernel, by decide +kernel⟩
  obtain ⟨o, hparse, -, hshown⟩ := run_hides_guarded making givenArguments telling _ refusal _ hsplit hmask
  cases parse_givenArguments.symm.trans hparse
  have hpassword : Guarded telling.files givenOptions (es.take 11) "hunter2" := by
    have htrim : trim (Utf8.decodeReplacing (Utf8.encode "hunter2\n")) = "hunter2" := by decide +kernel
    exact htrim ▸ .value rfl hoffered (.inl rfl)
  have hkey : Guarded telling.files givenOptions (es.take 11) "pk1" := by
    have htrim : trim " pk1 " = "pk1" := by decide
    have hread : readText telling.files givenOptions.credentialsPath
        = .ok "\x7b\"private_key\": \" pk1 \"\x7d" := by decide +kernel
    have hparse : Json.parse (trim "\x7b\"private_key\": \" pk1 \"\x7d")
        = .ok (.object [(codePoints "private_key", .ofString " pk1 ")]) := by rfl
    exact htrim ▸ .key hread hparse (.inl rfl) (v := .ofString " pk1 ") rfl rfl rfl
  have hhidden := hshown.resolve_left fun h => by
    rw [show preface givenOptions = [] from rfl] at h
    cases h.2
  exact ⟨_, _, hsplit, hmask, by decide +kernel, by decide +kernel, hhidden _ hkey (by decide),
    hhidden _ hpassword (by decide)⟩

end SecretForge.CommandLine
