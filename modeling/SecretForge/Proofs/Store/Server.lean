import SecretForge.Proofs.Text.Search
import SecretForge.Store.Versioned

/-!
# What the requests to a server change

A request either meets a fault of the plan and changes nothing, or it does what it is for.  Only an
addition changes the versions of a secret, and it changes those of one secret.

* `versionsOf` — the versions of a secret; one that is missing has none.
* `OnlyRefuses` — every planned fault is a refusal, and nothing is refused as missing but a creation
  or an addition; `HidesNothing` is the second half alone.
* `Sends` — the requests between two states have a property; `Asks` — they are of certain methods.
* `exists_secretId`, `secretOfVersion_latest` — which secret the names of an item stand for.
-/

namespace SecretForge

namespace Server

/-- The versions of a secret, the oldest first; a secret that is missing has none. -/
def versionsOf (s : Server) (id : String) : List (List UInt8) := (s.versions? id).getD []

/-- Every planned fault is a refusal, and nothing is refused as missing but a creation or an addition
of a version. -/
def OnlyRefuses (s : Server) : Prop :=
  ∀ f ∈ s.plan, ∃ e, f.fault = .refused e
    ∧ (e.kind = .notFound → f.method = .create ∨ f.method = .add)

/-- Nothing is planned to be refused as missing but a creation or an addition of a version. -/
def HidesNothing (s : Server) : Prop :=
  ∀ f ∈ s.plan, ∀ e, f.fault = .refused e → e.kind = .notFound →
    f.method = .create ∨ f.method = .add

theorem OnlyRefuses.hidesNothing {s : Server} (hs : s.OnlyRefuses) : s.HidesNothing := by
  intro f hf e he hkind
  obtain ⟨e', he', hmethod⟩ := hs f hf
  rw [he'] at he
  cases he
  exact hmethod hkind

/-- Two states of a server with the same versions and the same plan of faults. -/
structure Same (s t : Server) : Prop where
  versions : ∀ id, t.versionsOf id = s.versionsOf id
  plan : t.plan = s.plan

theorem Same.refl (s : Server) : Same s s := ⟨fun _ => rfl, rfl⟩

theorem Same.trans {s t u : Server} (h : Same s t) (h' : Same t u) : Same s u :=
  ⟨fun id => (h'.versions id).trans (h.versions id), h'.plan.trans h.plan⟩

theorem Same.onlyRefuses {s t : Server} (h : Same s t) (hs : s.OnlyRefuses) : t.OnlyRefuses := by
  rw [OnlyRefuses, h.plan]
  exact hs

theorem Same.hidesNothing {s t : Server} (h : Same s t) (hs : s.HidesNothing) : t.HidesNothing := by
  rw [HidesNothing, h.plan]
  exact hs

/-- The requests from one state to another all have a property. -/
def Sends (P : Request → Prop) (s t : Server) : Prop :=
  ∃ made, t.requests = s.requests ++ made ∧ ∀ r ∈ made, P r

theorem Sends.refl {P : Request → Prop} (s : Server) : Sends P s s :=
  ⟨[], (List.append_nil _).symm, fun _ h => absurd h List.not_mem_nil⟩

theorem Sends.trans {P : Request → Prop} {s t u : Server} (h : Sends P s t) (h' : Sends P t u) :
    Sends P s u := by
  obtain ⟨made, hmade, hP⟩ := h
  obtain ⟨made', hmade', hP'⟩ := h'
  refine ⟨made ++ made', by rw [hmade', hmade, List.append_assoc], fun r hr => ?_⟩
  exact (List.mem_append.mp hr).elim (hP r) (hP' r)

/-- The requests from one state to another are all of certain methods. -/
def Asks (p : Method → Prop) (s t : Server) : Prop :=
  ∃ made, t.requests = s.requests ++ made ∧ ∀ r ∈ made, p r.method

theorem Asks.refl {p : Method → Prop} (s : Server) : Asks p s s := Sends.refl s

theorem Asks.trans {p : Method → Prop} {s t u : Server} (h : Asks p s t) (h' : Asks p t u) :
    Asks p s u := Sends.trans h h'

/-- Requests of a method that none of them is of are as many as before. -/
theorem Asks.count_eq {p : Method → Prop} {s t : Server} (h : Asks p s t) {m : Method} (hm : ¬ p m) :
    t.count m = s.count m := by
  obtain ⟨made, hmade, hp⟩ := h
  rw [count, count, hmade, List.countP_append, Nat.add_eq_left, List.countP_eq_zero]
  intro r hr hmethod
  exact hm (of_decide_eq_true hmethod ▸ hp r hr)

variable {s : Server} {r : Request}

/-! ### Faults -/

theorem note_same (s : Server) (r : Request) : Same s (s.note r).2 := by
  rw [note]
  split <;> exact ⟨fun _ => rfl, rfl⟩

theorem note_sends {P : Request → Prop} (s : Server) (hr : P r) : Sends P s (s.note r).2 := by
  rw [note]
  split <;> exact ⟨[r], rfl, fun _ h => List.mem_singleton.mp h ▸ hr⟩

/-- A request meets a fault only where one is planned for its method. -/
theorem exists_planned_of_note {f : ServerFault} (h : (s.note r).1 = .error f) :
    ∃ p ∈ s.plan, p.fault = f ∧ p.method = r.method := by
  rw [note] at h
  split at h
  · next f' hplan =>
    cases h
    rw [planned?, Option.map_eq_some_iff] at hplan
    obtain ⟨p, hfind, rfl⟩ := hplan
    have hmethod := List.find?_some hfind
    rw [Bool.and_eq_true, decide_eq_true_iff] at hmethod
    exact ⟨p, List.mem_of_find?_eq_some hfind, rfl, hmethod.1⟩
  · cases h

/-! ### Requests -/

theorem connect_same (credentials : Option String) (s : Server) : Same s (s.connect credentials).2 :=
  note_same s _

theorem close_same (s : Server) : Same s s.close.2 := note_same s _

theorem access_same (name : String) (s : Server) : Same s (s.access name).2 := by
  have hnote := note_same s (.access name)
  rw [access]
  split
  · next h =>
    rw [h] at hnote
    exact hnote
  · next h =>
    rw [h] at hnote
    split <;> exact hnote

theorem access_ok {name : String} {v : List UInt8} (h : (s.access name).1 = .ok v) :
    (s.versionsOf (secretOfVersion name)).getLast? = some v := by
  have hnote := note_same s (.access name)
  rw [access] at h
  split at h
  · cases h
  · next t hn =>
    rw [hn] at hnote
    split at h
    · next v' hlast =>
      cases h
      obtain ⟨vs, hvs, hlast⟩ := Option.bind_eq_some_iff.mp hlast
      rw [← hnote.versions, versionsOf, hvs]
      exact hlast
    · cases h

/-- A version is refused as missing only where there is none. -/
theorem access_notFound {name : String} {e : ServerError} (hs : s.HidesNothing)
    (h : (s.access name).1 = .error (.refused e)) (hkind : e.kind = .notFound) :
    (s.versionsOf (secretOfVersion name)).getLast? = none := by
  have hnote := note_same s (.access name)
  rw [access] at h
  split at h
  · next f' t hn =>
    cases h
    obtain ⟨p, hp, hfault, hmethod⟩ :=
      exists_planned_of_note (r := .access name) (by rw [hn])
    rcases hs p hp e hfault hkind with hm | hm <;> cases hmethod.symm.trans hm
  · next t hn =>
    rw [hn] at hnote
    split at h
    · cases h
    · next hlast =>
      cases h
      rw [← hnote.versions, versionsOf]
      cases hvs : t.versions? (secretOfVersion name) with
      | none => rfl
      | some vs =>
        rw [hvs] at hlast
        exact hlast

theorem access_sends {P : Request → Prop} {name : String} (hP : P (.access name)) (s : Server) :
    Sends P s (s.access name).2 := by
  have hnote := note_sends s hP
  rw [access]
  split
  · next h =>
    rw [h] at hnote
    exact hnote
  · next h =>
    rw [h] at hnote
    split <;> exact hnote

/-- A secret without versions at the end changes nothing. -/
theorem versionsOf_append (s : Server) (id key : String) :
    versionsOf { s with secrets := s.secrets ++ [(id, [])] } key = s.versionsOf key := by
  rw [versionsOf, versions?, List.find?_append, versionsOf, versions?]
  cases hfind : s.secrets.find? fun e => e.1 = key with
  | some e => rfl
  | none =>
    rw [Option.none_or, List.find?_singleton]
    split <;> rfl

/-- A new secret has no versions, as before. -/
theorem create_same (parent id : String) (s : Server) : Same s (s.create parent id).2 := by
  have hnote := note_same s (.create parent id)
  rw [create]
  split
  · next h =>
    rw [h] at hnote
    exact hnote
  · next t h =>
    rw [h] at hnote
    split
    · exact hnote
    · exact hnote.trans ⟨versionsOf_append t id, rfl⟩

theorem create_sends {P : Request → Prop} {parent id : String} (hP : P (.create parent id))
    (s : Server) : Sends P s (s.create parent id).2 := by
  have hnote := note_sends s hP
  rw [create]
  split
  · next h =>
    rw [h] at hnote
    exact hnote
  · next h =>
    rw [h] at hnote
    split <;> exact hnote

/-- A version at the end of one secret. -/
theorem versionsOf_map {s : Server} {id : String} (hid : (s.versions? id).isSome)
    (version : List UInt8) (key : String) :
    versionsOf { s with secrets := s.secrets.map fun e =>
        if e.1 = id then (e.1, e.2 ++ [version]) else e } key
      = if key = id then s.versionsOf key ++ [version] else s.versionsOf key := by
  have hname : ∀ e : String × List (List UInt8),
      (if e.1 = id then (e.1, e.2 ++ [version]) else e).1 = e.1 := fun e => by split <;> rfl
  rw [versionsOf, versions?, List.find?_map, Option.map_map, versionsOf, versions?]
  simp only [Function.comp_def, hname]
  cases hfind : s.secrets.find? fun e => e.1 = key with
  | none =>
    split
    · next hkey =>
      rw [← hkey, versions?, hfind] at hid
      cases hid
    · rfl
  | some e =>
    have hkey := List.find?_some hfind
    rw [decide_eq_true_iff] at hkey
    simp only [Option.map_some, Option.getD_some, hkey]
    split <;> rfl

/-- **What an addition does.**  It appends a version to one secret, or it fails and changes nothing,
with a fault that was planned or because there is no such secret. -/
theorem add_cases (s : Server) (parent : String) (version : List UInt8) :
    (∃ t, s.add parent version = (.ok (), t) ∧ t.plan = s.plan
        ∧ ∀ id, t.versionsOf id
          = if id = secretOf parent then s.versionsOf id ++ [version] else s.versionsOf id)
      ∨ ∃ f t, s.add parent version = (.error f, t) ∧ Same s t
        ∧ ((∃ p ∈ s.plan, p.fault = f) ∨ f = missing ∧ s.versionsOf (secretOf parent) = []) := by
  have hnote := note_same s (.add parent version)
  rw [add]
  rcases hn : s.note (.add parent version) with ⟨f | u, t⟩
  · obtain ⟨p, hp, hfault, -⟩ := exists_planned_of_note (r := .add parent version) (by rw [hn])
    rw [hn] at hnote
    exact .inr ⟨f, t, rfl, hnote, .inl ⟨p, hp, hfault⟩⟩
  · rw [hn] at hnote
    cases hsecret : t.versions? (secretOf parent) with
    | none =>
      refine .inr ⟨missing, t, by simp only [hsecret], hnote, .inr ⟨rfl, ?_⟩⟩
      rw [← hnote.versions, versionsOf, hsecret]
      rfl
    | some vs =>
      refine .inl ⟨{ t with secrets := t.secrets.map (fun e =>
          if e.1 = (secretOf parent) then (e.1, e.2 ++ [version]) else e) },
        by simp only [hsecret], hnote.plan, fun id => ?_⟩
      rw [versionsOf_map (by rw [hsecret]; rfl), hnote.versions]

theorem add_sends {P : Request → Prop} {parent : String} {version : List UInt8}
    (hP : P (.add parent version)) (s : Server) : Sends P s (s.add parent version).2 := by
  have hnote := note_sends s hP
  rw [add]
  split
  · next h =>
    rw [h] at hnote
    exact hnote
  · next h =>
    rw [h] at hnote
    simp only
    split <;> exact hnote

/-! ### Names -/

/-- Up to the first slash, two words agree or not. -/
theorem stripStart?_slash {w p : List Char} (hw : '/' ∉ w) (hp : '/' ∉ p) (rest : List Char) :
    Text.stripStart? (w ++ ['/']) (p ++ '/' :: rest) = if w = p then some rest else none := by
  induction w generalizing p with
  | nil =>
    cases p with
    | nil => rfl
    | cons c p =>
      rw [List.mem_cons, not_or] at hp
      rw [List.nil_append, List.cons_append, Text.stripStart?, if_neg hp.1, if_neg (by simp)]
  | cons a w ih =>
    rw [List.mem_cons, not_or] at hw
    cases p with
    | nil => rw [List.cons_append, List.nil_append, Text.stripStart?, if_neg (Ne.symm hw.1),
        if_neg (by simp)]
    | cons c p =>
      rw [List.mem_cons, not_or] at hp
      rw [List.cons_append, List.cons_append, Text.stripStart?, ih hw.2 hp.2]
      by_cases hac : a = c
      · simp [hac]
      · simp [hac]

theorem slash_secrets : "/secrets/".toList = '/' :: ("secrets".toList ++ ['/']) := rfl

theorem projects_slash : "projects/".toList = "projects".toList ++ ['/'] := rfl

theorem secrets_slash : "secrets/".toList = "secrets".toList ++ ['/'] := rfl

theorem slash_notMem_projects : '/' ∉ "projects".toList := by decide

theorem slash_notMem_secrets : '/' ∉ "secrets".toList := by decide

/-- One character that is no slash is passed over. -/
theorem afterSecrets_cons {c : Char} (hc : c ≠ '/') (cs : List Char) :
    afterSecrets (c :: cs) = afterSecrets cs := by
  rw [afterSecrets, slash_secrets, Text.stripStart?, if_neg (Ne.symm hc)]

theorem afterSecrets_skip {p : List Char} (hp : '/' ∉ p) (rest : List Char) :
    afterSecrets (p ++ rest) = afterSecrets rest := by
  induction p with
  | nil => rfl
  | cons c p ih =>
    rw [List.mem_cons, not_or] at hp
    rw [List.cons_append, afterSecrets_cons (Ne.symm hp.1), ih hp.2]

/-- A part between slashes is passed over, unless it is the mark itself. -/
theorem afterSecrets_part {p : List Char} (hp : '/' ∉ p) (rest : List Char) :
    afterSecrets ('/' :: (p ++ '/' :: rest))
      = if "secrets".toList = p then rest else afterSecrets ('/' :: rest) := by
  rw [afterSecrets, slash_secrets, Text.stripStart?, if_pos rfl,
    stripStart?_slash slash_notMem_secrets hp]
  by_cases h : "secrets".toList = p
  · rw [if_pos h, if_pos h]
  · rw [if_neg h, if_neg h]
    exact afterSecrets_skip hp _

/-- What the names of a project's secrets start with on the server. -/
def idStart (project : String) : String := if project = "secrets" then "secrets/" else ""

theorem afterSecrets_path {project : String} (hp : '/' ∉ project.toList) (rest : List Char) :
    afterSecrets ("projects/".toList ++ (project.toList ++ ("/secrets/".toList ++ rest)))
      = (idStart project).toList ++ rest := by
  rw [projects_slash, List.append_assoc, afterSecrets_skip slash_notMem_projects,
    List.singleton_append, slash_secrets, List.cons_append, afterSecrets_part hp, List.append_assoc,
    List.singleton_append, afterSecrets_part slash_notMem_secrets, if_pos rfl]
  by_cases h : project = "secrets"
  · rw [idStart, if_pos h, if_pos (congrArg String.toList h.symm), secrets_slash, List.append_assoc,
      List.singleton_append]
  · rw [idStart, if_neg h, if_neg fun heq => h (String.toList_inj.mp heq).symm]
    rfl

/-- The mark is looked for from the left, so what follows it is not looked at. -/
theorem exists_afterSecrets (front : List Char) :
    ∃ start, ∀ rest, afterSecrets (front ++ ("/secrets/".toList ++ rest)) = start ++ rest := by
  have hstrip : ∀ {p front : List Char}, p.length ≤ front.length → ∀ rest,
      Text.stripStart? p (front ++ rest) = (Text.stripStart? p front).map (· ++ rest) := by
    intro p
    induction p with
    | nil => exact fun _ _ => rfl
    | cons c p ih =>
      intro front hlength rest
      cases front with
      | nil => exact absurd hlength (Nat.not_succ_le_zero _)
      | cons d front =>
        rw [List.cons_append, Text.stripStart?, Text.stripStart?,
          ih (Nat.le_of_succ_le_succ hlength)]
        split <;> rfl
  induction front with
  | nil =>
    refine ⟨[], fun rest => ?_⟩
    have hcons : "/secrets/".toList ++ rest = '/' :: ("secrets".toList ++ ['/'] ++ rest) := by
      rw [slash_secrets, List.cons_append]
    rw [List.nil_append, List.nil_append, hcons, afterSecrets, ← hcons, Text.stripStart?_append]
  | cons c front ih =>
    obtain ⟨start, hstart⟩ := ih
    have hlong : "/secrets/".toList.length ≤ (c :: (front ++ "/secrets/".toList)).length := by
      rw [List.length_cons, List.length_append]
      omega
    have hmark := fun rest => hstrip hlong rest
    simp only [List.cons_append, List.append_assoc] at hmark
    cases hfront : Text.stripStart? "/secrets/".toList (c :: (front ++ "/secrets/".toList)) with
    | none =>
      refine ⟨start, fun rest => ?_⟩
      rw [List.cons_append, afterSecrets, hmark, hfront]
      exact hstart rest
    | some start' =>
      refine ⟨start', fun rest => ?_⟩
      rw [List.cons_append, afterSecrets, hmark, hfront]
      rfl

theorem beforeVersions_latest (cs : List Char) :
    beforeVersions (cs ++ "/versions/latest".toList) = some cs := by
  induction cs with
  | nil => rfl
  | cons c cs ih => rw [List.cons_append, beforeVersions, ih]

end Server

namespace Versioned

open Server

variable {settings : Settings}

def secretId (settings : Settings) (item : String) : String := secretOf (secretName settings item)

theorem toList_secretName (item : String) :
    (secretName settings item).toList
      = "projects/".toList ++ (settings.project.toList ++ ("/secrets/".toList ++ item.toList)) := by
  show ("projects/" ++ settings.project ++ "/secrets/" ++ item).toList = _
  simp only [String.toList_append, List.append_assoc]

theorem secretId_eq (hp : '/' ∉ settings.project.toList) (item : String) :
    secretId settings item = idStart settings.project ++ item := by
  rw [secretId, secretOf, toList_secretName, afterSecrets_path hp, ← String.toList_append,
    String.ofList_toList]

/-- **The secret of an item has the item's name**, unless the project is called like the part of the
path that secrets stand under. -/
theorem secretId_eq_item (hp : '/' ∉ settings.project.toList) (hne : settings.project ≠ "secrets")
    (item : String) : secretId settings item = item := by
  rw [secretId_eq hp, idStart, if_neg hne, String.empty_append]

/-- Different items have different secrets. -/
theorem secretId_inj (hp : '/' ∉ settings.project.toList) {item item' : String}
    (h : secretId settings item = secretId settings item') : item = item' := by
  rw [secretId_eq hp, secretId_eq hp, ← String.toList_inj, String.toList_append,
    String.toList_append, List.append_cancel_left_eq] at h
  exact String.toList_inj.mp h

/-- **The secret of an item and the place of its latest version are found under one name**, which is
the item's name with something in front that depends on the project only. -/
theorem exists_secretId (settings : Settings) : ∃ start : String, ∀ item,
    secretId settings item = start ++ item
      ∧ secretOfVersion s!"{secretName settings item}/versions/latest" = start ++ item := by
  obtain ⟨start, hstart⟩ := exists_afterSecrets ("projects/".toList ++ settings.project.toList)
  refine ⟨String.ofList start, fun item => ⟨?_, ?_⟩⟩
  · rw [secretId, secretOf, toList_secretName, ← List.append_assoc, hstart, String.ofList_append,
      String.ofList_toList]
  · have hname : (s!"{secretName settings item}/versions/latest").toList
        = "projects/".toList ++ settings.project.toList
          ++ ("/secrets/".toList ++ (item.toList ++ "/versions/latest".toList)) := by
      show (secretName settings item ++ "/versions/latest").toList = _
      rw [String.toList_append, toList_secretName]
      simp only [List.append_assoc]
    rw [secretOfVersion, hname, hstart, ← List.append_assoc]
    simp only [beforeVersions_latest, Option.getD_some, String.ofList_append, String.ofList_toList]

/-- Different items have different secrets, whatever the project is called. -/
theorem secretId_injective (settings : Settings) : (secretId settings).Injective := by
  intro item item' h
  obtain ⟨start, hstart⟩ := exists_secretId settings
  rw [(hstart item).1, (hstart item').1, ← String.toList_inj, String.toList_append,
    String.toList_append, List.append_cancel_left_eq] at h
  exact String.toList_inj.mp h

/-- What follows the mark in a name is the end of the name. -/
theorem afterSecrets_suffix (cs : List Char) : afterSecrets cs <:+ cs := by
  induction cs with
  | nil => exact List.suffix_refl []
  | cons c cs ih =>
    rw [afterSecrets]
    split
    · next rest hrest =>
      rw [Text.stripStart?_eq_some_iff.mp hrest]
      exact List.suffix_append _ _
    · exact ih.trans (List.suffix_cons c cs)

/-- **The name of a secret is an item's name without a slash only if it is that item's secret.** What
the names of secrets start with, if anything, ends with a slash. -/
theorem eq_of_secretId_eq {item item' : String} (hitem : '/' ∉ item.toList)
    (h : secretId settings item' = item) : item' = item := by
  obtain ⟨start, hstart⟩ := exists_secretId settings
  have hsuffix : start.toList <:+ (secretName settings "").toList := by
    rw [← String.append_empty (s := start), ← (hstart "").1, secretId, secretOf, String.toList_ofList]
    exact afterSecrets_suffix _
  have hslash : (secretName settings "").toList.getLast? = some '/' := by
    rw [toList_secretName, ← List.append_assoc, List.getLast?_append_of_ne_nil _ (by simp)]
    rfl
  rw [(hstart item').1] at h
  rcases hempty : start.toList with _ | ⟨c, cs⟩
  · rw [String.toList_eq_nil_iff.mp hempty, String.empty_append] at h
    exact h
  · have hmem : '/' ∈ start.toList := by
      rw [hempty] at hsuffix ⊢
      obtain ⟨front, hfront⟩ := hsuffix
      rw [← hfront, List.getLast?_append_of_ne_nil _ (List.cons_ne_nil c cs)] at hslash
      exact List.mem_of_getLast? hslash
    rw [← h, String.toList_append, List.mem_append, not_or] at hitem
    exact absurd hmem hitem.1

/-- The latest version is looked for under the secret of the item. -/
theorem secretOfVersion_latest (item : String) :
    secretOfVersion s!"{secretName settings item}/versions/latest" = secretId settings item := by
  obtain ⟨start, hstart⟩ := exists_secretId settings
  rw [(hstart item).1, (hstart item).2]

end Versioned

end SecretForge
