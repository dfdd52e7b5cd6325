import SecretForge.Proofs.CommandLine.Lifecycle
import SecretForge.Proofs.Json.LineEnd
import SecretForge.Proofs.Json.Recognition
import SecretForge.Proofs.Text.Utf8

/-!
# What becomes of a key file

Whatever the bytes of a key file are, there are three ways in which reading it can end.  It is a text
that is, without the blanks around it, a JSON object: then that object is what is read, since every
value of a JSON text has a text itself and the keys in it cannot fail to be written.  It is any other
text: then that is reported, and the run ends with a line in the log and its status.  Or its bytes
encode no text at all: then the failure is none of those that a run reports, and it escapes.

* `Stands`, `HoldsObject` — a file with some content, and the object that a content holds.
* `readCredentials_text`, `readCredentials_bytes` — the ways in which reading ends.
* **`credentials_outcome`** — all of them, for reading alone and for every run that uses the file.
-/

namespace SecretForge

open Number Text

namespace CommandLine

open Act

/-! ### Reading the credentials -/

structure Stands (fs : Files) (path : String) (content : List UInt8) : Prop where
  noZero : hasZero path = false
  read : fs.read (tidyPath path) = .ok content

/-- The content of a file is a text that is, without the blanks around it, the JSON object. -/
def HoldsObject (content : List UInt8) (c : Credentials) : Prop :=
  ∃ text, content = Utf8.encode text ∧ Json.Document (trim text).toList (.object c)

/-- The files and the path with which a run, if it gets as far, reads its credentials. -/
def Uses (fs : Files) (path : String) (arguments : List String) (start : System) : Prop :=
  start.files = fs ∧ ∃ o level, Options.parse arguments = .ok (.run o)
    ∧ checkLevel o.logLevel = .ok level ∧ checkOptions o = .ok () ∧ o.credentialsPath = path

/-- Reading the credentials at the path fails with the fault.  A run that uses them ends as the fault
says, and logs it if it is one that is reported. -/
structure Unread (fs : Files) (path : String) (f : CredentialsFault) : Prop where
  result {σ : Type} (s : σ) : (readCredentials fs path s).result = .error f
  ending {around : Surroundings} {arguments : List String} {start : System} :
    Uses fs path arguments start → (run around arguments start).result = .error f.asSetup.leaving
  logged {around : Surroundings} {arguments : List String} {start : System} {message : String} :
    Uses fs path arguments start → f.asSetup = .reported message →
      .logged ⟨.error, .commandLine, s!"Failed to complete options: {message}"⟩
        ∈ (run around arguments start).events

section

variable {fs : Files} {path text : String} {content : List UInt8}

theorem credentialsText_text (hfile : Stands fs path (Utf8.encode text)) :
    credentialsText fs path
      = let read := trim (String.ofList (plainLines text.toList))
        if read.isEmpty then .error (.empty path) else .ok read := by
  rw [credentialsText, readText]
  simp only [hfile.noZero, hfile.read, Utf8.decode_encode]
  rfl

theorem credentialsText_bytes (hfile : Stands fs path content)
    (hbytes : ∀ text, content ≠ Utf8.encode text) :
    ∃ fault, credentialsText fs path = .error (.notText fault) := by
  cases hdecode : Utf8.decode content with
  | ok text => exact absurd (Utf8.decode_eq_ok_iff.mp hdecode) (hbytes text)
  | error fault =>
    refine ⟨fault, ?_⟩
    rw [credentialsText, readText]
    simp only [hfile.noZero, hfile.read, hdecode]
    rfl

theorem not_document_nil (v : Json) : ¬ Json.Document [] v := by
  rintro ⟨ds, rest, hblanks, hvalue, -⟩
  exact Nat.not_lt_zero _ (Nat.lt_of_lt_of_le hvalue.length_lt hblanks.length_le)

/-- Bytes are the bytes of one text at most. -/
theorem holdsObject_encode_iff {c : Credentials} :
    HoldsObject (Utf8.encode text) c ↔ Json.Document (trim text).toList (.object c) := by
  refine ⟨fun ⟨text', heq, hdocument⟩ => ?_, fun h => ⟨text, rfl, h⟩⟩
  have htext : text = text' := by
    have := Utf8.decode_encode text
    rw [heq, Utf8.decode_encode] at this
    exact (Except.ok.inj this).symm
  exact htext ▸ hdocument

/-- What is read of a file's text, without the blanks around it, is a document just when the text
itself is. -/
theorem document_read_iff {v : Json} :
    Json.Document (trim (String.ofList (plainLines text.toList))).toList v
      ↔ Json.Document (trim text).toList v := by
  rw [trim, trim, String.toList_ofList, String.toList_ofList, String.toList_ofList]
  exact Json.document_plainLines text.toList v

/-- **A text is read as the object that it is**, or its fault is one that is reported. -/
theorem credentialsOf_outcome (path text : String) :
    (∃ c, credentialsOf path text = .ok c ∧ Json.Document text.toList (.object c))
      ∨ (∀ c, ¬ Json.Document text.toList (.object c))
        ∧ ∃ f message, credentialsOf path text = .error f ∧ f.asSetup = .reported message := by
  rw [credentialsOf]
  cases hparse : Json.parse text with
  | error f =>
    refine .inr ⟨fun c hc => ?_, _, _, rfl, rfl⟩
    rw [Json.parse_iff.mpr hc] at hparse
    cases hparse
  | ok v =>
    have hother : (∀ c, v ≠ .object c) → ∀ c, ¬ Json.Document text.toList (.object c) :=
      fun hne c hc => hne c (Except.ok.inj (hparse.symm.trans (Json.parse_iff.mpr hc)))
    cases v with
    | object c => exact .inl ⟨c, rfl, Json.parse_iff.mp hparse⟩
    | _ => exact .inr ⟨hother (fun _ h => by cases h), _, _, rfl, rfl⟩

/-- A run whose credentials are not read ends as their fault says, and logs it if it is reported. -/
theorem run_of_unread {around : Surroundings} {arguments : List String} {start : System}
    (huses : Uses fs path arguments start) {f : CredentialsFault}
    (hread : (readCredentials (σ := System) fs path start).result = .error f) :
    (run around arguments start).result = .error f.asSetup.leaving
      ∧ ∀ {message}, f.asSetup = .reported message → .logged ⟨.error, .commandLine,
        s!"Failed to complete options: {message}"⟩ ∈ (run around arguments start).events := by
  obtain ⟨rfl, o, level, hparse, hlevel, hchecked, rfl⟩ := huses
  have hsetUp : (setUp around o start).result = .error f.asSetup := by
    rw [setUp_result, hread]
    rfl
  rw [run_of_parse hparse hlevel, runOptions_run hchecked]
  dsimp only
  rw [hsetUp]
  cases hf : f.asSetup with
  | reported message =>
    refine ⟨rfl, fun h => ?_⟩
    cases h
    exact List.mem_append_right _ (List.mem_append_right _ List.mem_cons_self)
  | escaped failure => exact ⟨rfl, fun h => by cases h⟩

theorem Unread.of_result {f : CredentialsFault}
    (h : ∀ {σ : Type} (s : σ), (readCredentials fs path s).result = .error f) : Unread fs path f where
  result := h
  ending huses := (run_of_unread huses (h _)).1
  logged huses hf := (run_of_unread huses (h _)).2 hf

/-- **A file that holds a text** is read as the object that the text is, or its fault is one that is
reported. -/
theorem readCredentials_text (hfile : Stands fs path (Utf8.encode text)) :
    (∃ c, Json.Document (trim text).toList (.object c)
        ∧ ∀ {σ : Type} (s : σ), (readCredentials fs path s).result = .ok c)
      ∨ (∀ c, ¬ Json.Document (trim text).toList (.object c))
        ∧ ∃ f message, f.asSetup = .reported message ∧ Unread fs path f := by
  have htext := credentialsText_text hfile
  simp only at htext
  split at htext
  · next hempty =>
    refine .inr ⟨fun c hc => ?_, .empty path, _, rfl, .of_result fun s => ?_⟩
    · rw [← document_read_iff, String.isEmpty_iff.mp hempty] at hc
      exact not_document_nil _ hc
    · rw [readCredentials, htext]
      rfl
  · rcases credentialsOf_outcome path (trim (String.ofList (plainLines text.toList))) with
      ⟨c, -, hdocument⟩ | ⟨hno, f, message, hf, hmessage⟩
    · refine .inl ⟨c, document_read_iff.mp hdocument, fun s => ?_⟩
      obtain ⟨keys, -, hrun⟩ := readCredentials_object htext (Json.parse_iff.mpr hdocument) s
      rw [hrun]
    · refine .inr ⟨fun c hc => hno c (document_read_iff.mpr hc), f, message, hmessage,
        .of_result fun s => ?_⟩
      simp only [readCredentials_run htext, hf]

/-- **A file that holds no text** is a failure that is not reported. -/
theorem readCredentials_bytes (hfile : Stands fs path content)
    (hbytes : ∀ text, content ≠ Utf8.encode text) : ∃ fault, Unread fs path (.notText fault) := by
  obtain ⟨fault, hfault⟩ := credentialsText_bytes hfile hbytes
  refine ⟨fault, .of_result fun s => ?_⟩
  rw [readCredentials, hfault]
  rfl

/-- **What becomes of a key file.**  Whatever its content: the credentials are read just when the content
is a text that is a JSON object, and then they are that object.  If it is any other text, the fault is
reported, and a run that uses the file logs it and ends with its status.  If it is no text, the failure
escapes. -/
theorem credentials_outcome (hfile : Stands fs path content) :
    (∀ {σ : Type} (s : σ) (c : Credentials),
        (readCredentials fs path s).result = .ok c ↔ HoldsObject content c)
      ∧ ((∃ text, content = Utf8.encode text) → (∀ c, ¬ HoldsObject content c) →
        ∃ f message, f.asSetup = .reported message ∧ Unread fs path f)
      ∧ ((∀ text, content ≠ Utf8.encode text) → ∃ fault, Unread fs path (.notText fault)) := by
  refine ⟨fun s c => ?_, ?_, readCredentials_bytes hfile⟩
  · by_cases htext : ∃ text, content = Utf8.encode text
    · obtain ⟨text, rfl⟩ := htext
      rw [holdsObject_encode_iff]
      rcases readCredentials_text hfile with ⟨c', hdocument, hread⟩ | ⟨hno, f, message, -, hunread⟩
      · rw [hread s]
        refine ⟨fun h => Except.ok.inj h ▸ hdocument, fun h => ?_⟩
        have hobject := Json.document_unique hdocument h
        exact congrArg Except.ok (Json.object.inj hobject)
      · rw [hunread.result s]
        exact iff_of_false (fun h => by cases h) (hno c)
    · obtain ⟨fault, hunread⟩ := readCredentials_bytes hfile fun text h => htext ⟨text, h⟩
      rw [hunread.result s]
      exact iff_of_false (fun h => by cases h) fun ⟨text, h, _⟩ => htext ⟨text, h⟩
  · rintro ⟨text, rfl⟩ hno
    rcases readCredentials_text hfile with ⟨c, hdocument, -⟩ | ⟨-, hunread⟩
    · exact absurd (holdsObject_encode_iff.mpr hdocument) (hno c)
    · exact hunread

end

def holding (content : List UInt8) : System where
  files := { entries := [(["key"], .file content)] }
  server := {}

theorem uses_holding (content : List UInt8) :
    Uses (holding content).files "key" givenArguments (holding content) :=
  ⟨rfl, givenOptions, .info, parse_givenArguments, checkLevel_info, by decide, rfl⟩

/-- A key file with a list in it ends the run with its status, and one with an object is read. -/
theorem credentials_outcome_list :
    Stands (holding (Utf8.encode "[1]\n")).files "key" (Utf8.encode "[1]\n")
      ∧ (run making givenArguments (holding (Utf8.encode "[1]\n"))).result = .error (.exit 1)
      ∧ Stands telling.files "key" (Utf8.encode "\x7b\"private_key\": \" pk1 \"\x7d")
      ∧ ∃ c, HoldsObject (Utf8.encode "\x7b\"private_key\": \" pk1 \"\x7d") c := by
  have hlist : Stands (holding (Utf8.encode "[1]\n")).files "key" (Utf8.encode "[1]\n") :=
    ⟨by decide, by decide +kernel⟩
  have hobject : Stands telling.files "key" (Utf8.encode "\x7b\"private_key\": \" pk1 \"\x7d") :=
    ⟨by decide, by decide +kernel⟩
  refine ⟨hlist, ?_, hobject, ?_⟩
  · obtain ⟨hread, hreported, -⟩ := credentials_outcome hlist
    have hfails : (readCredentials (holding (Utf8.encode "[1]\n")).files "key" ()).result.isOk = false := by
      decide +kernel
    obtain ⟨f, message, hf, hunread⟩ := hreported ⟨_, rfl⟩ fun c hc => by
      rw [(hread () c).mpr hc] at hfails
      cases hfails
    rw [hunread.ending (uses_holding _), hf]
    rfl
  · obtain ⟨hread, -, -⟩ := credentials_outcome hobject
    have hok : (readCredentials telling.files "key" ()).result.isOk = true := by decide +kernel
    cases hresult : (readCredentials telling.files "key" ()).result with
    | ok c => exact ⟨c, (hread () c).mp hresult⟩
    | error f =>
      rw [hresult] at hok
      cases hok

/-- **A key file that holds no text is not reported.** -/
theorem undecodable_credentials :
    Stands (holding [0xFF]).files "key" [0xFF]
      ∧ (readCredentials (holding [0xFF]).files "key" ()).result
        = .error (.notText ⟨0, [0xFF], .invalidStart⟩)
      ∧ (∀ message, CredentialsFault.asSetup (.notText ⟨0, [0xFF], .invalidStart⟩) ≠ .reported message)
      ∧ (run making givenArguments (holding [0xFF])).result
        = .error (.escaped (.notText ⟨0, [0xFF], .invalidStart⟩)) := by
  have hfile : Stands (holding [0xFF]).files "key" [0xFF] := ⟨by decide, by decide +kernel⟩
  have hread : readText (holding [0xFF]).files "key" = .error (.notText ⟨0, [0xFF], .invalidStart⟩) := by
    decide +kernel
  have hresult : ∀ {σ : Type} (s : σ), (readCredentials (holding [0xFF]).files "key" s).result
      = .error (.notText ⟨0, [0xFF], .invalidStart⟩) := fun s => by
    rw [readCredentials, credentialsText, hread]
    rfl
  have hsilent : ∀ message, CredentialsFault.asSetup (.notText ⟨0, [0xFF], .invalidStart⟩)
      ≠ .reported message := by
    rintro message h
    cases h
  exact ⟨hfile, hresult (), hsilent, (run_of_unread (uses_holding _) (hresult _)).1⟩

end CommandLine

end SecretForge
