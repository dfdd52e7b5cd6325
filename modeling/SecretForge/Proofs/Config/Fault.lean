import SecretForge.Config.Read
import SecretForge.Proofs.Yaml.TokenFault
import SecretForge.Proofs.Yaml.ValueFault

/-!
# Why a config has no templates

A config text that gives no templates should be reported as a fault of the config.  It is, unless
something in the text has no value at all: an escape beyond the last code point, a version number or a
scalar that cannot be converted to its type, or a whole number that is too long to be written.  Then the
reading ends with a fault that no one foresaw.

* `Untold` — the ways in which a value has no text; **`ofValue_ends`** — the templates of a value fail
  otherwise only as faults of the config.
* `quotedIn_ends` — a value of a graph has a text unless there is too long a number in the graph.
* `Unforeseen` — what in a text ends its reading otherwise.
* **`parse_outcome`** — a config text gives templates, or a fault of the config, or something in it is
  unforeseen; `parse_impossible_date` is a text for the last.
-/

namespace SecretForge

open SecretForge.Number

/-! ### Values without a text -/

section

variable (ν : Type) [Layered ν]

/-- A fault with which some value is not shown. -/
def Untold (f : IntegerFault) : Prop :=
  ∃ v : ν, Layered.plain v = .error f ∨ Layered.quoted v = .error f

/-- A fault of an entry that is one of its shape, or of a value that is not shown. -/
inductive EntryUntold : EntryFault → Prop where
  | shape (fault : ShapeFault) : EntryUntold (.shape fault)
  | text {f : IntegerFault} (h : Untold ν f) : EntryUntold (.text f)

/-- A fault of a config, or of a value that is not shown. -/
inductive ReadUntold : ReadFault → Prop where
  | config (fault : ConfigFault) : ReadUntold (.config fault)
  | text {f : IntegerFault} (h : Untold ν f) : ReadUntold (.text f)

variable {ν}

theorem plain_ends (v : ν) :
    FailsAs (EntryUntold ν) ((Layered.plain v).mapError EntryFault.text) := by
  cases h : (Layered.plain v : Except IntegerFault String) with
  | ok text => trivial
  | error f => exact .text ⟨v, .inl h⟩

theorem textUnder_ends (key : String) (entries : List (ν × ν)) :
    FailsAs (EntryUntold ν) (textUnder key entries) := by
  rw [textUnder]
  split
  · trivial
  · exact .ite trivial (plain_ends _)

theorem entry_ends (v : ν) : FailsAs (EntryUntold ν) (Entry.ofValue v) := by
  rw [Entry.ofValue]
  split
  · exact .bind (textUnder_ends _ _) fun _ _ => .bind (textUnder_ends _ _) fun _ _ => .given _
  · refine .bind (Q := fun _ => True) ?_ fun _ _ => .throw (.shape _)
    cases h : (Layered.quoted v : Except IntegerFault String) with
    | ok text => trivial
    | error f => exact .text ⟨v, .inr h⟩

namespace Template

theorem paramValues_ends (name : String) (v : ν) : FailsAs (EntryUntold ν) (paramValues name v) := by
  rw [paramValues]
  refine .ite trivial ?_
  split
  · exact .mono (.mapM fun v _ => plain_ends v) fun _ _ => trivial
  · exact .shape _

theorem paramsIn_ends (entries : List (ν × ν)) : FailsAs (EntryUntold ν) (paramsIn entries) := by
  rw [paramsIn]
  split
  · trivial
  · split
    · exact .foldlM trivial fun _ _ _ _ => .bind (plain_ends _) fun _ _ =>
        .bind (paramValues_ends _ _) fun _ _ => .given _
    · exact .shape _

theorem ofEntries_ends (entries : List (ν × ν)) : FailsAs (EntryUntold ν) (ofEntries entries) := by
  have hsection (vs : List ν) : FailsAs (EntryUntold ν) (vs.mapM Entry.ofValue) :=
    .mono (.mapM fun v _ => entry_ends v) fun _ _ => trivial
  rw [ofEntries]
  split
  · exact .bind (paramsIn_ends _) fun _ _ => .bind (textUnder_ends _ _) fun _ _ =>
      .bind (hsection _) fun _ _ => .bind (hsection _) fun _ _ => .bind (textUnder_ends _ _) fun _ _ =>
      .bind (textUnder_ends _ _) fun _ _ => .given _
  · exact .throw (.shape _)

end Template

namespace Config

theorem templatesFrom_ends (index : Nat) (vs : List ν) :
    FailsAs (ReadUntold ν) (templatesFrom index vs) := by
  induction vs generalizing index with
  | nil => trivial
  | cons v vs ih =>
    rw [templatesFrom]
    split
    · exact .config _
    · next entries _ =>
      have hentries := Template.ofEntries_ends entries
      rcases h : Template.ofEntries entries with (_ | f) | t <;> rw [h] at hentries
      · exact .config _
      · cases hentries with
        | text h => exact .text h
      · exact .map (ih _) fun _ _ => trivial

/-- **The templates of a value**: there are some, unless the config has a fault or a value in it is not
shown. -/
theorem ofValue_ends (source : String) (v : ν) : FailsAs (ReadUntold ν) (ofValue source v) := by
  rw [ofValue]
  refine .ite (.config _) ?_
  split
  · exact .config _
  · exact templatesFrom_ends _ _

end Config

end

/-! ### Values of a graph -/

namespace Layer

variable {ν μ ε : Type} {F : ε → Prop} {f : ν → Except ε μ}

/-- The values directly in a layer. -/
def parts : Layer ν → List ν
  | .scalar _ => []
  | .list items => items
  | .map entries => entries.flatMap fun e => [e.1, e.2]
  | .set members => members
  | .pair key value => [key, value]

/-- A layer whose values are replaced is a scalar only if it was that scalar before. -/
theorem traverse_ends {layer : Layer ν} (hf : ∀ v ∈ layer.parts, FailsAs F (f v)) :
    EndsAs F (fun l => ∀ s, l = .scalar s → layer = .scalar s) (layer.traverse f) := by
  have hmembers (vs : List ν) (hvs : ∀ v ∈ vs, FailsAs F (f v)) : FailsAs F (vs.mapM f) :=
    .mono (.mapM hvs) fun _ _ => trivial
  cases layer with
  | scalar s => exact fun t ht => by cases ht; rfl
  | list items => exact .bind (hmembers items hf) fun _ _ => .pure nofun
  | map entries =>
    have hentry (e : ν × ν) (he : e ∈ entries) : FailsAs F (f e.1) ∧ FailsAs F (f e.2) :=
      ⟨hf e.1 (List.mem_flatMap.mpr ⟨e, he, by simp⟩), hf e.2 (List.mem_flatMap.mpr ⟨e, he, by simp⟩)⟩
    have hentries : FailsAs F (entries.mapM fun e => return (← f e.1, ← f e.2)) :=
      .mono (.mapM fun e he => .bind (hentry e he).1 fun _ _ => .bind (hentry e he).2 fun _ _ => .given _)
        fun _ _ => trivial
    exact .bind hentries fun _ _ => .pure nofun
  | set members => exact .bind (hmembers members hf) fun _ _ => .pure nofun
  | pair a b =>
    exact .bind (hf a (by simp [parts])) fun _ _ => .bind (hf b (by simp [parts])) fun _ _ => .pure nofun

theorem text_ends {F : IntegerFault → Prop} {layer : Layer String}
    (h : ∀ s, layer = .scalar s → FailsAs F s.quoted) : FailsAs F layer.text := by
  cases layer with
  | scalar s => exact h s rfl
  | set members => cases members <;> trivial
  | _ => trivial

end Layer

namespace Graph

variable (g : Graph)

/-- A fault of a number in a graph that is too long to be written. -/
def TooLong (f : IntegerFault) : Prop :=
  ∃ n i, g.layer n = .scalar (.int i) ∧ writeInteger i = .error f

variable {g}

theorem quoted_ends {n : Nat} {s : Scalar} (h : g.layer n = .scalar s) :
    FailsAs g.TooLong s.quoted := by
  cases s with
  | int i =>
    rw [Scalar.quoted]
    cases hwrite : writeInteger i with
    | ok text => trivial
    | error f => exact ⟨n, i, h, hwrite⟩
  | _ => trivial

/-- The quoted text of a value. -/
theorem quotedIn_ends (levels : Nat) (around : List Nat) (n : Nat) :
    FailsAs g.TooLong (g.quotedIn levels around n) := by
  induction levels generalizing around n with
  | zero => trivial
  | succ levels ih =>
    rw [quotedIn]
    exact .ite trivial <| .bind (Layer.traverse_ends fun n _ => ih _ n) fun _ hl =>
      Layer.text_ends fun s hs => quoted_ends (hl s hs)

/-- **A value of a graph has a text** unless there is too long a number in the graph. -/
theorem untold_vertex {f : IntegerFault} (h : Untold (Vertex g) f) : g.TooLong f := by
  obtain ⟨v, h | h⟩ := h
  · have hplain : FailsAs g.TooLong (Layered.plain v) := by
      rw [Layered.plain]
      split
      · next s hs =>
        have hlayer : (g.layer v.number).mapValues Vertex.mk = .scalar s := hs
        cases hread : g.layer v.number with
        | scalar t =>
          rw [hread] at hlayer
          cases hlayer
          cases s <;> first | trivial | exact quoted_ends hread
        | _ => rw [hread] at hlayer; cases hlayer
      · exact quotedIn_ends _ _ _
    rwa [h] at hplain
  · have hquoted : FailsAs g.TooLong (Layered.quoted v) := quotedIn_ends _ _ _
    rwa [h] at hquoted

end Graph

/-! ### Config texts -/

namespace Config

open Yaml

/-- What in a config text ends its reading otherwise than with a fault of the config. -/
inductive Unforeseen (text : String) : ReadFault → Prop where
  /-- The text cannot be split into tokens: an escape names no code point, or a version number cannot be
  converted. -/
  | token {f : Yaml.Fault} (hmem : .fault f ∈ Token.ofText text)
    (hfault : f = .codePointTooLarge ∨ f = .codePointOverflow ∨ ∃ g, f = .integer g) :
    Unforeseen text (.scalar f)
  /-- A scalar has no value of its type. -/
  | scalar {doc : Yaml.Document} {tag : Tag} {s : String} {f : Yaml.Fault}
    (hdoc : Yaml.Document.ofTokens (Token.ofText text) = .ok (some doc)) (hstands : Stands doc.nodes tag s)
    (hvalue : scalarValue tag s = .error f) : Unforeseen text (.scalar f)
  /-- A mapping stands where a timestamp is wanted. -/
  | timestamp {doc : Yaml.Document} {n : Nat} {entries : List (Nat × Nat)}
    (hdoc : Yaml.Document.ofTokens (Token.ofText text) = .ok (some doc))
    (hnode : origin doc.nodes n = .mapping .timestamp entries) :
    Unforeseen text (.scalar .timestampOfMapping)
  /-- A whole number is too long to be written. -/
  | number {doc : Yaml.Document} {s : String} {i : Int} {f : IntegerFault}
    (hdoc : Yaml.Document.ofTokens (Token.ofText text) = .ok (some doc)) (hstands : Stands doc.nodes .int s)
    (hvalue : wholeNumber s = .ok i) (hwrite : writeInteger i = .error f) : Unforeseen text (.text f)

/-- A scalar is converted to a whole number only under the type of whole numbers. -/
theorem scalarValue_int {tag : Tag} {s : String} {i : Int} (h : scalarValue tag s = .ok (.int i)) :
    tag = .int ∧ wholeNumber s = .ok i := by
  have hmoment : EndsAs (fun _ => True) (fun v => v ≠ .int i) (moment s) := by
    rw [moment]
    split
    · trivial
    · split <;> exact .mapError (.map (.anyway _) fun _ _ => nofun) fun _ _ => trivial
  cases tag with
  | int =>
    obtain ⟨j, hj, hint⟩ := exists_of_map_ok h
    cases hint
    exact ⟨rfl, hj⟩
  | bool =>
    obtain ⟨_, -, h⟩ := exists_of_map_ok h
    cases h
  | float =>
    obtain ⟨_, -, h⟩ := exists_of_map_ok h
    cases h
  | binary =>
    rw [scalarValue, binary] at h
    split at h
    · cases h
    · split at h <;> cases h
  | timestamp =>
    rw [show moment s = .ok (.int i) from h] at hmoment
    exact absurd rfl hmoment
  | _ => cases h

/-- What the values of a text fail with is malformed, or unforeseen. -/
theorem load_ends (text : String) :
    EndsAs (fun f => f = .malformed ∨ Unforeseen text (.scalar f))
      (fun g => ∀ f, g.TooLong f → Unforeseen text (.text f)) (Yaml.load text) := by
  rw [Yaml.load]
  cases hdoc : Yaml.Document.ofTokens (Token.ofText text) with
  | error f =>
    refine .error ((Node.ofTokens_error hdoc).elim .inl fun hmem => ?_)
    cases ofText_fault hmem with
    | malformed => exact .inl rfl
    | codePointTooLarge => exact .inr (.token hmem (.inl rfl))
    | codePointOverflow => exact .inr (.token hmem (.inr (.inl rfl)))
    | version g => exact .inr (.token hmem (.inr (.inr ⟨g, rfl⟩)))
  | ok found =>
    cases found with
    | none =>
      rintro f ⟨n, i, hlayer, -⟩
      rcases n with _ | n <;> cases hlayer
    | some doc =>
      have hgraph := toGraph_ends doc
      rcases hresult : doc.toGraph with f | g <;> rw [hresult] at hgraph <;>
        show EndsAs _ _ doc.toGraph <;> rw [hresult]
      · cases hgraph with
        | malformed => exact .inl rfl
        | scalar hstands hvalue => exact .inr (.scalar hdoc hstands hvalue)
        | timestamp hnode => exact .inr (.timestamp hdoc hnode)
      · rintro f ⟨n, i, hlayer, hwrite⟩
        rcases hgraph n _ hlayer with h | ⟨tag, s, hstands, hvalue⟩
        · cases h
        · obtain ⟨rfl, hwhole⟩ := scalarValue_int hvalue
          exact .number hdoc hstands hwhole hwrite

/-- **A config text** gives templates, or a fault of the config, or something in it is unforeseen. -/
theorem parse_outcome (text source : String) :
    (∃ ts, parse text source = .ok ts) ∨ (∃ f, parse text source = .error (.config f))
      ∨ ∃ fault, parse text source = .error fault ∧ Unforeseen text fault := by
  have hload := load_ends text
  rcases hresult : Yaml.load text with f | g <;> rw [hresult] at hload
  · rcases hload with rfl | hunforeseen
    · exact .inr (.inl ⟨.unreadable source, by rw [parse, hresult]⟩)
    · by_cases hf : f = .malformed
      · exact .inr (.inl ⟨.unreadable source, by rw [parse, hresult, hf]⟩)
      · refine .inr (.inr ⟨.scalar f, ?_, hunforeseen⟩)
        rw [parse, hresult]
        cases f <;> first | rfl | exact absurd rfl hf
  · have hparse : parse text source = ofValue source g.top := by rw [parse, hresult]
    have hvalue := ofValue_ends source g.top
    rw [hparse]
    rcases hmade : ofValue source g.top with fault | ts <;> rw [hmade] at hvalue
    · rcases hvalue with f | h
      · exact .inr (.inl ⟨f, rfl⟩)
      · exact .inr (.inr ⟨_, rfl, hload _ (Graph.untold_vertex h)⟩)
    · exact .inl ⟨ts, rfl⟩

/-- A day of a thirteenth month, which looks like a date, is unforeseen. -/
theorem parse_impossible_date :
    parse "- item_name: 2024-13-45\n" "<string>" = .error (.scalar (.outOfRange .month)) := by
  decide +kernel

end Config

end SecretForge
