import SecretForge.Proofs.Except
import SecretForge.Yaml.Load

/-!
# Why a document has no value

While the values of a document are made, its nodes change only so far: a default key may become an
ordinary text, and a mapping may get other entries.  So every scalar that is converted is one of the
document, under the type that the document gives it, and so is every scalar among the values.

* `Stands` — the scalars that a document has converted, each with its type.
* `NoValue` — the ways in which a document has no value; `Faithful` is what holds between two steps.
* `Keeps` — a step that keeps this; one lemma for each step of the making, from `make_keeps` to
  `fillAll_keeps`.
* **`toGraph_ends`** — a document has a value unless in these ways, and the scalars of the value are
  converted from those of the document.
-/

namespace SecretForge.Yaml

/-! ### The scalars of a document -/

/-- The type that a node has, once a default key may have become an ordinary text. -/
def Settles (tag tag' : Tag) : Prop := tag' = tag ∨ (tag = .default ∧ tag' = .text)

/-- The node of a number as it was read; a number that no node has stands for an omitted scalar. -/
def origin (nodes : Array Node) (n : Nat) : Node := nodes.getD n (.scalar .null "")

variable (nodes : Array Node)

/-- A scalar that is converted under a type: one of its own type, or one that a mapping of the type
stands for where a scalar is wanted. -/
inductive Stands : Tag → String → Prop where
  | own {n : Nat} {tag tag' : Tag} {text : String} (hnode : origin nodes n = .scalar tag text)
    (htag : Settles tag tag') : Stands tag' text
  | lent {n m : Nat} {tag tag' own : Tag} {entries : List (Nat × Nat)} {text : String}
    (hnode : origin nodes n = .mapping tag entries) (htag : Settles tag tag')
    (htext : origin nodes m = .scalar own text) : Stands tag' text

/-- The ways in which the nodes of a document have no value. -/
inductive NoValue : Fault → Prop where
  | malformed : NoValue .malformed
  /-- A scalar has no value of its type. -/
  | scalar {tag : Tag} {text : String} {f : Fault} (hstands : Stands nodes tag text)
    (hvalue : scalarValue tag text = .error f) : NoValue f
  /-- A mapping stands where a timestamp is wanted. -/
  | timestamp {n : Nat} {entries : List (Nat × Nat)}
    (hnode : origin nodes n = .mapping .timestamp entries) : NoValue .timestampOfMapping

/-- A scalar that a scalar of the document was converted to. -/
def Converted (s : Scalar) : Prop := ∃ tag text, Stands nodes tag text ∧ scalarValue tag text = .ok s

/-! ### What holds between two steps -/

/-- A node as it was read, up to the type of a default key and the entries of a mapping. -/
inductive Akin : Node → Node → Prop where
  | scalar {tag tag' : Tag} {text : String} : Settles tag tag' →
    Akin (.scalar tag text) (.scalar tag' text)
  | sequence {tag tag' : Tag} {items : List Nat} : Settles tag tag' →
    Akin (.sequence tag items) (.sequence tag' items)
  | mapping {tag tag' : Tag} {entries entries' : List (Nat × Nat)} : Settles tag tag' →
    Akin (.mapping tag entries) (.mapping tag' entries')

/-- What holds between two steps: the nodes are akin to those that were read, and the scalars made
were converted from them. -/
structure Faithful (b : Building) : Prop where
  akin : ∀ n, Akin (origin nodes n) (origin b.nodes n)
  converted : ∀ n s, b.cells.getD n none = some (.scalar s) → Converted nodes s

/-- A step that keeps this: it fails only where the document has no value, and what it ends with has a
property. -/
def Keeps {α : Type} (Q : α → Prop) (m : Build α) : Prop :=
  ∀ b, Faithful nodes b → EndsAs (NoValue nodes) (fun p => Q p.1 ∧ Faithful nodes p.2) (m b)

variable {nodes}

theorem Settles.trans {a b c : Tag} (h : Settles a b) (h' : Settles b c) : Settles a c := by
  rcases h with rfl | ⟨rfl, rfl⟩
  · exact h'
  · rcases h' with rfl | ⟨h, -⟩
    · exact .inr ⟨rfl, rfl⟩
    · cases h

theorem Akin.refl (node : Node) : Akin node node := by
  cases node with
  | scalar => exact .scalar (.inl rfl)
  | sequence => exact .sequence (.inl rfl)
  | mapping => exact .mapping (.inl rfl)

theorem Akin.tag {a b : Node} (h : Akin a b) : Settles a.tag b.tag := by
  cases h <;> assumption

/-- A node that is replaced by one akin to its origin. -/
theorem Faithful.setNode {b : Building} (h : Faithful nodes b) {n : Nat} {node : Node}
    (hnode : Akin (origin nodes n) node) :
    Faithful nodes { b with nodes := b.nodes.setIfInBounds n node } := by
  refine ⟨fun m => ?_, h.converted⟩
  have hm := h.akin m
  unfold origin at hm ⊢
  simp only [Array.getD_eq_getD_getElem?, Array.getElem?_setIfInBounds] at hm ⊢
  split
  · next hnm =>
    subst hnm
    split
    · rwa [origin, Array.getD_eq_getD_getElem?] at hnode
    · next hsize => rwa [Array.getElem?_eq_none (Nat.le_of_not_lt hsize)] at hm
  · exact hm

/-- A value that is set, and that was converted if it is a scalar. -/
theorem Faithful.setCell {b : Building} (h : Faithful nodes b) (n : Nat) {layer : Layer Nat}
    (hlayer : ∀ s, layer = .scalar s → Converted nodes s) :
    Faithful nodes { b with cells := b.cells.setIfInBounds n (some layer) } := by
  refine ⟨h.akin, fun m s hs => ?_⟩
  have hm := h.converted m s
  simp only [Array.getD_eq_getD_getElem?, Array.getElem?_setIfInBounds] at hs hm
  split at hs
  · split at hs
    · exact hlayer s (Option.some.inj hs)
    · cases hs
  · exact hm hs

/-- A value that no node gives, and that is no scalar. -/
theorem Faithful.push {b : Building} (h : Faithful nodes b) {layer : Layer Nat}
    (hlayer : ∀ s, layer ≠ .scalar s) :
    Faithful nodes { b with cells := b.cells.push (some layer) } := by
  refine ⟨h.akin, fun m s hs => ?_⟩
  have hm := h.converted m s
  simp only [Array.getD_eq_getD_getElem?, Array.getElem?_push] at hs hm
  split at hs
  · exact absurd (Option.some.inj hs) (hlayer s)
  · exact hm hs

namespace Keeps

variable {α β : Type} {Q : α → Prop} {R : β → Prop}

theorem pure {a : α} (h : Q a) : Keeps nodes Q (Pure.pure a : Build α) := fun _ hb => ⟨h, hb⟩

theorem throw {f : Fault} (h : NoValue nodes f) : Keeps nodes Q (MonadExcept.throw f : Build α) :=
  fun _ _ => h

theorem bind {m : Build α} {k : α → Build β} (hm : Keeps nodes Q m)
    (hk : ∀ a, Q a → Keeps nodes R (k a)) : Keeps nodes R (m >>= k) := fun b hb =>
  EndsAs.bind (hm b hb) fun p hp => hk p.1 hp.1 p.2 hp.2

theorem mono {Q' : α → Prop} {m : Build α} (hm : Keeps nodes Q m) (h : ∀ a, Q a → Q' a) :
    Keeps nodes Q' m := fun b hb => (hm b hb).mono fun p hp => ⟨h p.1 hp.1, hp.2⟩

theorem get : Keeps nodes (Faithful nodes) (MonadState.get : Build Building) := fun _ hb => ⟨hb, hb⟩

theorem changes {f : Building → Building} (h : ∀ b, Faithful nodes b → Faithful nodes (f b)) :
    Keeps nodes (fun _ => True) (modify f : Build Unit) := fun b hb => ⟨trivial, h b hb⟩

theorem ite {c : Prop} [Decidable c] {m m' : Build α} (hm : Keeps nodes Q m) (hm' : Keeps nodes Q m') :
    Keeps nodes Q (if c then m else m') := by
  split
  · exact hm
  · exact hm'

theorem forM {f : α → Build Unit} {as : List α} (hf : ∀ a, Keeps nodes (fun _ => True) (f a)) :
    Keeps nodes (fun _ => True) (as.forM f) := by
  induction as with
  | nil => exact pure trivial
  | cons a as ih => exact bind (hf a) fun _ _ => ih

theorem mapM {f : α → Build β} {as : List α} (hf : ∀ a, Keeps nodes (fun _ => True) (f a)) :
    Keeps nodes (fun _ => True) (as.mapM f) := by
  induction as with
  | nil => exact pure trivial
  | cons a as ih =>
    rw [List.mapM_cons]
    exact bind (hf a) fun _ _ => bind ih fun _ _ => pure trivial

theorem foldlM {f : β → α → Build β} {as : List α} {b : β}
    (hf : ∀ b a, Keeps nodes (fun _ => True) (f b a)) : Keeps nodes (fun _ => True) (as.foldlM f b) := by
  induction as generalizing b with
  | nil => exact pure trivial
  | cons a as ih =>
    rw [List.foldlM_cons]
    exact bind (hf b a) fun _ _ => ih

theorem lift {x : Except Fault α} (h : EndsAs (NoValue nodes) Q x) :
    Keeps nodes Q (liftM x : Build α) := fun b hb => by
  cases x with
  | error f => exact h
  | ok a => exact ⟨h, hb⟩

end Keeps

namespace Build

variable {n : Nat}

theorem node_keeps (n : Nat) : Keeps nodes (Akin (origin nodes n)) (Build.node n) :=
  .bind .get fun _ hb => .pure (hb.akin n)

theorem setNode_keeps {node : Node} (h : Akin (origin nodes n) node) :
    Keeps nodes (fun _ => True) (setNode n node) := .changes fun _ hb => hb.setNode h

theorem cell?_keeps (n : Nat) :
    Keeps nodes (fun c => ∀ s, c = some (.scalar s) → Converted nodes s) (cell? n) :=
  .bind .get fun _ hb => .pure (hb.converted n)

theorem setCell_keeps (n : Nat) {layer : Layer Nat} (h : ∀ s, layer = .scalar s → Converted nodes s) :
    Keeps nodes (fun _ => True) (setCell n layer) := .changes fun _ hb => hb.setCell n h

theorem splitAtKey_keeps (tag : Tag) (es : List (Nat × Nat)) :
    Keeps nodes (fun _ => True) (splitAtKey tag es) := by
  induction es with
  | nil => exact .pure trivial
  | cons e es ih =>
    rw [splitAtKey]
    refine .bind (node_keeps _) fun key _ => ?_
    split
    · exact .pure trivial
    · exact .bind ih fun _ _ => .pure trivial

/-! ### Scalars -/

/-- A text that a node gives where a scalar is wanted: its own, or for a mapping that of some scalar. -/
def Lends (nodes : Array Node) (n : Nat) (text : String) : Prop :=
  (∃ tag, origin nodes n = .scalar tag text)
    ∨ (∃ tag entries, origin nodes n = .mapping tag entries)
      ∧ ∃ m own, origin nodes m = .scalar own text

theorem scalarText_keeps (limit n : Nat) : Keeps nodes (Lends nodes n) (scalarText limit n) := by
  induction limit generalizing n with
  | zero => exact .throw .malformed
  | succ limit ih =>
    rw [scalarText]
    refine .bind (node_keeps n) fun node hnode => ?_
    generalize horigin : origin nodes n = read at hnode
    cases hnode with
    | scalar _ => exact .pure (.inl ⟨_, horigin⟩)
    | sequence _ => exact .throw .malformed
    | mapping _ =>
      refine .bind (splitAtKey_keeps _ _) fun found _ => ?_
      cases found with
      | none => exact .throw .malformed
      | some found =>
        refine .mono (ih found.2.1) fun text htext => .inr ⟨⟨_, _, horigin⟩, ?_⟩
        rcases htext with ⟨own, htext⟩ | ⟨-, htext⟩
        · exact ⟨_, own, htext⟩
        · exact htext

theorem scalar_keeps {tag : Tag} (htag : Settles (origin nodes n).tag tag) :
    Keeps nodes (Converted nodes) (Build.scalar tag n) := by
  rw [Build.scalar]
  refine .bind .get fun b _ => .bind (scalarText_keeps _ n) fun text htext =>
    .bind (node_keeps n) fun node hnode => ?_
  have hstands : Stands nodes tag text := by
    rcases htext with ⟨read, hread⟩ | ⟨⟨read, entries, hread⟩, m, own, htext⟩ <;> rw [hread] at htag
    · exact .own hread htag
    · exact .lent hread htag htext
  split
  · -- only the type of a default key ever changes, and not to that of a timestamp
    generalize horigin : origin nodes n = read at hnode htag
    cases hnode
    rcases htag with rfl | ⟨-, h⟩
    · exact .throw (.timestamp horigin)
    · cases h
  · refine .lift ?_
    cases hvalue : scalarValue tag text with
    | error f => exact .scalar hstands hvalue
    | ok s => exact ⟨_, _, hstands, hvalue⟩

/-- Making a value. -/
theorem make_keeps (n : Nat) : Keeps nodes (fun _ => True) (make n) := by
  have hcontainer (layer : Layer Nat) (hlayer : ∀ s, layer ≠ .scalar s) :
      Keeps nodes (fun _ => True) (do
        setCell n layer
        modify fun b => { b with pending := b.pending ++ [n] }) :=
    .bind (setCell_keeps n fun s hs => absurd hs (hlayer s)) fun _ _ =>
      .changes fun _ hb => ⟨hb.akin, hb.converted⟩
  rw [make]
  refine .bind (cell?_keeps n) fun c _ => .ite (.bind (node_keeps n) fun node hnode => ?_) (.pure trivial)
  split
  · exact hcontainer _ nofun
  · exact hcontainer _ nofun
  · exact hcontainer _ nofun
  · exact hcontainer _ nofun
  · exact hcontainer _ nofun
  · refine .bind (scalar_keeps hnode.tag) fun s hs => setCell_keeps n fun t ht => ?_
    cases ht
    exact hs

/-! ### Merge keys -/

def IsMapping (nodes : Array Node) (n : Nat) : Prop :=
  ∃ tag entries, origin nodes n = .mapping tag entries

theorem entriesOf_keeps (n : Nat) : Keeps nodes (fun _ => IsMapping nodes n) (entriesOf n) := by
  refine .bind (node_keeps n) fun node hnode => ?_
  generalize horigin : origin nodes n = read at hnode
  cases hnode with
  | mapping _ => exact .pure ⟨_, _, horigin⟩
  | scalar _ => exact .throw .malformed
  | sequence _ => exact .throw .malformed

theorem setEntries_keeps (h : IsMapping nodes n) (entries : List (Nat × Nat)) :
    Keeps nodes (fun _ => True) (setEntries n entries) := by
  obtain ⟨tag, old, horigin⟩ := h
  refine .bind (node_keeps n) fun node hnode => setNode_keeps ?_
  rw [horigin] at hnode ⊢
  exact .mapping hnode.tag

theorem settleKey_keeps (k : Nat) : Keeps nodes (fun _ => True) (settleKey k) := by
  refine .bind (node_keeps k) fun key hkey => ?_
  by_cases htag : key.tag = .default
  · rw [if_pos htag]
    refine setNode_keeps ?_
    have hsettles {tag tag' : Tag} (h : Settles tag tag') (h' : tag' = .default) : Settles tag .text :=
      h.trans (.inr ⟨h', rfl⟩)
    generalize origin nodes k = read at hkey ⊢
    cases hkey with
    | scalar h => exact .scalar (hsettles h htag)
    | sequence h => exact .sequence (hsettles h htag)
    | mapping h => exact .mapping (hsettles h htag)
  · rw [if_neg htag]
    exact .pure trivial

theorem settle_keeps (n : Nat) (brought : List (Nat × Nat)) :
    Keeps nodes (fun _ => True) (settle n brought) :=
  .bind (entriesOf_keeps n) fun _ h => .bind (.forM fun e => settleKey_keeps e.1) fun _ _ =>
    .bind (setEntries_keeps h _) fun _ _ => .pure trivial

/-- Taking the merge keys out of a mapping. -/
theorem absorb_keeps (limit n : Nat) (brought : List (Nat × Nat)) :
    Keeps nodes (fun _ => True) (absorb limit n brought) := by
  induction limit generalizing n brought with
  | zero => exact settle_keeps n brought
  | succ limit ih =>
    rw [absorb]
    refine .bind (entriesOf_keeps n) fun entries h => .bind (splitAtKey_keeps _ _) fun found _ => ?_
    cases found with
    | none => exact settle_keeps n brought
    | some found =>
      refine .bind (setEntries_keeps h _) fun _ _ => .bind (node_keeps _) fun node _ => ?_
      cases node with
      | sequence tag items =>
        exact .bind (.mapM fun item => ih item []) fun _ _ => .bind (.pure (Q := fun _ => True) trivial)
          fun _ _ => ih n _
      | scalar tag text => exact .bind (ih _ _) fun _ _ => ih n _
      | mapping tag entries => exact .bind (ih _ _) fun _ _ => ih n _

/-! ### Containers -/

theorem isSharedNan_keeps (n : Nat) : Keeps nodes (fun _ => True) (isSharedNan n) := by
  refine .bind .get fun b _ => ?_
  split <;> exact .pure trivial

theorem sameKey_keeps (a b : Nat) : Keeps nodes (fun _ => True) (sameKey a b) := by
  refine .bind (cell?_keeps a) fun c _ => .bind (cell?_keeps b) fun d _ => ?_
  split
  · exact .bind (isSharedNan_keeps a) fun _ _ => .bind (isSharedNan_keeps b) fun _ _ => .pure trivial
  · exact .pure trivial
  · exact .pure trivial

theorem putEntry_keeps (k v : Nat) (es : List (Nat × Nat)) :
    Keeps nodes (fun _ => True) (putEntry k v es) := by
  induction es with
  | nil => exact .pure trivial
  | cons e es ih =>
    rw [putEntry]
    exact .bind (sameKey_keeps _ _) fun _ _ => .ite (.pure trivial)
      (.bind ih fun _ _ => .pure trivial)

theorem mappingValue_keeps (n : Nat) : Keeps nodes (fun _ => True) (mappingValue n) := by
  refine .bind .get fun _ _ => .bind (absorb_keeps _ _ _) fun entries _ => .foldlM fun done e => ?_
  refine .bind (make_keeps _) fun _ _ => .bind (cell?_keeps _) fun key _ => ?_
  split
  · exact .bind (make_keeps _) fun _ _ => putEntry_keeps _ _ _
  · exact .throw .malformed

theorem pairValue_keeps (n : Nat) : Keeps nodes (fun _ => True) (pairValue n) := by
  refine .bind (node_keeps n) fun node _ => ?_
  split
  · exact .bind (make_keeps _) fun _ _ => .bind (make_keeps _) fun _ _ => .bind .get fun _ _ =>
      .bind (.changes fun _ hb => hb.push nofun) fun _ _ => .pure trivial
  · exact .throw .malformed

/-- Filling a container. -/
theorem fill_keeps (n : Nat) : Keeps nodes (fun _ => True) (fill n) := by
  refine .bind (node_keeps n) fun node _ => ?_
  split
  · exact .bind (.forM make_keeps) fun _ _ => setCell_keeps n nofun
  · exact .bind (.mapM pairValue_keeps) fun _ _ => setCell_keeps n nofun
  · exact .bind (.mapM pairValue_keeps) fun _ _ => setCell_keeps n nofun
  · exact .bind (mappingValue_keeps n) fun _ _ => setCell_keeps n nofun
  · exact .bind (mappingValue_keeps n) fun _ _ => setCell_keeps n nofun
  · exact .throw .malformed

theorem fillAll_keeps (limit : Nat) : Keeps nodes (fun _ => True) (fillAll limit) := by
  induction limit with
  | zero => exact .pure trivial
  | succ limit ih =>
    rw [fillAll]
    refine .bind .get fun b _ => ?_
    split
    · exact .pure trivial
    · exact .bind (.changes fun _ hb => ⟨hb.akin, hb.converted⟩) fun _ _ =>
        .bind (fill_keeps _) fun _ _ => ih

end Build

/-- **The value of a document**: there is one unless a scalar of the document has no value, and every scalar
in it was converted from one of the document. -/
theorem toGraph_ends (doc : Document) :
    EndsAs (NoValue doc.nodes)
      (fun g => ∀ n s, g.layer n = .scalar s → s = .null ∨ Converted doc.nodes s) doc.toGraph := by
  have hstart : Faithful doc.nodes
      { nodes := doc.nodes, cells := Array.replicate doc.nodes.size none } := by
    refine ⟨fun n => .refl _, fun n s hs => ?_⟩
    rw [Array.getD_eq_getD_getElem?, Array.getElem?_replicate] at hs
    split at hs <;> cases hs
  refine .bind (Keeps.bind (Build.make_keeps doc.root) (fun _ _ => Build.fillAll_keeps _) _ hstart)
    fun built hbuilt => .pure fun n s hs => ?_
  have hconverted := hbuilt.2.converted n s
  rw [Graph.layer, Array.getD_eq_getD_getElem?, Array.getElem?_map] at hs
  rw [Array.getD_eq_getD_getElem?] at hconverted
  rcases hcell : built.2.cells[n]? with _ | _ | layer <;> rw [hcell] at hs hconverted
  · cases hs
    exact .inl rfl
  · cases hs
    exact .inl rfl
  · exact .inr (hconverted (congrArg some hs))

end SecretForge.Yaml
