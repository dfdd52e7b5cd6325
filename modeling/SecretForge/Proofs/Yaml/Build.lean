import SecretForge.Proofs.Yaml.Nodes
import SecretForge.Yaml.Load

/-!
# The values of plain nodes

Nodes are plain if they are texts, sequences and mappings with distinct texts as keys.  Such nodes give
their values without change: there is no merge key to take out and no key to put in twice.  The
containers wait in a queue and every node comes into it at most once, so that the number of nodes is
limit enough for all of them to be filled.

* `Plain` — the nodes that are plain, with the nodes in them.
* `Progress` — what holds between two steps, with the containers at work.
* `make_plain`, `fill_plain` — what a step keeps.
* **`toGraph_plain`** — every value of the graph is that of its node.
-/

namespace SecretForge.Yaml

/-! ### Plain nodes -/

/-- A node that is a text, a sequence of plain nodes, or a mapping of distinct texts to plain nodes. -/
inductive Plain (nodes : Array Node) : Nat → Prop where
  | text {n : Nat} {s : String} : nodes[n]? = some (.scalar .text s) → Plain nodes n
  | list {n : Nat} {ns : List Nat} : nodes[n]? = some (.sequence .sequence ns) →
      (∀ m ∈ ns, Plain nodes m) → Plain nodes n
  | map {n : Nat} {ms : List (Nat × Nat)} : nodes[n]? = some (.mapping .mapping ms) →
      (∀ e ∈ ms, ∃ s, nodes[e.1]? = some (.scalar .text s)) → (∀ e ∈ ms, Plain nodes e.2) →
      (ms.map fun e => nodes[e.1]?).Nodup → Plain nodes n

/-- The value that a plain node gives, with the numbers of the values in it. -/
def Node.layer : Node → Layer Nat
  | .scalar _ s => .scalar (.text s)
  | .sequence _ ns => .list ns
  | .mapping _ ms => .map ms

def members : Layer Nat → List Nat
  | .list ns => ns
  | .map ms => ms.flatMap fun e => [e.1, e.2]
  | _ => []

namespace Build

/-- A step that succeeds, with the state after it. -/
def Runs {α : Type} (m : Build α) (b : Building) (a : α) (b' : Building) : Prop := m b = .ok (a, b')

section

variable {α β : Type} {m : Build α} {k : α → Build β} {b b' b'' : Building} {a : α} {c : β}

theorem Runs.bind (h : Runs m b a b') (h' : Runs (k a) b' c b'') : Runs (m >>= k) b c b'' := by
  show ((m b).bind _) = _
  rw [show m b = .ok (a, b') from h]
  exact h'

theorem runs_pure : Runs (pure a) b a b := rfl

theorem runs_node {n : Nat} {node : Node} (h : b.nodes[n]? = some node) :
    Runs (Build.node n) b node b := by
  show Except.ok (b.nodes.getD n (.scalar .null ""), b) = _
  rw [Array.getD_eq_getD_getElem?, h]
  rfl

theorem runs_cell? {n : Nat} {cell : Option (Layer Nat)} (h : b.cells[n]? = some cell) :
    Runs (Build.cell? n) b cell b := by
  show Except.ok (b.cells.getD n none, b) = _
  rw [Array.getD_eq_getD_getElem?, h]
  rfl

end

/-! ### What holds between two steps -/

/-- The value of a number is made, though a container may still be empty. -/
def Made (b : Building) (n : Nat) : Prop := ∃ layer, b.cells[n]? = some (some layer)

/-- The number of nodes whose values are not made. -/
def unmade (b : Building) : Nat := b.cells.countP (·.isNone)

/-- What holds between two steps: the values made are those of plain nodes, and each is complete
unless it is at work or in the queue.  The queue and the nodes that may still come into it are within
a limit. -/
structure Progress (nodes : Array Node) (work : List Nat) (limit : Nat) (b : Building) : Prop where
  same : b.nodes = nodes
  size : b.cells.size = nodes.size
  plain : ∀ n, Made b n → Plain nodes n
  waiting : ∀ n ∈ work ++ b.pending, Made b n ∧ ∀ s, nodes[n]? ≠ some (.scalar .text s)
  complete : ∀ n layer, b.cells[n]? = some (some layer) → n ∈ work ++ b.pending
    ∨ (∃ node, nodes[n]? = some node ∧ layer = node.layer) ∧ ∀ m ∈ members layer, Made b m
  count : b.pending.length + unmade b ≤ limit

/-- A state with all the values of another. -/
def Later (b b' : Building) : Prop :=
  ∀ (n : Nat) (layer : Layer Nat), b.cells[n]? = some (some layer) → b'.cells[n]? = some (some layer)

variable {nodes : Array Node} {work : List Nat} {limit : Nat} {b b' : Building}

theorem Later.refl : Later b b := fun _ _ h => h

theorem Later.trans {b'' : Building} (h : Later b b') (h' : Later b' b'') : Later b b'' :=
  fun n layer hn => h' n layer (h n layer hn)

theorem Later.made {n : Nat} (h : Later b b') (hn : Made b n) : Made b' n :=
  let ⟨layer, hlayer⟩ := hn
  ⟨layer, h n layer hlayer⟩

/-- The value of a text is complete as soon as it is made. -/
theorem Progress.text {n : Nat} {s : String} (h : Progress nodes work limit b) (hn : Made b n)
    (hs : nodes[n]? = some (.scalar .text s)) :
    b.cells[n]? = some (some (.scalar (.text s))) := by
  obtain ⟨layer, hlayer⟩ := hn
  rcases h.complete n layer hlayer with hwork | ⟨⟨node, hnode, rfl⟩, -⟩
  · exact absurd hs ((h.waiting n hwork).2 s)
  · rw [hs] at hnode
    cases hnode
    exact hlayer

theorem unmade_set {n : Nat} {layer : Layer Nat} {cell : Option (Layer Nat)}
    (h : b.cells[n]? = some cell) :
    unmade { b with cells := b.cells.setIfInBounds n (some layer) } + (if cell.isNone then 1 else 0)
      = unmade b := by
  obtain ⟨hlt, hcell⟩ := Array.getElem?_eq_some_iff.mp h
  show (b.cells.setIfInBounds n (some layer)).countP (·.isNone) + _ = b.cells.countP (·.isNone)
  rw [Array.setIfInBounds_def, dif_pos hlt, Array.countP_set hlt, hcell]
  have hpos : cell.isNone = true → 0 < b.cells.countP (·.isNone) := fun hnone =>
    Array.countP_pos_iff.mpr ⟨cell, Array.mem_of_getElem? h, hnone⟩
  cases cell with
  | none =>
    have := hpos rfl
    simp only [Option.isNone_none, Option.isNone_some, if_true, Bool.false_eq_true, if_false]
    omega
  | some layer => rfl

def put (n : Nat) (layer : Layer Nat) (b : Building) : Building :=
  { b with cells := b.cells.setIfInBounds n (some layer) }

theorem later_put {n : Nat} {layer : Layer Nat} (h : b.cells[n]? = some none) :
    Later b (put n layer b) := by
  intro m other hm
  show (b.cells.setIfInBounds n (some layer))[m]? = _
  rw [Array.getElem?_setIfInBounds_ne fun e => ?_]
  · exact hm
  · rw [← e, h] at hm
    cases hm

theorem put_self {n : Nat} {layer : Layer Nat} {cell : Option (Layer Nat)}
    (h : b.cells[n]? = some cell) : (put n layer b).cells[n]? = some (some layer) :=
  Array.getElem?_setIfInBounds_self_of_lt (Array.getElem?_eq_some_iff.mp h).1

theorem put_cases {n m : Nat} {layer other : Layer Nat}
    (h : (put n layer b).cells[m]? = some (some other)) :
    (m = n ∧ other = layer) ∨ (m ≠ n ∧ b.cells[m]? = some (some other)) := by
  have hset : (b.cells.setIfInBounds n (some layer))[m]? = some (some other) := h
  rw [Array.getElem?_setIfInBounds] at hset
  split at hset
  · next e =>
    split at hset
    · cases hset
      exact .inl ⟨e.symm, rfl⟩
    · cases hset
  · next e => exact .inr ⟨Ne.symm e, hset⟩

/-! ### Making one value -/

section

variable {n : Nat}

theorem make_made {layer : Layer Nat} (h : b.cells[n]? = some (some layer)) :
    Runs (make n) b () b := by
  unfold make
  refine (runs_cell? h).bind ?_
  rfl

theorem make_text {s : String} (h : b.cells[n]? = some none)
    (hn : b.nodes[n]? = some (.scalar .text s)) :
    Runs (make n) b () (put n (.scalar (.text s)) b) := by
  have htext : Runs (scalarText (b.nodes.size + 1) n) b s b := by
    rw [scalarText]
    exact (runs_node hn).bind runs_pure
  have hscalar : Runs (scalar .text n) b (.text s) b := by
    unfold scalar
    refine Runs.bind (a := b) rfl (htext.bind ((runs_node hn).bind rfl))
  unfold make
  exact (runs_cell? h).bind ((runs_node hn).bind (hscalar.bind rfl))

theorem make_list {ns : List Nat} (h : b.cells[n]? = some none)
    (hn : b.nodes[n]? = some (.sequence .sequence ns)) :
    Runs (make n) b () { put n (.list []) b with pending := b.pending ++ [n] } := by
  unfold make
  exact (runs_cell? h).bind ((runs_node hn).bind rfl)

theorem make_map {ms : List (Nat × Nat)} (h : b.cells[n]? = some none)
    (hn : b.nodes[n]? = some (.mapping .mapping ms)) :
    Runs (make n) b () { put n (.map []) b with pending := b.pending ++ [n] } := by
  unfold make
  exact (runs_cell? h).bind ((runs_node hn).bind rfl)

end

theorem Progress.put_text {n : Nat} {s : String} (h : Progress nodes work limit b)
    (hnone : b.cells[n]? = some none) (hs : nodes[n]? = some (.scalar .text s)) :
    Progress nodes work limit (put n (.scalar (.text s)) b) where
  same := h.same
  size := (Array.size_setIfInBounds ..).trans h.size
  plain m hm := by
    obtain ⟨layer, hlayer⟩ := hm
    rcases put_cases hlayer with ⟨rfl, -⟩ | ⟨-, hold⟩
    · exact .text hs
    · exact h.plain m ⟨layer, hold⟩
  waiting m hm := ⟨(later_put hnone).made (h.waiting m hm).1, (h.waiting m hm).2⟩
  complete m layer hlayer := by
    rcases put_cases hlayer with ⟨rfl, rfl⟩ | ⟨-, hold⟩
    · exact .inr ⟨⟨_, hs, rfl⟩, fun _ hmem => absurd hmem List.not_mem_nil⟩
    · exact (h.complete m layer hold).imp_right fun ⟨hnode, hmade⟩ =>
        ⟨hnode, fun k hk => (later_put hnone).made (hmade k hk)⟩
  count := by
    have hunmade : unmade (put n (.scalar (.text s)) b) + 1 = unmade b := unmade_set hnone
    have := h.count
    show b.pending.length + unmade (put n (.scalar (.text s)) b) ≤ limit
    omega

/-- A container comes into the queue when its value is made. -/
theorem Progress.enqueue {n : Nat} (layer : Layer Nat) (h : Progress nodes work limit b)
    (hnone : b.cells[n]? = some none) (hn : Plain nodes n)
    (hs : ∀ s, nodes[n]? ≠ some (.scalar .text s)) :
    Progress nodes work limit { put n layer b with pending := b.pending ++ [n] } where
  same := h.same
  size := (Array.size_setIfInBounds ..).trans h.size
  plain m hm := by
    obtain ⟨other, hother⟩ := hm
    rcases put_cases hother with ⟨rfl, -⟩ | ⟨-, hold⟩
    · exact hn
    · exact h.plain m ⟨other, hold⟩
  waiting m hm := by
    rw [← List.append_assoc, List.mem_append, List.mem_singleton] at hm
    rcases hm with hm | rfl
    · exact ⟨(later_put hnone).made (h.waiting m hm).1, (h.waiting m hm).2⟩
    · exact ⟨⟨layer, put_self hnone⟩, hs⟩
  complete m other hother := by
    rw [← List.append_assoc, List.mem_append, List.mem_singleton]
    rcases put_cases hother with ⟨rfl, -⟩ | ⟨-, hold⟩
    · exact .inl (.inr rfl)
    · rcases h.complete m other hold with hwork | ⟨hnode, hmade⟩
      · exact .inl (.inl hwork)
      · exact .inr ⟨hnode, fun k hk => (later_put hnone).made (hmade k hk)⟩
  count := by
    have hunmade : unmade (put n layer b) + 1 = unmade b := unmade_set hnone
    have := h.count
    show (b.pending ++ [n]).length + unmade (put n layer b) ≤ limit
    rw [List.length_append, List.length_singleton]
    omega

/-- A container at work is complete once it holds its members, if their values are made. -/
theorem Progress.finish {n : Nat} {node : Node} (h : Progress nodes [n] limit b)
    (hn : nodes[n]? = some node) (hmembers : ∀ m ∈ members node.layer, Made b m) :
    Progress nodes [] limit (put n node.layer b) := by
  obtain ⟨old, hold⟩ := (h.waiting n (List.mem_append_left _ List.mem_cons_self)).1
  have hkept : ∀ m, Made b m → Made (put n node.layer b) m := by
    rintro m ⟨layer, hlayer⟩
    by_cases e : n = m
    · subst e
      exact ⟨_, put_self hold⟩
    · refine ⟨layer, ?_⟩
      show (b.cells.setIfInBounds n (some node.layer))[m]? = _
      rw [Array.getElem?_setIfInBounds_ne e]
      exact hlayer
  refine ⟨h.same, (Array.size_setIfInBounds ..).trans h.size, fun m hm => ?_, fun m hm => ?_,
    fun m layer hlayer => ?_, ?_⟩
  · obtain ⟨layer, hlayer⟩ := hm
    rcases put_cases hlayer with ⟨rfl, -⟩ | ⟨-, hlayer⟩
    · exact h.plain m ⟨old, hold⟩
    · exact h.plain m ⟨layer, hlayer⟩
  · have hwaiting := h.waiting m (List.mem_append_right _ hm)
    exact ⟨hkept m hwaiting.1, hwaiting.2⟩
  · rcases put_cases hlayer with ⟨rfl, rfl⟩ | ⟨hne, hlayer⟩
    · exact .inr ⟨⟨node, hn, rfl⟩, fun k hk => hkept k (hmembers k hk)⟩
    · rcases h.complete m layer hlayer with hwork | ⟨hnode, hmade⟩
      · rcases List.mem_append.mp hwork with hself | hwork
        · exact absurd (List.mem_singleton.mp hself) hne
        · exact .inl hwork
      · exact .inr ⟨hnode, fun k hk => hkept k (hmade k hk)⟩
  · have hunmade : unmade (put n node.layer b) = unmade b := unmade_set hold
    have := h.count
    show b.pending.length + unmade (put n node.layer b) ≤ limit
    omega

/-- **Making the value of a plain node.** -/
theorem make_plain {n : Nat} (h : Progress nodes work limit b) (hn : Plain nodes n) :
    ∃ b', Runs (make n) b () b' ∧ Progress nodes work limit b' ∧ Made b' n ∧ Later b b' := by
  obtain ⟨node, hnode⟩ : ∃ node, nodes[n]? = some node := by
    cases hn with
    | text h => exact ⟨_, h⟩
    | list h => exact ⟨_, h⟩
    | map h => exact ⟨_, h⟩
  obtain ⟨cell, hcell⟩ : ∃ cell, b.cells[n]? = some cell := by
    have hlt : n < b.cells.size := h.size ▸ (Array.getElem?_eq_some_iff.mp hnode).1
    exact ⟨_, Array.getElem?_eq_getElem hlt⟩
  cases cell with
  | some layer => exact ⟨b, make_made hcell, h, ⟨layer, hcell⟩, Later.refl⟩
  | none =>
    cases hn with
    | text hs =>
      exact ⟨_, make_text hcell (h.same ▸ hs), h.put_text hcell hs, ⟨_, put_self hcell⟩,
        later_put hcell⟩
    | list hns hmembers =>
      have hnot : ∀ s, nodes[n]? ≠ some (.scalar .text s) := fun s => by
        rw [hns]
        exact fun h => nomatch h
      exact ⟨_, make_list hcell (h.same ▸ hns), h.enqueue _ hcell (.list hns hmembers) hnot,
        ⟨_, put_self hcell⟩, later_put hcell⟩
    | map hms hkeys hvalues hdistinct =>
      have hnot : ∀ s, nodes[n]? ≠ some (.scalar .text s) := fun s => by
        rw [hms]
        exact fun h => nomatch h
      exact ⟨_, make_map hcell (h.same ▸ hms), h.enqueue _ hcell (.map hms hkeys hvalues hdistinct)
        hnot, ⟨_, put_self hcell⟩, later_put hcell⟩

/-! ### Filling one container -/

theorem make_all {ns : List Nat} (h : Progress nodes work limit b) (hns : ∀ m ∈ ns, Plain nodes m) :
    ∃ b', Runs (ns.forM make) b () b' ∧ Progress nodes work limit b' ∧ (∀ m ∈ ns, Made b' m)
      ∧ Later b b' := by
  induction ns generalizing b with
  | nil => exact ⟨b, rfl, h, fun _ hm => absurd hm List.not_mem_nil, Later.refl⟩
  | cons n ns ih =>
    obtain ⟨b₁, hrun, h₁, hmade, hlater⟩ := make_plain h (hns n List.mem_cons_self)
    obtain ⟨b₂, hruns, h₂, hall, hlater'⟩ := ih h₁ fun m hm => hns m (List.mem_cons_of_mem n hm)
    refine ⟨b₂, ?_, h₂, fun m hm => ?_, hlater.trans hlater'⟩
    · exact Runs.bind (k := fun _ => ns.forM make) hrun hruns
    · rcases List.mem_cons.mp hm with rfl | hm
      · exact hlater'.made hmade
      · exact hall m hm

def TextKeys (nodes : Array Node) (ms : List (Nat × Nat)) : Prop :=
  ∀ e ∈ ms, ∃ s, nodes[e.1]? = some (.scalar .text s)

section

variable {ms : List (Nat × Nat)} {n : Nat}

theorem splitAtKey_none {tag : Tag} (htag : tag ≠ .text) (h : TextKeys b.nodes ms) :
    Runs (splitAtKey tag ms) b none b := by
  induction ms with
  | nil => rfl
  | cons e ms ih =>
    obtain ⟨s, hs⟩ := h e List.mem_cons_self
    rw [splitAtKey]
    refine (runs_node hs).bind ?_
    rw [if_neg (show ¬ (Node.scalar .text s).tag = tag from fun e => htag e.symm)]
    exact (ih fun e he => h e (List.mem_cons_of_mem _ he)).bind rfl

theorem settleKeys_none (h : TextKeys b.nodes ms) : Runs (ms.forM fun e => settleKey e.1) b () b := by
  induction ms with
  | nil => rfl
  | cons e ms ih =>
    obtain ⟨s, hs⟩ := h e List.mem_cons_self
    have hfirst : Runs (settleKey e.1) b () b := by
      unfold settleKey
      exact (runs_node hs).bind rfl
    exact Runs.bind (k := fun _ => ms.forM fun e => settleKey e.1) hfirst
      (ih fun e he => h e (List.mem_cons_of_mem _ he))

theorem setEntries_same (h : b.nodes[n]? = some (.mapping .mapping ms)) :
    Runs (setEntries n ms) b () b := by
  have hsame : b.nodes.setIfInBounds n (.mapping .mapping ms) = b.nodes := by
    refine Array.ext_getElem? fun i => ?_
    rw [Array.getElem?_setIfInBounds]
    split
    · next e =>
      subst e
      rw [if_pos (Array.getElem?_eq_some_iff.mp h).1, h]
    · rfl
  unfold setEntries
  refine (runs_node h).bind ?_
  show Except.ok ((), { b with nodes := b.nodes.setIfInBounds n (.mapping .mapping ms) }) = _
  rw [hsame]

/-- Nothing is merged into a mapping whose keys are texts. -/
theorem absorb_plain (limit : Nat) (hn : b.nodes[n]? = some (.mapping .mapping ms))
    (h : TextKeys b.nodes ms) : Runs (absorb limit n []) b ms b := by
  have hentries : Runs (entriesOf n) b ms b := by
    unfold entriesOf
    exact (runs_node hn).bind rfl
  have hsettle : Runs (settle n []) b ms b := by
    unfold settle
    exact hentries.bind ((settleKeys_none h).bind ((setEntries_same hn).bind rfl))
  cases limit with
  | zero => exact hsettle
  | succ limit =>
    rw [absorb]
    exact hentries.bind ((splitAtKey_none (by decide) h).bind hsettle)

end

/-- The key of an entry is a text whose value is made. -/
def KeyMade (nodes : Array Node) (b : Building) (e : Nat × Nat) : Prop :=
  ∃ s, nodes[e.1]? = some (.scalar .text s) ∧ b.cells[e.1]? = some (some (.scalar (.text s)))

theorem KeyMade.later {e : Nat × Nat} (h : KeyMade nodes b e) (hlater : Later b b') :
    KeyMade nodes b' e :=
  let ⟨s, hs, hcell⟩ := h
  ⟨s, hs, hlater _ _ hcell⟩

/-- An entry whose key is none of those put in before it comes last. -/
theorem putEntry_new {done : List (Nat × Nat)} {k v : Nat} (hdone : ∀ e ∈ done, KeyMade nodes b e)
    (hk : KeyMade nodes b (k, v)) (hnew : ∀ e ∈ done, nodes[e.1]? ≠ nodes[k]?) :
    Runs (putEntry k v done) b (done ++ [(k, v)]) b := by
  induction done with
  | nil => rfl
  | cons e done ih =>
    obtain ⟨s, hs, hcell⟩ := hdone e List.mem_cons_self
    obtain ⟨t, ht, hcell'⟩ := hk
    have hne := hnew e List.mem_cons_self
    have hst : s ≠ t := fun h => hne (by rw [hs, h]; exact ht.symm)
    have hnum : e.1 ≠ k := fun h => hne (by rw [h])
    have hsame : Runs (sameKey e.1 k) b false b := by
      unfold sameKey
      refine (runs_cell? hcell).bind ((runs_cell? hcell').bind ?_)
      have hfalse : (decide (e.1 = k) || (Scalar.text s).sameKey (.text t)) = false := by
        rw [decide_eq_false hnum, Bool.false_or]
        exact beq_eq_false_iff_ne.mpr hst
      show Except.ok ((decide (e.1 = k) || (Scalar.text s).sameKey (.text t)), b) = _
      rw [hfalse]
    rw [putEntry]
    exact hsame.bind ((ih (fun e he => hdone e (List.mem_cons_of_mem _ he)) fun e he =>
      hnew e (List.mem_cons_of_mem _ he)).bind rfl)

/-- The step of `mappingValue` for one entry. -/
theorem fold_entries {ms done : List (Nat × Nat)} (h : Progress nodes work limit b)
    (hkeys : TextKeys nodes ms) (hvalues : ∀ e ∈ ms, Plain nodes e.2)
    (hdone : ∀ e ∈ done, KeyMade nodes b e)
    (hdistinct : ((done ++ ms).map fun e => nodes[e.1]?).Nodup) :
    ∃ b', Runs (ms.foldlM (fun done (k, v) => do
        make k
        match ← cell? k with
        | some (.scalar _) =>
          make v
          putEntry k v done
        | _ => throw .malformed) done) b (done ++ ms) b'
      ∧ Progress nodes work limit b' ∧ (∀ e ∈ ms, Made b' e.1 ∧ Made b' e.2) ∧ Later b b' := by
  induction ms generalizing b done with
  | nil =>
    rw [List.append_nil]
    exact ⟨b, rfl, h, fun _ he => absurd he List.not_mem_nil, Later.refl⟩
  | cons e ms ih =>
    obtain ⟨k, v⟩ := e
    obtain ⟨s, hs⟩ := hkeys (k, v) List.mem_cons_self
    obtain ⟨b₁, hrun₁, h₁, hmade₁, hlater₁⟩ := make_plain h (.text hs)
    obtain ⟨b₂, hrun₂, h₂, hmade₂, hlater₂⟩ := make_plain h₁ (hvalues (k, v) List.mem_cons_self)
    have hkey : KeyMade nodes b₂ (k, v) := ⟨s, hs, hlater₂ _ _ (h₁.text hmade₁ hs)⟩
    have hdone₂ : ∀ e ∈ done, KeyMade nodes b₂ e := fun e he =>
      (hdone e he).later (hlater₁.trans hlater₂)
    have hnew : ∀ e ∈ done, nodes[e.1]? ≠ nodes[k]? := by
      intro e he
      rw [List.map_append, List.nodup_append] at hdistinct
      exact hdistinct.2.2 _ (List.mem_map_of_mem he) _ List.mem_cons_self
    have hput := putEntry_new hdone₂ hkey hnew
    obtain ⟨b₃, hrun₃, h₃, hall, hlater₃⟩ := @ih b₂ (done ++ [(k, v)]) h₂
      (fun e he => hkeys e (List.mem_cons_of_mem _ he))
      (fun e he => hvalues e (List.mem_cons_of_mem _ he))
      (fun e he => (List.mem_append.mp he).elim (hdone₂ e) fun he => List.mem_singleton.mp he ▸ hkey)
      (by rw [List.append_assoc]; exact hdistinct)
    rw [List.append_assoc] at hrun₃
    refine ⟨b₃, ?_, h₃, fun e he => ?_, hlater₁.trans (hlater₂.trans hlater₃)⟩
    · rw [List.foldlM_cons]
      refine Runs.bind (hrun₁.bind ((runs_cell? (h₁.text hmade₁ hs)).bind (hrun₂.bind hput))) hrun₃
    · rcases List.mem_cons.mp he with rfl | he
      · exact ⟨(hlater₂.trans hlater₃).made hmade₁, hlater₃.made hmade₂⟩
      · exact hall e he

/-- **Filling a plain container.** -/
theorem fill_plain {n : Nat} (h : Progress nodes [n] limit b) :
    ∃ b', Runs (fill n) b () b' ∧ Progress nodes [] limit b' ∧ ∀ m, Made b m → Made b' m := by
  obtain ⟨hmade, hnot⟩ := h.waiting n (List.mem_append_left _ List.mem_cons_self)
  have hput : ∀ {b₁ : Building} {layer : Layer Nat} {m : Nat}, Made b₁ n → Made b₁ m →
      Made (put n layer b₁) m := by
    rintro b₁ layer m ⟨old, hold⟩ ⟨other, hother⟩
    by_cases e : n = m
    · subst e
      exact ⟨_, put_self hold⟩
    · refine ⟨other, ?_⟩
      show (b₁.cells.setIfInBounds n (some layer))[m]? = _
      rw [Array.getElem?_setIfInBounds_ne e]
      exact hother
  cases h.plain n hmade with
  | text hs => exact absurd hs (hnot _)
  | @list _ ns hns hmembers =>
    obtain ⟨b₁, hrun, h₁, hall, hlater⟩ := make_all h hmembers
    refine ⟨put n (.list ns) b₁, ?_, h₁.finish hns hall, fun m hm =>
      hput (hlater.made hmade) (hlater.made hm)⟩
    unfold fill
    have hn : b.nodes[n]? = some (.sequence .sequence ns) := h.same ▸ hns
    exact (runs_node hn).bind (hrun.bind (k := fun _ => setCell n (.list ns)) rfl)
  | @map _ ms hms hkeys hvalues hdistinct =>
    obtain ⟨b₁, hrun, h₁, hall, hlater⟩ := @fold_entries nodes [n] limit b ms [] h hkeys hvalues
      (fun _ he => absurd he List.not_mem_nil) hdistinct
    refine ⟨put n (.map ms) b₁, ?_, h₁.finish hms (fun m hm => ?_), fun m hm =>
      hput (hlater.made hmade) (hlater.made hm)⟩
    · have hn : b.nodes[n]? = some (.mapping .mapping ms) := h.same ▸ hms
      have hvalue : Runs (mappingValue n) b ms b₁ := by
        unfold mappingValue
        exact Runs.bind (a := b) rfl ((absorb_plain _ hn (h.same ▸ hkeys)).bind hrun)
      unfold fill
      exact (runs_node hn).bind (hvalue.bind rfl)
    · obtain ⟨e, he, hmem⟩ := List.mem_flatMap.mp hm
      rcases List.mem_cons.mp hmem with rfl | hmem
      · exact (hall e he).1
      · rw [List.mem_singleton.mp hmem]
        exact (hall e he).2

/-! ### Filling all containers -/

/-- A container goes from the queue to work. -/
theorem Progress.dequeue {n : Nat} {rest : List Nat} (h : Progress nodes [] (limit + 1) b)
    (hb : b.pending = n :: rest) : Progress nodes [n] limit { b with pending := rest } where
  same := h.same
  size := h.size
  plain := h.plain
  waiting m hm := h.waiting m (by rw [hb]; exact hm)
  complete m layer hlayer := (h.complete m layer hlayer).imp_left fun hm => by
    rw [hb] at hm
    exact hm
  count := by
    have := h.count
    rw [hb, List.length_cons] at this
    show rest.length + unmade b ≤ limit
    omega

/-- The values made are those of their nodes, and so are the values in them. -/
def Complete (nodes : Array Node) (b : Building) : Prop :=
  ∀ (n : Nat) (layer : Layer Nat), b.cells[n]? = some (some layer) →
    (∃ node, nodes[n]? = some node ∧ layer = node.layer) ∧ ∀ m ∈ members layer, Made b m

theorem Progress.complete_of_empty (h : Progress nodes [] limit b) (hb : b.pending = []) :
    Complete nodes b := by
  intro n layer hlayer
  refine (h.complete n layer hlayer).resolve_left fun hm => ?_
  rw [hb] at hm
  exact List.not_mem_nil hm

/-- **All containers get filled.** -/
theorem fillAll_plain (h : Progress nodes [] limit b) :
    ∃ b', Runs (fillAll limit) b () b' ∧ Complete nodes b' ∧ ∀ m, Made b m → Made b' m := by
  induction limit generalizing b with
  | zero =>
    have hb : b.pending = [] := List.length_eq_zero_iff.mp (by have := h.count; omega)
    exact ⟨b, rfl, h.complete_of_empty hb, fun _ hm => hm⟩
  | succ limit ih =>
    have hget : Runs (get : Build Building) b b b := rfl
    cases hb : b.pending with
    | nil =>
      refine ⟨b, ?_, h.complete_of_empty hb, fun _ hm => hm⟩
      rw [fillAll]
      refine hget.bind ?_
      rw [hb]
      rfl
    | cons n rest =>
      obtain ⟨b₁, hrun, h₁, hmade⟩ := fill_plain (h.dequeue hb)
      obtain ⟨b₂, hruns, hcomplete, hmade'⟩ := ih h₁
      refine ⟨b₂, ?_, hcomplete, fun m hm => hmade' m (hmade m hm)⟩
      rw [fillAll]
      refine hget.bind ?_
      rw [hb]
      exact Runs.bind (a := ()) rfl (hrun.bind (k := fun _ => fillAll limit) hruns)

def start (nodes : Array Node) : Building := { nodes, cells := Array.replicate nodes.size none }

/-- At first nothing is made. -/
theorem progress_start (nodes : Array Node) : Progress nodes [] nodes.size (start nodes) := by
  have hnone : ∀ (n : Nat) (layer : Layer Nat),
      (Array.replicate nodes.size (none : Option (Layer Nat)))[n]? ≠ some (some layer) := by
    intro n layer h
    obtain ⟨hlt, hcell⟩ := Array.getElem?_eq_some_iff.mp h
    rw [Array.getElem_replicate] at hcell
    cases hcell
  refine ⟨rfl, Array.size_replicate .., fun n ⟨layer, h⟩ => absurd h (hnone n layer),
    fun n h => absurd h List.not_mem_nil, fun n layer h => absurd h (hnone n layer), ?_⟩
  have hcount : (Array.replicate nodes.size (none : Option (Layer Nat))).countP (·.isNone)
      ≤ (Array.replicate nodes.size (none : Option (Layer Nat))).size := Array.countP_le_size
  rw [Array.size_replicate] at hcount
  show 0 + (Array.replicate nodes.size (none : Option (Layer Nat))).countP (·.isNone) ≤ nodes.size
  omega

end Build

open Build

/-- Whether the values of a graph that are made are those of their nodes, with the values in them. -/
def Reflects (g : Graph) (nodes : Array Node) (made : Nat → Prop) : Prop :=
  ∀ n, made n → (∃ node, nodes[n]? = some node ∧ g.layer n = node.layer)
    ∧ ∀ m ∈ members (g.layer n), made m

/-- **The graph of plain nodes.**  The value of a node that the root leads to is that of the node, and
so are the values in it. -/
theorem toGraph_plain {doc : Document} (h : Plain doc.nodes doc.root) :
    ∃ g made, doc.toGraph = .ok g ∧ g.root = doc.root ∧ made doc.root
      ∧ Reflects g doc.nodes made := by
  obtain ⟨b₁, hrun, h₁, hroot, -⟩ := make_plain (progress_start doc.nodes) h
  obtain ⟨b, hruns, hcomplete, hmade⟩ := fillAll_plain h₁
  refine ⟨⟨b.cells.map fun c => c.getD (.scalar .null), doc.root⟩, Made b, ?_, rfl, hmade _ hroot,
    fun n hn => ?_⟩
  · have hall : Runs (make doc.root >>= fun _ => fillAll doc.nodes.size) (start doc.nodes) () b :=
      hrun.bind hruns
    unfold Document.toGraph
    show (((make doc.root >>= fun _ => fillAll doc.nodes.size) (start doc.nodes)).bind _) = _
    rw [show (make doc.root >>= fun _ => fillAll doc.nodes.size) (start doc.nodes) = _ from hall]
    rfl
  · obtain ⟨layer, hlayer⟩ := hn
    have hvalue : Graph.layer ⟨b.cells.map fun c => c.getD (.scalar .null), doc.root⟩ n = layer := by
      unfold Graph.layer
      rw [Array.getD_eq_getD_getElem?, Array.getElem?_map, hlayer]
      rfl
    obtain ⟨⟨node, hnode, heq⟩, hmembers⟩ := hcomplete n layer hlayer
    rw [hvalue]
    exact ⟨⟨node, hnode, heq⟩, hmembers⟩

end SecretForge.Yaml
