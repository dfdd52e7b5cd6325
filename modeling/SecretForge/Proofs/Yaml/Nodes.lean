import SecretForge.Proofs.Yaml.Scan
import SecretForge.Yaml.Node

/-!
# The nodes of a written tree

Reading the tokens of a tree makes nodes that hold the tree.  A node is numbered before the nodes in
it, so what is read later changes nothing in it.

* `Holds` — a node holds a tree, through the numbers in it.
* `Past` — what a reading leaves behind.
* `read_tree` — the node of a tree, by induction on the tree.
* **`ofTokens_list`** — the document of a list.
-/

namespace SecretForge.Yaml

open Render

/-! ### Nodes that hold a tree -/

mutual

/-- Whether a node holds a tree.  The nodes in it have higher numbers. -/
def Holds (nodes : Array Node) (n : Nat) : Tree → Prop
  | .text s => nodes[n]? = some (.scalar .text s)
  | .list ts => ∃ ns, nodes[n]? = some (.sequence .sequence ns) ∧ HoldsItems nodes n ns ts
  | .map es => ∃ ms, nodes[n]? = some (.mapping .mapping ms) ∧ HoldsEntries nodes n ms es

def HoldsItems (nodes : Array Node) (n : Nat) : List Nat → List Tree → Prop
  | [], [] => True
  | m :: ns, t :: ts => n < m ∧ Holds nodes m t ∧ HoldsItems nodes n ns ts
  | _, _ => False

def HoldsEntries (nodes : Array Node) (n : Nat) : List (Nat × Nat) → List (String × Tree) → Prop
  | [], [] => True
  | (k, v) :: ms, (s, t) :: es =>
    n < k ∧ nodes[k]? = some (.scalar .text s) ∧ n < v ∧ Holds nodes v t ∧ HoldsEntries nodes n ms es
  | _, _ => False

end

section

variable {nodes nodes' : Array Node}

mutual

theorem Holds.mono {n : Nat} {t : Tree}
    (hkept : ∀ i x, n ≤ i → nodes[i]? = some x → nodes'[i]? = some x) (h : Holds nodes n t) :
    Holds nodes' n t := by
  match t with
  | .text s =>
    rw [Holds] at h ⊢
    exact hkept n _ (Nat.le_refl n) h
  | .list ts =>
    rw [Holds] at h ⊢
    obtain ⟨ns, hn, hns⟩ := h
    exact ⟨ns, hkept n _ (Nat.le_refl n) hn,
      hns.mono fun i x hi => hkept i x (Nat.le_of_lt hi)⟩
  | .map es =>
    rw [Holds] at h ⊢
    obtain ⟨ms, hn, hms⟩ := h
    exact ⟨ms, hkept n _ (Nat.le_refl n) hn,
      hms.mono fun i x hi => hkept i x (Nat.le_of_lt hi)⟩

theorem HoldsItems.mono {n : Nat} {ns : List Nat} {ts : List Tree}
    (hkept : ∀ i x, n < i → nodes[i]? = some x → nodes'[i]? = some x)
    (h : HoldsItems nodes n ns ts) : HoldsItems nodes' n ns ts := by
  match ns, ts with
  | [], [] => trivial
  | m :: ns, t :: ts =>
    rw [HoldsItems] at h ⊢
    obtain ⟨hm, ht, hts⟩ := h
    exact ⟨hm, ht.mono fun i x hi => hkept i x (Nat.lt_of_lt_of_le hm hi), hts.mono hkept⟩
  | [], _ :: _ => exact h.elim
  | _ :: _, [] => exact h.elim

theorem HoldsEntries.mono {n : Nat} {ms : List (Nat × Nat)} {es : List (String × Tree)}
    (hkept : ∀ i x, n < i → nodes[i]? = some x → nodes'[i]? = some x)
    (h : HoldsEntries nodes n ms es) : HoldsEntries nodes' n ms es := by
  match ms, es with
  | [], [] => trivial
  | (k, v) :: ms, (s, t) :: es =>
    rw [HoldsEntries] at h ⊢
    obtain ⟨hk, hs, hv, ht, hes⟩ := h
    exact ⟨hk, hkept k _ hk hs, hv, ht.mono fun i x hi => hkept i x (Nat.lt_of_lt_of_le hv hi),
      hes.mono hkept⟩
  | [], _ :: _ => exact h.elim
  | _ :: _, [] => exact h.elim

end

end

namespace Node

variable {rest : List Token} {nodes : Array Node} {anchors : List (String × Nat)}
  {handles : List (String × String)}

/-! ### What a reading leaves behind -/

/-- What a reading leaves behind: some tokens are still ahead, and the nodes so far are kept. -/
structure Past (rest : List Token) (nodes : Array Node) (r : Reader) : Prop where
  tokens : r.tokens = rest
  size : nodes.size ≤ r.nodes.size
  kept : ∀ (i : Nat) (x : Node), nodes[i]? = some x → r.nodes[i]? = some x

theorem past_refl : Past rest nodes ⟨rest, nodes, anchors, handles⟩ :=
  ⟨rfl, Nat.le_refl _, fun _ _ h => h⟩

theorem Past.trans {r r' : Reader} {rest' : List Token} (h : Past rest' nodes r)
    (h' : Past rest r.nodes r') : Past rest nodes r' :=
  ⟨h'.tokens, Nat.le_trans h.size h'.size, fun i x hi => h'.kept i x (h.kept i x hi)⟩

theorem past_push (node : Node) : Past rest nodes ⟨rest, nodes.push node, anchors, handles⟩ := by
  refine ⟨rfl, ?_, fun i x hi => ?_⟩
  · rw [Array.size_push]
    exact Nat.le_succ _
  · obtain ⟨hlt, -⟩ := Array.getElem?_eq_some_iff.mp hi
    rw [Array.getElem?_push_lt hlt, ← hi, Array.getElem?_eq_getElem hlt]

theorem size_lt_push (nodes : Array Node) (node : Node) : nodes.size < (nodes.push node).size := by
  rw [Array.size_push]
  exact Nat.lt_succ_self _

/-- A collection, once its members are read, keeps the nodes so far. -/
theorem past_complete {r : Reader} {first : Node} (last : Node) (h : Past rest (nodes.push first) r) :
    Past rest nodes { r with nodes := r.nodes.setIfInBounds nodes.size last }
      ∧ (r.nodes.setIfInBounds nodes.size last)[nodes.size]? = some last
      ∧ ∀ (i : Nat) (x : Node), nodes.size < i → r.nodes[i]? = some x →
        (r.nodes.setIfInBounds nodes.size last)[i]? = some x := by
  have hsize := h.size
  rw [Array.size_push] at hsize
  refine ⟨⟨h.tokens, ?_, fun i x hi => ?_⟩, ?_, fun i x hi hx => ?_⟩
  · show nodes.size ≤ (r.nodes.setIfInBounds nodes.size last).size
    rw [Array.size_setIfInBounds]
    omega
  · obtain ⟨hlt, -⟩ := Array.getElem?_eq_some_iff.mp hi
    show (r.nodes.setIfInBounds nodes.size last)[i]? = some x
    rw [Array.getElem?_setIfInBounds_ne (Nat.ne_of_gt hlt)]
    exact h.kept i x (@past_push rest nodes [] [] first |>.kept i x hi)
  · exact Array.getElem?_setIfInBounds_self_of_lt (by omega)
  · rw [Array.getElem?_setIfInBounds_ne (Nat.ne_of_lt hi)]
    exact hx

/-! ### Single steps -/

theorem scalarTag_written (key : Bool) (s : String) :
    scalarTag s (style key s = .plain) none = .text := by
  rcases style_cases key s with ⟨hs, -, -, htag⟩ | ⟨hs, -⟩ | hs
  · rw [hs]
    exact htag
  · rw [hs]
    rfl
  · rw [hs]
    rfl

/-- A text becomes a scalar of its own. -/
theorem read_text (key indentless : Bool) (fuel : Nat) (s : String) :
    read true indentless (fuel + 1) ⟨.scalar s (style key s = .plain) :: rest, nodes, anchors, handles⟩
      = .ok (nodes.size, ⟨rest, nodes.push (.scalar .text s), anchors, handles⟩) := by
  rw [← scalarTag_written key s]
  rfl

section

variable {tokens : List Token} {indentless : Bool} {fuel : Nat}

theorem read_flowSequence :
    read true indentless (fuel + 1) ⟨.flowSequenceStart :: tokens, nodes, anchors, handles⟩
      = sequenceOf none none (readFlowSequence true fuel) ⟨tokens, nodes, anchors, handles⟩ := rfl

theorem read_flowMapping :
    read true indentless (fuel + 1) ⟨.flowMappingStart :: tokens, nodes, anchors, handles⟩
      = mappingOf none none (readFlowMapping true fuel) ⟨tokens, nodes, anchors, handles⟩ := rfl

theorem read_indentless :
    read true true (fuel + 1) ⟨.blockEntry :: tokens, nodes, anchors, handles⟩
      = sequenceOf none none (readIndentless fuel) ⟨.blockEntry :: tokens, nodes, anchors, handles⟩ :=
  rfl

theorem read_blockSequence :
    read true indentless (fuel + 1) ⟨.blockSequenceStart :: tokens, nodes, anchors, handles⟩
      = sequenceOf none none (readBlockSequence fuel) ⟨tokens, nodes, anchors, handles⟩ := rfl

theorem readBlockMapping_key :
    readBlockMapping (fuel + 1) ⟨.key :: tokens, nodes, anchors, handles⟩
      = (do
        let key ← readUnless [.key, .value, .blockEnd] true true fuel
        let value ← readBlockValue fuel
        let entries ← readBlockMapping fuel
        return (key, value) :: entries : Reading (List (Nat × Nat))) ⟨tokens, nodes, anchors, handles⟩ :=
  rfl

theorem readBlockValue_value :
    readBlockValue (fuel + 1) ⟨.value :: tokens, nodes, anchors, handles⟩
      = readUnless [.key, .value, .blockEnd] true true fuel ⟨tokens, nodes, anchors, handles⟩ := rfl

theorem read_blockMapping :
    read true indentless (fuel + 1) ⟨.blockMappingStart :: tokens, nodes, anchors, handles⟩
      = mappingOf none none (readBlockMapping fuel) ⟨tokens, nodes, anchors, handles⟩ := rfl

end

theorem readUnless_start {ends : List Token} {x : Token} {xs : List Token} {block indentless : Bool}
    {fuel : Nat} (hends : x ∉ ends) (hfault : ∀ f, x ≠ .fault f) :
    readUnless ends block indentless (fuel + 1) ⟨x :: xs, nodes, anchors, handles⟩
      = read block indentless fuel ⟨x :: xs, nodes, anchors, handles⟩ := by
  have hahead : ahead ends ⟨x :: xs, nodes, anchors, handles⟩
      = .ok (ends.contains x, ⟨x :: xs, nodes, anchors, handles⟩) := by
    cases x with
    | fault f => exact absurd rfl (hfault f)
    | _ => rfl
  have hno : ends.contains x = false := Bool.eq_false_iff.mpr fun h =>
    hends (List.contains_iff_mem.mp h)
  rw [readUnless]
  show ((ahead ends ⟨x :: xs, nodes, anchors, handles⟩).bind _) = _
  rw [hahead, hno]
  rfl

/-- A list, from its members. -/
theorem sequenceOf_run {m : Reading (List Nat)} {tokens : List Token} {ts : List Tree}
    (h : ∃ ns r, m ⟨tokens, nodes.push (.sequence .sequence []), anchors, handles⟩ = .ok (ns, r)
      ∧ Past rest (nodes.push (.sequence .sequence [])) r ∧ HoldsItems r.nodes nodes.size ns ts) :
    ∃ r, sequenceOf none none m ⟨tokens, nodes, anchors, handles⟩ = .ok (nodes.size, r)
      ∧ Past rest nodes r ∧ Holds r.nodes nodes.size (.list ts) := by
  obtain ⟨ns, r, hm, hpast, hholds⟩ := h
  obtain ⟨hkeeps, hself, hothers⟩ := past_complete (.sequence .sequence ns) hpast
  refine ⟨_, ?_, hkeeps, ?_⟩
  · show ((m ⟨tokens, nodes.push (.sequence .sequence []), anchors, handles⟩).bind _) = _
    rw [hm]
    rfl
  · rw [Holds]
    exact ⟨ns, hself, hholds.mono hothers⟩

/-- A mapping, from its entries. -/
theorem mappingOf_run {m : Reading (List (Nat × Nat))} {tokens : List Token}
    {es : List (String × Tree)}
    (h : ∃ ms r, m ⟨tokens, nodes.push (.mapping .mapping []), anchors, handles⟩ = .ok (ms, r)
      ∧ Past rest (nodes.push (.mapping .mapping [])) r ∧ HoldsEntries r.nodes nodes.size ms es) :
    ∃ r, mappingOf none none m ⟨tokens, nodes, anchors, handles⟩ = .ok (nodes.size, r)
      ∧ Past rest nodes r ∧ Holds r.nodes nodes.size (.map es) := by
  obtain ⟨ms, r, hm, hpast, hholds⟩ := h
  obtain ⟨hkeeps, hself, hothers⟩ := past_complete (.mapping .mapping ms) hpast
  refine ⟨_, ?_, hkeeps, ?_⟩
  · show ((m ⟨tokens, nodes.push (.mapping .mapping []), anchors, handles⟩).bind _) = _
    rw [hm]
    rfl
  · rw [Holds]
    exact ⟨ms, hself, hholds.mono hothers⟩

/-- The tokens of a tree do not start with one that shows that a node is omitted. -/
theorem tokens_start (afterKey : Bool) (t : Tree) :
    ∃ x xs, t.tokens afterKey = x :: xs ∧ x ∉ [.key, .value, .blockEnd]
      ∧ (afterKey = false → x ≠ .blockEntry) ∧ ∀ f, x ≠ .fault f := by
  cases t with
  | text s =>
    rw [Tree.tokens]
    exact ⟨_, _, rfl, by simp, by simp, by simp⟩
  | list ts =>
    cases ts with
    | nil =>
      rw [Tree.tokens]
      exact ⟨_, _, rfl, by decide, fun _ => by decide, by simp⟩
    | cons t ts =>
      rw [Tree.tokens, Tree.itemTokens]
      cases afterKey with
      | true => exact ⟨_, _, rfl, by decide, by decide, by simp⟩
      | false => exact ⟨_, _, rfl, by decide, by decide, by simp⟩
  | map es =>
    cases es with
    | nil =>
      rw [Tree.tokens]
      exact ⟨_, _, rfl, by decide, fun _ => by decide, by simp⟩
    | cons e es =>
      rw [Tree.tokens]
      exact ⟨_, _, rfl, by decide, fun _ => by decide, by simp⟩

/-- A tree where a node could be omitted. -/
theorem readUnless_tree {ends : List Token} {block indentless afterKey : Bool} {fuel : Nat} (t : Tree)
    (hends : ∀ x ∈ ends, x ∈ [.key, .value, .blockEnd] ∨ (x = .blockEntry ∧ afterKey = false)) :
    readUnless ends block indentless (fuel + 1) ⟨t.tokens afterKey ++ rest, nodes, anchors, handles⟩
      = read block indentless fuel ⟨t.tokens afterKey ++ rest, nodes, anchors, handles⟩ := by
  obtain ⟨x, xs, heq, hx, hentry, hfault⟩ := tokens_start afterKey t
  rw [heq]
  exact readUnless_start (fun hmem => (hends x hmem).elim hx fun h => hentry h.2 h.1) hfault

theorem bind_run {α β : Type} {m : Reading α} {k : α → Reading β} {r r' : Reader} {a : α}
    {out : β × Reader} (h : m r = .ok (a, r')) (h' : k a r' = .ok out) : (m >>= k) r = .ok out := by
  show ((m r).bind _) = _
  rw [h]
  exact h'

/-- A reading of the members of a sequence, each behind its hyphen, up to some closing tokens. -/
structure ReadsMembers (members : Nat → Reading (List Nat)) (closing rest : List Token) : Prop where
  entry : ∃ ends : List Token, (∀ x ∈ ends, x ∈ [.key, .value, .blockEnd] ∨ x = .blockEntry)
    ∧ ∀ fuel tokens nodes anchors handles,
      members (fuel + 1) ⟨.blockEntry :: tokens, nodes, anchors, handles⟩
        = (do
          let item ← readUnless ends true false fuel
          let items ← members fuel
          return item :: items : Reading (List Nat)) ⟨tokens, nodes, anchors, handles⟩
  done : ∀ fuel nodes anchors handles,
    members (fuel + 1) ⟨closing, nodes, anchors, handles⟩ = .ok ([], ⟨rest, nodes, anchors, handles⟩)

theorem readsMembers_block (rest : List Token) :
    ReadsMembers readBlockSequence (.blockEnd :: rest) rest :=
  ⟨⟨[.blockEntry, .blockEnd], by decide, fun _ _ _ _ _ => rfl⟩, fun _ _ _ _ => rfl⟩

/-- What comes after the value of an entry: another entry, or the end of the mapping. -/
def EndsValue (rest : List Token) : Prop := ∃ x xs, rest = x :: xs ∧ (x = .key ∨ x = .blockEnd)

theorem readsMembers_indentless (h : EndsValue rest) : ReadsMembers readIndentless rest rest := by
  obtain ⟨x, xs, rfl, hx⟩ := h
  refine ⟨⟨[.blockEntry, .key, .value, .blockEnd], by decide, fun _ _ _ _ _ => rfl⟩,
    fun _ _ _ _ => ?_⟩
  rcases hx with rfl | rfl <;> rfl

/-! ### The parts of a tree -/

theorem endsValue_entryTokens (es : List (String × Tree)) :
    EndsValue (Tree.entryTokens es ++ .blockEnd :: rest) := by
  cases es with
  | nil => exact ⟨_, _, rfl, .inr rfl⟩
  | cons e es =>
    rw [Tree.entryTokens]
    exact ⟨_, _, rfl, .inl rfl⟩

mutual

/-- **The node of a tree.**  It gets the next number, and holds the tree from then on. -/
theorem read_tree (afterKey indentless : Bool) (t : Tree) (rest : List Token) (nodes : Array Node)
    (anchors : List (String × Nat)) (handles : List (String × String)) (fuel : Nat)
    (hkey : afterKey = true → indentless = true ∧ EndsValue rest)
    (hfuel : 4 * (t.tokens afterKey).length ≤ fuel) :
    ∃ r, read true indentless fuel ⟨t.tokens afterKey ++ rest, nodes, anchors, handles⟩
        = .ok (nodes.size, r) ∧ Past rest nodes r ∧ Holds r.nodes nodes.size t := by
  match t with
  | .text s =>
    rw [Tree.tokens] at hfuel ⊢
    obtain ⟨f, rfl⟩ : ∃ f, fuel = f + 1 := ⟨fuel - 1, by simp only [List.length_cons] at hfuel; omega⟩
    refine ⟨_, read_text false indentless f s, past_push _, ?_⟩
    rw [Holds]
    exact Array.getElem?_push_size
  | .list [] =>
    rw [Tree.tokens] at hfuel ⊢
    obtain ⟨f, rfl⟩ : ∃ f, fuel = f + 2 := ⟨fuel - 2, by simp only [List.length_cons] at hfuel; omega⟩
    rw [List.cons_append, read_flowSequence]
    exact sequenceOf_run ⟨[], _, rfl, past_refl, trivial⟩
  | .map [] =>
    rw [Tree.tokens] at hfuel ⊢
    obtain ⟨f, rfl⟩ : ∃ f, fuel = f + 2 := ⟨fuel - 2, by simp only [List.length_cons] at hfuel; omega⟩
    rw [List.cons_append, read_flowMapping]
    exact mappingOf_run ⟨[], _, rfl, past_refl, trivial⟩
  | .list (t :: ts) =>
    rw [Tree.tokens] at hfuel ⊢
    cases afterKey with
    | true =>
      rw [if_pos rfl] at hfuel ⊢
      obtain ⟨rfl, hends⟩ := hkey rfl
      obtain ⟨xs, hxs⟩ : ∃ xs, Tree.itemTokens (t :: ts) = .blockEntry :: xs := by
        rw [Tree.itemTokens]
        exact ⟨_, rfl⟩
      have hpos : 0 < (Tree.itemTokens (t :: ts)).length := by
        rw [hxs]
        exact Nat.succ_pos _
      obtain ⟨f, rfl⟩ : ∃ f, fuel = f + 1 := ⟨fuel - 1, by omega⟩
      have hrun := sequenceOf_run (read_items (t :: ts) (readsMembers_indentless hends) _ anchors
        handles f (size_lt_push nodes _) (by omega) (by omega))
      rw [hxs, List.cons_append] at hrun ⊢
      rw [read_indentless]
      exact hrun
    | false =>
      simp only [Bool.false_eq_true, if_false, List.length_cons, List.length_append,
        List.length_nil] at hfuel ⊢
      obtain ⟨f, rfl⟩ : ∃ f, fuel = f + 1 := ⟨fuel - 1, by omega⟩
      rw [List.cons_append, List.append_assoc, read_blockSequence]
      exact sequenceOf_run (read_items (t :: ts) (readsMembers_block rest) _ anchors handles f
        (size_lt_push nodes _) (by omega) (by omega))
  | .map (e :: es) =>
    rw [Tree.tokens, List.length_cons, List.length_append] at hfuel
    obtain ⟨f, rfl⟩ : ∃ f, fuel = f + 1 := ⟨fuel - 1, by omega⟩
    rw [Tree.tokens, List.cons_append, List.append_assoc, read_blockMapping]
    exact mappingOf_run (read_entries _ (e :: es) rest _ anchors handles f (size_lt_push nodes _)
      (by omega) (by omega))

/-- The members of a list. -/
theorem read_items {members : Nat → Reading (List Nat)} {rest closing : List Token} {lo : Nat}
    (ts : List Tree) (hm : ReadsMembers members closing rest) (nodes : Array Node)
    (anchors : List (String × Nat)) (handles : List (String × String)) (fuel : Nat)
    (hlo : lo < nodes.size) (hpos : 0 < fuel)
    (hfuel : 4 * (Tree.itemTokens ts).length ≤ fuel + 1) :
    ∃ ns r, members fuel ⟨Tree.itemTokens ts ++ closing, nodes, anchors, handles⟩ = .ok (ns, r)
      ∧ Past rest nodes r ∧ HoldsItems r.nodes lo ns ts := by
  obtain ⟨f, rfl⟩ : ∃ f, fuel = f + 1 := ⟨fuel - 1, by omega⟩
  match ts with
  | [] => exact ⟨[], _, hm.done f nodes anchors handles, past_refl, trivial⟩
  | t :: ts =>
    rw [Tree.itemTokens, List.length_cons, List.length_append] at hfuel
    obtain ⟨ends, hends, hentry⟩ := hm.entry
    obtain ⟨g, rfl⟩ : ∃ g, f = g + 1 := ⟨f - 1, by omega⟩
    obtain ⟨⟨tokens, nodes', anchors', handles'⟩, hread, hpast, hholds⟩ :=
      read_tree false false t (Tree.itemTokens ts ++ closing) nodes anchors handles g
        (fun h => nomatch h) (by omega)
    obtain rfl := hpast.tokens
    obtain ⟨ns, r, hitems, hpast', hholds'⟩ := read_items ts hm nodes' anchors' handles' (g + 1)
      (Nat.lt_of_lt_of_le hlo hpast.size) (Nat.succ_pos g) (by omega)
    refine ⟨nodes.size :: ns, r, ?_, hpast.trans hpast', hlo,
      hholds.mono fun i x _ => hpast'.kept i x, hholds'⟩
    rw [Tree.itemTokens, List.cons_append, List.append_assoc, hentry]
    refine bind_run ?_ (bind_run hitems rfl)
    rw [readUnless_tree t fun x hx => (hends x hx).imp_right fun h => ⟨h, rfl⟩]
    exact hread

/-- The entries of a mapping, up to its end. -/
theorem read_entries (lo : Nat) (es : List (String × Tree)) (rest : List Token) (nodes : Array Node)
    (anchors : List (String × Nat)) (handles : List (String × String)) (fuel : Nat)
    (hlo : lo < nodes.size) (hpos : 0 < fuel)
    (hfuel : 4 * (Tree.entryTokens es).length ≤ fuel + 1) :
    ∃ ms r, readBlockMapping fuel
        ⟨Tree.entryTokens es ++ .blockEnd :: rest, nodes, anchors, handles⟩ = .ok (ms, r)
      ∧ Past rest nodes r ∧ HoldsEntries r.nodes lo ms es := by
  obtain ⟨f, rfl⟩ : ∃ f, fuel = f + 1 := ⟨fuel - 1, by omega⟩
  match es with
  | [] => exact ⟨[], _, rfl, past_refl, trivial⟩
  | (s, t) :: es =>
    rw [Tree.entryTokens] at hfuel ⊢
    simp only [List.length_cons, List.length_append] at hfuel
    obtain ⟨g, rfl⟩ : ∃ g, f = g + 2 := ⟨f - 2, by omega⟩
    -- the key has the next number, and its value the one after that
    have hsize : (nodes.push (.scalar .text s)).size = nodes.size + 1 := Array.size_push _
    obtain ⟨⟨tokens, nodes', anchors', handles'⟩, hread, hpast, hholds⟩ :=
      read_tree (isSimpleKey s) true t (Tree.entryTokens es ++ .blockEnd :: rest)
        (nodes.push (.scalar .text s)) anchors handles g (fun _ => ⟨rfl, endsValue_entryTokens es⟩)
        (by omega)
    obtain rfl := hpast.tokens
    have hgrown : (nodes.push (.scalar .text s)).size ≤ nodes'.size := hpast.size
    obtain ⟨ms, r, hentries, hpast', hholds'⟩ := read_entries lo es rest nodes' anchors'
      handles' (g + 2) (by omega) (by omega) (by omega)
    have hfirst : Past rest nodes ⟨rest, nodes.push (.scalar .text s), anchors, handles⟩ := past_push _
    refine ⟨(nodes.size, nodes.size + 1) :: ms, r, ?_, hfirst.trans (hpast.trans hpast'), ?_⟩
    · have hkey : readUnless [.key, .value, .blockEnd] true true (g + 2)
          ⟨.scalar s (style (isSimpleKey s) s = .plain) :: .value :: (t.tokens (isSimpleKey s)
            ++ Tree.entryTokens es ++ .blockEnd :: rest), nodes, anchors, handles⟩ = .ok (_, _) :=
        (readUnless_start (by simp) (by simp)).trans (read_text (isSimpleKey s) true g s)
      have hvalue : readBlockValue (g + 2) ⟨.value :: (t.tokens (isSimpleKey s)
          ++ Tree.entryTokens es ++ .blockEnd :: rest), nodes.push (.scalar .text s), anchors, handles⟩
          = .ok (nodes.size + 1,
            ⟨Tree.entryTokens es ++ .blockEnd :: rest, nodes', anchors', handles'⟩) := by
        rw [readBlockValue_value, List.append_assoc, readUnless_tree t fun x hx => .inl hx, hread, hsize]
      rw [List.cons_append, readBlockMapping_key]
      exact bind_run hkey (bind_run hvalue (bind_run hentries rfl))
    · rw [hsize] at hholds
      rw [HoldsEntries]
      exact ⟨hlo, hpast'.kept _ _ (hpast.kept _ _ Array.getElem?_push_size), Nat.lt_succ_of_lt hlo,
        hholds.mono fun i x _ => hpast'.kept i x, hholds'⟩

end

/-! ### Whole documents -/

theorem readStream_run {ts : List Tree} {fuel : Nat} {r : Reader} {n : Nat}
    (h : read true false fuel ⟨(Tree.list ts).tokens false ++ [.streamEnd], #[], [], standardHandles⟩
      = .ok (n, r)) (hr : r.tokens = [.streamEnd]) (hpos : 0 < fuel) :
    (readStream fuel).run { tokens := (Tree.list ts).tokens false ++ [.streamEnd] }
      = .ok (some n, { r with tokens := [] }) := by
  obtain ⟨tokens, nodes, anchors, handles⟩ := r
  obtain rfl : tokens = [.streamEnd] := hr
  obtain ⟨f, rfl⟩ : ∃ f, fuel = f + 1 := ⟨fuel - 1, by omega⟩
  obtain ⟨x, xs, hx, hstart⟩ : ∃ x xs, (Tree.list ts).tokens false ++ [.streamEnd] = x :: xs
      ∧ (x = .flowSequenceStart ∨ x = .blockSequenceStart) := by
    cases ts with
    | nil => exact ⟨_, _, rfl, .inl rfl⟩
    | cons t ts => exact ⟨_, _, rfl, .inr rfl⟩
  rw [hx] at h ⊢
  have hread : readStream (f + 1) { tokens := x :: xs } = (do
      let root ← read true false (f + 1)
      skipEnds (f + 1)
      expect .streamEnd
      return some root : Reading (Option Nat)) ⟨x :: xs, #[], [], standardHandles⟩ := by
    rcases hstart with rfl | rfl <;> rfl
  exact hread.trans (bind_run h rfl)

/-- **The document of a written list.** -/
theorem ofTokens_list (ts : List Tree) :
    ∃ doc, Document.ofTokens ((Tree.list ts).tokens false ++ [.streamEnd]) = .ok (some doc)
      ∧ Holds doc.nodes doc.root (.list ts) := by
  obtain ⟨r, hread, hpast, hholds⟩ := read_tree false false (.list ts) [.streamEnd] #[] []
    standardHandles (4 * ((Tree.list ts).tokens false ++ [Token.streamEnd]).length + 8)
    (fun h => nomatch h) (by rw [List.length_append]; omega)
  refine ⟨⟨r.nodes, 0⟩, ?_, hholds⟩
  unfold Document.ofTokens
  rw [readStream_run hread hpast.tokens (by omega)]
  rfl

end Node

end SecretForge.Yaml
