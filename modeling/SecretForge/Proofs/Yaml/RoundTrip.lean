import SecretForge.Proofs.Tree
import SecretForge.Proofs.Yaml.Build
import SecretForge.Proofs.Yaml.Unfinished

/-!
# Written YAML is read back

A list of trees that is written and read again is a graph whose value shows the list, provided that no
mapping has a key twice and that every key fits.  A key that does not fit makes the text unreadable.

* `plain_holds` — the nodes of a tree are plain.
* `shows_holds` — the values of its nodes show the tree.
* **`load_render`** — what is written is read back exactly if every key fits.
-/

namespace SecretForge.Yaml

open Render Layered

section

variable {nodes : Array Node}

theorem keys_holds {n : Nat} {ms : List (Nat × Nat)} {es : List (String × Tree)}
    (h : HoldsEntries nodes n ms es) :
    (ms.map fun e => nodes[e.1]?) = (es.map (·.1)).map fun s => some (Node.scalar .text s) := by
  induction ms generalizing es with
  | nil =>
    cases es with
    | nil => rfl
    | cons e es => exact h.elim
  | cons m ms ih =>
    cases es with
    | nil => exact h.elim
    | cons e es =>
      rw [HoldsEntries] at h
      rw [List.map_cons, List.map_cons, List.map_cons, h.2.1, ih h.2.2.2.2]

mutual

/-- The nodes of a tree without double keys are plain. -/
theorem plain_holds {n : Nat} {t : Tree} (h : Holds nodes n t) (hd : t.DistinctKeys) :
    Plain nodes n := by
  match t with
  | .text s =>
    rw [Holds] at h
    exact .text h
  | .list ts =>
    rw [Holds] at h
    rw [Tree.DistinctKeys] at hd
    obtain ⟨ns, hn, hns⟩ := h
    exact .list hn (plain_holdsItems hns hd)
  | .map es =>
    rw [Holds] at h
    rw [Tree.DistinctKeys] at hd
    obtain ⟨ms, hn, hms⟩ := h
    obtain ⟨hkeys, hvalues⟩ := plain_holdsEntries hms hd.2
    refine .map hn hkeys hvalues ?_
    rw [keys_holds hms]
    refine List.Pairwise.map _ (fun s s' hne heq => hne ?_) hd.1
    cases heq
    rfl

theorem plain_holdsItems {n : Nat} {ns : List Nat} {ts : List Tree} (h : HoldsItems nodes n ns ts)
    (hd : Tree.DistinctItems ts) : ∀ m ∈ ns, Plain nodes m := by
  match ns, ts with
  | [], [] => exact fun _ hm => absurd hm List.not_mem_nil
  | m :: ns, t :: ts =>
    rw [HoldsItems] at h
    rw [Tree.DistinctItems] at hd
    intro k hk
    rcases List.mem_cons.mp hk with rfl | hk
    · exact plain_holds h.2.1 hd.1
    · exact plain_holdsItems h.2.2 hd.2 k hk
  | [], _ :: _ => exact h.elim
  | _ :: _, [] => exact h.elim

theorem plain_holdsEntries {n : Nat} {ms : List (Nat × Nat)} {es : List (String × Tree)}
    (h : HoldsEntries nodes n ms es) (hd : Tree.DistinctEntries es) :
    (∀ e ∈ ms, ∃ s, nodes[e.1]? = some (.scalar .text s)) ∧ ∀ e ∈ ms, Plain nodes e.2 := by
  match ms, es with
  | [], [] =>
    exact ⟨fun _ he => absurd he List.not_mem_nil, fun _ he => absurd he List.not_mem_nil⟩
  | (k, v) :: ms, (s, t) :: es =>
    rw [HoldsEntries] at h
    rw [Tree.DistinctEntries] at hd
    obtain ⟨-, hs, -, ht, hes⟩ := h
    obtain ⟨hkeys, hvalues⟩ := plain_holdsEntries hes hd.2
    exact ⟨List.forall_mem_cons.mpr ⟨⟨s, hs⟩, hkeys⟩,
      List.forall_mem_cons.mpr ⟨plain_holds ht hd.1, hvalues⟩⟩
  | [], _ :: _ => exact h.elim
  | _ :: _, [] => exact h.elim

end

end

section

variable {nodes : Array Node} {g : Graph} {made : Nat → Prop}

theorem Reflects.layer {n : Nat} {node : Node} (h : Reflects g nodes made) (hn : made n)
    (hnode : nodes[n]? = some node) : g.layer n = node.layer := by
  obtain ⟨⟨other, hother, hlayer⟩, -⟩ := h n hn
  rw [hnode] at hother
  cases hother
  exact hlayer

mutual

/-- The values of the nodes of a tree show the tree. -/
theorem shows_holds {n : Nat} {t : Tree} (h : Reflects g nodes made) (ht : Holds nodes n t)
    (hn : made n) : Shows (Graph.Vertex.mk (g := g) n) t := by
  match t with
  | .text s =>
    rw [Holds] at ht
    rw [Shows]
    show (g.layer n).mapValues _ = _
    rw [h.layer hn ht]
    rfl
  | .list ts =>
    rw [Holds] at ht
    obtain ⟨ns, hns, hts⟩ := ht
    have hlayer : g.layer n = .list ns := h.layer hn hns
    rw [Shows]
    refine ⟨ns.map .mk, ?_, showsItems_holds h hts fun m hm => (h n hn).2 m (by rw [hlayer]; exact hm)⟩
    show (g.layer n).mapValues _ = _
    rw [hlayer]
    rfl
  | .map es =>
    rw [Holds] at ht
    obtain ⟨ms, hms, hes⟩ := ht
    have hlayer : g.layer n = .map ms := h.layer hn hms
    rw [Shows]
    refine ⟨ms.map fun e => (.mk e.1, .mk e.2), ?_, showsEntries_holds h hes fun e he => ?_⟩
    · show (g.layer n).mapValues _ = _
      rw [hlayer]
      rfl
    · have hmem : ∀ m ∈ [e.1, e.2], made m := fun m hm => (h n hn).2 m (by
        rw [hlayer]
        exact List.mem_flatMap.mpr ⟨e, he, hm⟩)
      exact ⟨hmem _ List.mem_cons_self, hmem _ (List.mem_cons_of_mem _ List.mem_cons_self)⟩

theorem showsItems_holds {n : Nat} {ns : List Nat} {ts : List Tree} (h : Reflects g nodes made)
    (hts : HoldsItems nodes n ns ts) (hns : ∀ m ∈ ns, made m) :
    ShowsItems (ns.map (Graph.Vertex.mk (g := g))) ts := by
  match ns, ts with
  | [], [] => trivial
  | m :: ns, t :: ts =>
    rw [HoldsItems] at hts
    rw [List.map_cons, ShowsItems]
    exact ⟨shows_holds h hts.2.1 (hns m List.mem_cons_self),
      showsItems_holds h hts.2.2 fun k hk => hns k (List.mem_cons_of_mem m hk)⟩
  | [], _ :: _ => exact hts.elim
  | _ :: _, [] => exact hts.elim

theorem showsEntries_holds {n : Nat} {ms : List (Nat × Nat)} {es : List (String × Tree)}
    (h : Reflects g nodes made) (hes : HoldsEntries nodes n ms es)
    (hms : ∀ e ∈ ms, made e.1 ∧ made e.2) :
    ShowsEntries (ms.map fun e => (Graph.Vertex.mk (g := g) e.1, Graph.Vertex.mk (g := g) e.2)) es := by
  match ms, es with
  | [], [] => trivial
  | (k, v) :: ms, (s, t) :: es =>
    rw [HoldsEntries] at hes
    obtain ⟨-, hs, -, ht, hes⟩ := hes
    obtain ⟨hk, hv⟩ := hms (k, v) List.mem_cons_self
    rw [List.map_cons, ShowsEntries]
    refine ⟨?_, shows_holds h ht hv,
      showsEntries_holds h hes fun e he => hms e (List.mem_cons_of_mem _ he)⟩
    show (g.layer k).mapValues _ = _
    rw [h.layer hk hs]
    rfl
  | [], _ :: _ => exact hes.elim
  | _ :: _, [] => exact hes.elim

end

end

/-- **Written YAML is read back exactly if every key fits.** -/
theorem load_render (ts : List Tree) (hwide : 2 * (Tree.list ts).height < width)
    (hd : (Tree.list ts).DistinctKeys) :
    ((Tree.list ts).KeysFit → ∃ g, load (render (.list ts)) = .ok g ∧ Shows g.top (.list ts))
      ∧ (¬ (Tree.list ts).KeysFit → ∀ g, load (render (.list ts)) ≠ .ok g) := by
  obtain ⟨hscan, hjam⟩ := ofText_list ts hwide
  refine ⟨fun hfits => ?_, fun hlong g hload => ?_⟩
  · obtain ⟨doc, hdoc, hholds⟩ := Node.ofTokens_list ts
    obtain ⟨g, made, hgraph, hroot, hmade, hreflects⟩ := toGraph_plain (plain_holds hholds hd)
    refine ⟨g, ?_, ?_⟩
    · unfold load
      rw [hscan hfits]
      show ((Document.ofTokens _).bind _) = _
      rw [hdoc]
      exact hgraph
    · unfold Graph.top
      rw [hroot]
      exact shows_holds hreflects hholds hmade
  · unfold load at hload
    cases hdoc : Document.ofTokens (Token.ofText (render (.list ts))) with
    | ok doc => exact Node.ofTokens_unfinished (hjam hlong) doc hdoc
    | error f =>
      rw [hdoc] at hload
      cases hload

end SecretForge.Yaml
