import SecretForge.Proofs.Store.Cache
import SecretForge.Proofs.Store.Interleaving

/-!
# Operations in another order

Operations that set different entries can be carried out in any order: they leave the same secrets, and
the latest version of each secret is the same to the byte.  A session keeps the entries of a document in
the order in which they came, and this order does depend on the operations; but it is not written, and
what is written depends on the form of the document alone.

* `entryOf` — where an operation sets its value: the item and the slot in its document.
* `valuesFor_perm`, `nodup_slots` — the values set in the documents of one secret.
* **`run_perm`** — operations on different entries, and the same ones in another order.
-/

namespace SecretForge.Versioned

open Server Document

variable {settings : Settings} {V : Secrets} {ops ops' : List Operation} {id : String}

/-- Where an operation sets its value: the item, and the slot in its document. -/
def entryOf (op : Operation) : String × Slot := (op.item, op.assignment.slot)

theorem valuesFor_perm (hperm : ops.Perm ops') (id : String) :
    (valuesFor settings V id ops).Perm (valuesFor settings V id ops') :=
  ((hperm.filter _).filter _).map _

/-- Operations on different entries that set values in the documents of one secret set different slots. -/
theorem nodup_slots (hentries : (ops.map entryOf).Nodup) (id : String) :
    ((valuesFor settings V id ops).map Assignment.slot).Nodup := by
  have hsublist : ((ops.filter (accepts settings V)).filter
      fun op => secretId settings op.item = id).Sublist ops :=
    List.filter_sublist.trans List.filter_sublist
  have hnodup := hentries.sublist (hsublist.map entryOf)
  rw [List.Nodup, List.pairwise_map] at hnodup
  rw [valuesFor, assignmentsTo, List.map_map, List.Nodup, List.pairwise_map]
  refine hnodup.imp_of_mem fun {op op'} hop hop' hne hslot => hne ?_
  have hitem : op.item = op'.item := secretId_injective settings
    ((of_decide_eq_true (List.mem_filter.mp hop).2).trans
      (of_decide_eq_true (List.mem_filter.mp hop').2).symm)
  exact Prod.ext hitem hslot

/-- **The latest versions after operations** on different entries do not depend on their order. -/
theorem getLast?_afterAll_perm (hperm : ops.Perm ops') (hentries : (ops.map entryOf).Nodup)
    (hexact : ∀ op ∈ ops, ExactAt V (secretId settings op.item)) (id : String) :
    (versionsIn (afterAll settings V ops) id).getLast?
      = (versionsIn (afterAll settings V ops') id).getLast? := by
  have hvalues := @valuesFor_perm settings V _ _ hperm id
  have hexact' : ∀ op ∈ ops', ExactAt V (secretId settings op.item) := fun op hop =>
    hexact op (hperm.mem_iff.mpr hop)
  rcases latest_afterAll hexact id with ⟨hnone, hsame⟩ | ⟨hsome, f, hf, hlast⟩ <;>
    rcases latest_afterAll hexact' id with ⟨hnone', hsame'⟩ | ⟨hsome', f', hf', hlast'⟩
  · rw [hsame, hsame']
  · rw [hnone] at hvalues
    exact absurd hvalues.nil_eq.symm hsome'
  · rw [hnone'] at hvalues
    exact absurd hvalues.eq_nil hsome
  · rw [hlast, hlast', hf.unique hf', Form.foldl_put_perm hvalues (nodup_slots hentries id)]

/-- **The secrets that are there after operations** do not depend on their order. -/
theorem isSome_afterAll_perm (hperm : ops.Perm ops') (id : String) :
    (afterAll settings V ops id).isSome = (afterAll settings V ops' id).isSome := by
  rw [Bool.eq_iff_iff, isSome_afterAll, isSome_afterAll]
  simp only [hperm.mem_iff]

/-- An operation on an item document is accepted, if the item's secret has the item's name. -/
theorem accepts_of_itemDocument {op : Operation} {d : Document} (hname : allowsName op.item)
    (hid : secretId settings op.item = op.item)
    (hlatest : latest (versionsIn V (secretId settings op.item)) = .ok d) (hd : ItemDocument d) :
    accepts settings V op := by
  have hexact := Json.exact_of_floatFree (writable_latest hlatest) hd.floatFree
  obtain ⟨d', hd'⟩ := hd.exists_assign (mirrors_complete hexact) op.assignment
  have hreachable : Reachable settings V op.item := .inr hid
  simp only [accepts, answered, addition, hname, Bool.not_true, Bool.false_eq_true, if_false, hlatest,
    hd', if_pos hreachable]
  rfl

/-- **Updates of different entries commute.**  On a server without faults where the documents of the items
addressed have no doubles in them, operations on different entries and the same operations in another
order, each carried out by a store that was just opened, leave the same secrets, with latest versions that
are the same to the byte.  Where the names are allowed and stand for the secrets themselves, and the
documents are item documents or absent, every operation is done in either order. -/
theorem run_perm (settings : Settings) (server : Server) {ops ops' : List Operation}
    (hplan : server.plan = []) (hperm : ops.Perm ops') (hentries : (ops.map entryOf).Nodup)
    (hfloat : ∀ op ∈ ops, ∀ d, latest (server.versionsOf (secretId settings op.item)) = .ok d →
      Json.FloatFree (.object d)) :
    let one := run settings (ops.map .set) ⟨{}, server⟩
    let other := run settings (ops'.map .set) ⟨{}, server⟩
    (∀ id, (one.2.server.versions? id).isSome = (other.2.server.versions? id).isSome
        ∧ (one.2.server.versionsOf id).getLast? = (other.2.server.versionsOf id).getLast?)
      ∧ ((∀ op ∈ ops, allowsName op.item ∧ secretId settings op.item = op.item
          ∧ ∃ d, latest (server.versionsOf (secretId settings op.item)) = .ok d ∧ ItemDocument d) →
        one.1 = ops ∧ other.1 = ops') := by
  intro one other
  have hexact : ∀ op ∈ ops, ExactAt server.versions? (secretId settings op.item) := fun op hop d hd =>
    Json.exact_of_floatFree (writable_latest hd) (hfloat op hop d hd)
  obtain ⟨hdone, hone, -⟩ := run_plain (faithful_start hplan) ops hexact
  obtain ⟨hdone', hother, -⟩ := run_plain (faithful_start hplan) ops' fun op hop =>
    hexact op (hperm.mem_iff.mpr hop)
  refine ⟨fun id => ⟨?_, ?_⟩, fun hdocuments => ?_⟩
  · rw [hone, hother, isSome_afterAll_perm hperm]
  · show (versionsIn one.2.server.versions? id).getLast?
      = (versionsIn other.2.server.versions? id).getLast?
    rw [hone, hother]
    exact getLast?_afterAll_perm hperm hentries hexact id
  · have haccepts : ∀ op ∈ ops, accepts settings server.versions? op := fun op hop => by
      obtain ⟨hname, hid, d, hlatest, hd⟩ := hdocuments op hop
      exact accepts_of_itemDocument hname hid hlatest hd
    refine ⟨hdone.trans (List.filter_eq_self.mpr haccepts), hdone'.trans ?_⟩
    exact List.filter_eq_self.mpr fun op hop => haccepts op (hperm.mem_iff.mpr hop)

/-- An item document with a field, and with an entry that is of no concern here. -/
def zoned : Document :=
  [(codePoints "zone", .ofString "eu"), (codePoints "fields", .object [(codePoints "y", .ofString "1")])]

theorem exact_zoned : Json.Exact (.object zoned) := by
  have hfields : Json.Exact (.object [(codePoints "y", .ofString "1")]) :=
    Json.exact_object_iff.mpr ⟨List.nodup_singleton _, fun e he => by
      rw [List.mem_singleton.mp he]
      exact ⟨Json.spellable_codePoints _, Json.exact_ofString _⟩⟩
  refine Json.exact_object_iff.mpr ⟨by simp [zoned, codePoints_injective.eq_iff], fun e he => ?_⟩
  rcases List.mem_pair.mp he with rfl | rfl
  · exact ⟨Json.spellable_codePoints _, Json.exact_ofString _⟩
  · exact ⟨Json.spellable_codePoints _, hfields⟩

theorem itemDocument_zoned : ItemDocument (Json.sortedEntries zoned) where
  floatFree := Json.floatFree_of_exact (Json.exact_sorted _ exact_zoned)
  objects key es hes := by
    have hheld : held? (Json.sortedEntries zoned) key
        = ((Json.find? key zoned).map Json.sorted).or (Json.find? key sections) := by
      rw [held?, Json.find?_sortedEntries (Json.exact_object_iff.mp exact_zoned).1]
    have hkey := Json.mem_of_find? hes
    simp only [sections, List.mem_cons, List.not_mem_nil, or_false, Prod.mk.injEq] at hkey
    rw [hheld, hes]
    rcases hkey with ⟨rfl, -⟩ | ⟨rfl, -⟩ | ⟨-, h⟩ | ⟨-, h⟩
    · exact ⟨[(codePoints "y", .ofString "1")], by
        simp [zoned, Json.find?, codePoints_injective.eq_iff, Json.sorted, Json.sortedEntries,
          Json.insertSorted, Json.ofString]⟩
    · exact ⟨es, by simp [zoned, Json.find?, codePoints_injective.eq_iff]⟩
    · cases h
    · cases h

/-- A server that holds the document as the one version of one secret. -/
def zonedServer : Server where
  secrets := [("a", [zoned.write])]

theorem latest_zonedServer :
    latest (zonedServer.versionsOf "a") = .ok (Json.sortedEntries zoned) := by
  have hversions : zonedServer.versionsOf "a" = [zoned.write] := rfl
  rw [latest, hversions, List.getLast?_singleton]
  exact read_write exact_zoned

/-- Values for the document with a zone and for an item without a secret. -/
def distinctOperations : List Operation :=
  [⟨"a", .field "x" [0x78]⟩, ⟨"b", .notes "n"⟩, ⟨"a", .attachment "x" [0xFF]⟩, ⟨"a", .field "b" []⟩]

/-- The operations in reverse are all done, and leave the same latest versions. -/
theorem run_perm_reverse :
    zonedServer.plan = [] ∧ distinctOperations.Perm distinctOperations.reverse
      ∧ (distinctOperations.map entryOf).Nodup
      ∧ (run ⟨"p", none, true⟩ (distinctOperations.reverse.map .set) ⟨{}, zonedServer⟩).1
        = distinctOperations.reverse
      ∧ ((run ⟨"p", none, true⟩ (distinctOperations.map .set) ⟨{}, zonedServer⟩).2.server.versionsOf
          "a").getLast?
        = ((run ⟨"p", none, true⟩ (distinctOperations.reverse.map .set)
          ⟨{}, zonedServer⟩).2.server.versionsOf "a").getLast? := by
  have hperm : distinctOperations.Perm distinctOperations.reverse :=
    (List.reverse_perm distinctOperations).symm
  have hentries : (distinctOperations.map entryOf).Nodup := by decide
  have hid : ∀ item, secretId ⟨"p", none, true⟩ item = item := fun item =>
    secretId_eq_item (by decide) (by decide) item
  have hdocument : ∀ op ∈ distinctOperations, ∃ d,
      latest (zonedServer.versionsOf (secretId ⟨"p", none, true⟩ op.item)) = .ok d ∧ ItemDocument d := by
    intro op hop
    rw [hid]
    have hitem : op.item = "a" ∨ op.item = "b" := by
      revert op
      decide
    rcases hitem with hitem | hitem <;> rw [hitem]
    · exact ⟨_, latest_zonedServer, itemDocument_zoned⟩
    · exact ⟨[], rfl, itemDocument_quietServer "b" [] (latest_of_empty rfl "b")⟩
  have hfloat : ∀ op ∈ distinctOperations, ∀ d,
      latest (zonedServer.versionsOf (secretId ⟨"p", none, true⟩ op.item)) = .ok d →
        Json.FloatFree (.object d) := by
    intro op hop d hd
    obtain ⟨d', hlatest, hd'⟩ := hdocument op hop
    cases hlatest.symm.trans hd
    exact hd'.floatFree
  obtain ⟨hsame, hdone⟩ := run_perm ⟨"p", none, true⟩ zonedServer rfl hperm hentries hfloat
  have hnames : ∀ op ∈ distinctOperations, allowsName op.item := by decide
  obtain ⟨-, hreverse⟩ := hdone fun op hop => ⟨hnames op hop, hid op.item, hdocument op hop⟩
  exact ⟨rfl, hperm, hentries, hreverse, (hsame "a").2⟩

end SecretForge.Versioned
