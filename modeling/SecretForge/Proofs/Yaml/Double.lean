import SecretForge.Proofs.Number.Round
import SecretForge.Proofs.Scalar
import SecretForge.Proofs.Yaml.ValueFault

/-!
# The doubles of a document

A decimal number of a document is read as a double, or added up from the doubles between its colons.
Either way the double has been rounded, and so has the one form in which doubles are kept.

* `scalarValue_proper` — a scalar of any type gives no other double.
* **`load_proper`** — there is no other double in the value of a text.
-/

namespace SecretForge.Yaml

open SecretForge.Number

theorem doubleOf_proper (cs : List Char) : EndsAs (fun _ => True) Double.Proper (doubleOf cs) := by
  rw [doubleOf]
  split
  · next x hx => exact Double.proper_readDouble? hx
  · trivial

/-- Every step of the sum rounds. -/
theorem weighted_proper (xs : List Double) {sum : Double} (hsum : sum.Proper) (scale : Nat) :
    EndsAs (fun _ => True) Double.Proper (weighted sum scale xs) := by
  induction xs generalizing sum scale with
  | nil => exact hsum
  | cons x xs ih =>
    rw [weighted]
    split
    · trivial
    · exact ih (Double.proper_add _ _) _

theorem decimalNumber_proper (text : String) :
    EndsAs (fun _ => True) Double.Proper (decimalNumber text) := by
  rw [decimalNumber]
  refine .bind (.anyway _) fun p _ => ?_
  obtain ⟨negative, cs⟩ := p
  dsimp only
  split
  · exact .pure (Q := Double.Proper) trivial
  · have hsigned (x : Double) (hx : x.Proper) : EndsAs (fun _ => True) Double.Proper
        (pure (if negative = true then x.neg else x) : Except Fault Double) := by
      split
      · exact .pure (Double.proper_neg hx)
      · exact .pure hx
    split
    · exact hsigned (.infinite false) trivial
    · split
      · exact .bind (.anyway _) fun parts _ =>
          .bind (weighted_proper _ (Double.proper_zero false) 1) hsigned
      · exact .bind (doubleOf_proper cs) hsigned

/-- **A scalar that is converted** gives a double only in form. -/
theorem scalarValue_proper (tag : Tag) (text : String) :
    EndsAs (fun _ => True) Scalar.Proper (scalarValue tag text) := by
  have hmap {ε α : Type} {x : Except ε α} {f : α → Scalar} (hf : ∀ a, (f a).Proper) :
      EndsAs (fun _ => True) Scalar.Proper (x.map f) := (EndsAs.anyway x).map fun a _ => hf a
  rw [scalarValue.eq_def]
  split
  · trivial
  · exact hmap fun _ => trivial
  · exact hmap fun _ => trivial
  · exact (decimalNumber_proper text).map fun x hx => hx
  · rw [binary]
    split
    · trivial
    · split <;> trivial
  · rw [moment]
    split
    · trivial
    · split
      · exact .mapError (hmap (f := .date) fun _ => trivial) fun _ _ => trivial
      · exact .mapError (hmap (f := .timestamp) fun _ => trivial) fun _ _ => trivial
  · trivial
  · trivial

/-- **The doubles in the value of a text** are in form. -/
theorem load_proper {text : String} {g : Graph} (h : load text = .ok g) {n : Nat} {s : Scalar}
    (hs : g.layer n = .scalar s) : s.Proper := by
  rw [load] at h
  obtain ⟨doc, -, h⟩ := exists_of_bind_ok h
  cases doc with
  | none =>
    cases h
    cases n <;> cases hs <;> trivial
  | some doc =>
    have hends := toGraph_ends doc
    rw [show doc.toGraph = .ok g from h] at hends
    rcases hends n s hs with rfl | ⟨tag, text, -, hvalue⟩
    · trivial
    · have hproper := scalarValue_proper tag text
      rw [hvalue] at hproper
      exact hproper

end SecretForge.Yaml
