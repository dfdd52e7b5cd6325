import SecretForge.Proofs.Redaction

/-!
# Secrets between delimiters

What a redacted text still tells about a secret.  A secret may hold other secrets and may be held by
others, and masking one of these first would leave parts of it that give it away.  As longer secrets are
masked first, this does not happen to a secret that stands between two characters which no secret has:
it is hidden as a whole, so that nobody can tell from the redacted text which secret it was.

* `maskAll_delimited` — the delimiters divide the text: what stands before them, between them and after
  them is masked for itself.
* `maskAll_secret` — a secret alone is masked as a whole.
* **`redact_delimited`** — a delimited secret is hidden whole, and any other secret in its place gives
  the same redacted text.
-/

namespace SecretForge

open Text

/-- A text between two characters. -/
def delimited (d e : Char) (text : String) : String :=
  String.singleton d ++ text ++ String.singleton e

/-! ### Either side of a delimiter -/

variable {secrets : List String} {d e : Char}

theorem replace_append_char {v : String} (hd : d ∉ v.toList) (r x y : String) :
    replace v r (x ++ String.singleton d ++ y)
      = replace v r x ++ String.singleton d ++ replace v r y := by
  apply String.toList_inj.mp
  simp only [toList_replace, String.toList_append, String.toList_singleton, List.append_assoc,
    List.singleton_append]
  exact replaceAll_append_cons hd _ _

/-- Secrets are masked on one side of a character that none of them has and on the other. -/
theorem maskAll_append_char (hd : ∀ v ∈ secrets, d ∉ v.toList) (x y : String) :
    maskAll secrets (x ++ String.singleton d ++ y)
      = maskAll secrets x ++ String.singleton d ++ maskAll secrets y := by
  induction secrets generalizing x y with
  | nil => rfl
  | cons v secrets ih =>
    rw [List.forall_mem_cons] at hd
    show maskAll secrets (replace v mask (x ++ String.singleton d ++ y)) = _
    rw [replace_append_char hd.1, ih hd.2]
    rfl

theorem maskAll_delimited (hd : ∀ v ∈ secrets, d ∉ v.toList) (he : ∀ v ∈ secrets, e ∉ v.toList)
    (x text y : String) :
    maskAll secrets (x ++ delimited d e text ++ y)
      = maskAll secrets x ++ delimited d e (maskAll secrets text) ++ maskAll secrets y := by
  have hparts (text x y : String) : x ++ delimited d e text ++ y
      = x ++ String.singleton d ++ (text ++ String.singleton e ++ y) := by
    simp only [delimited, String.append_assoc]
  rw [hparts, hparts, maskAll_append_char hd, maskAll_append_char he]

/-! ### A secret alone -/

/-- A secret that is masked as a whole is a mask from then on, and before its turn no secret stands in
it. -/
theorem maskAll_secret (hmask : ∀ v ∈ secrets, ¬ v.toList <:+: mask.toList)
    (hlongest : secrets.Pairwise fun v w => w.length ≤ v.length) {v : String} (hv : v ∈ secrets) :
    maskAll secrets v = mask := by
  induction secrets with
  | nil => exact absurd hv List.not_mem_nil
  | cons u secrets ih =>
    rw [List.forall_mem_cons] at hmask
    rw [List.pairwise_cons] at hlongest
    show maskAll secrets (replace u mask v) = mask
    by_cases huv : u = v
    · have hne : v.toList ≠ [] := fun h => hmask.1 (huv ▸ h ▸ List.nil_infix)
      have hwhole : replace u mask v = mask := by
        apply String.toList_inj.mp
        have happend := replaceAll_append hne mask.toList []
        rw [List.append_nil, replaceAll_of_not_infix fun h => hne (List.infix_nil.mp h),
          List.append_nil] at happend
        rw [toList_replace, huv, happend]
      rw [hwhole, maskAll_of_not_infix hmask.2]
    · have hv : v ∈ secrets := (List.mem_cons.mp hv).resolve_left (Ne.symm huv)
      -- another secret that is not shorter does not stand in this one
      have hlength : v.toList.length ≤ u.toList.length := by
        rw [String.length_toList, String.length_toList]
        exact hlongest.1 v hv
      have hnot : ¬ u.toList <:+: v.toList := fun h =>
        huv (String.toList_inj.mp (h.eq_of_length_le hlength))
      have hsame : replace u mask v = v := by
        rw [replace, replaceAll_of_not_infix hnot, String.ofList_toList]
      rw [hsame, ih hmask.2 hlongest.2 hv]

/-! ### Delimited secrets -/

namespace SecretSet

variable {s : SecretSet}

/-- **A delimited secret is hidden whole.**  If no secret stands in the mask, then a secret between two
characters that no secret has is replaced by the mask, whatever stands around them, whichever other
secrets it holds or is held by, and in whatever order secrets of one length are masked; what stands
around is redacted for itself.  Hence texts that differ only in the secret that stands there are
redacted to the same text. -/
theorem redact_delimited (hmask : ∀ v ∈ s.values, ¬ v.toList <:+: mask.toList)
    (hd : ∀ v ∈ s.values, d ∉ v.toList) (he : ∀ v ∈ s.values, e ∉ v.toList) {v : String}
    (hv : v ∈ s.values) (x y : String) :
    s.redact (x ++ delimited d e v ++ y) = s.redact x ++ delimited d e mask ++ s.redact y
      ∧ (∀ w ∈ s.values,
          s.redact (x ++ delimited d e w ++ y) = s.redact (x ++ delimited d e v ++ y))
      ∧ ∀ order, s.MaskOrder order →
          maskAll order (x ++ delimited d e v ++ y)
            = maskAll order x ++ delimited d e mask ++ maskAll order y := by
  have hany (order : List String) (horder : s.MaskOrder order) (w : String) (hw : w ∈ s.values) :
      maskAll order (x ++ delimited d e w ++ y)
        = maskAll order x ++ delimited d e mask ++ maskAll order y := by
    have hmem (u : String) : u ∈ order ↔ u ∈ s.values := horder.perm.mem_iff
    rw [maskAll_delimited (fun u hu => hd u ((hmem u).mp hu)) (fun u hu => he u ((hmem u).mp hu)),
      maskAll_secret (fun u hu => hmask u ((hmem u).mp hu)) horder.longest ((hmem w).mpr hw)]
  have hredact := hany s.longestFirst s.maskOrder_longestFirst
  exact ⟨hredact v hv, fun w hw => (hredact w hw).trans (hredact v hv).symm,
    fun order horder => hany order horder v hv⟩

/-- A secret that holds one secret, overlaps with a second and is as long as a third, between an equals
sign and a semicolon; the text around it holds secrets, too. -/
theorem redact_delimited_nested :
    let s := ofTexts ["abc", "abcdef", "efabc", "defabc", "a*"]
    (∀ v ∈ s.values, ¬ v.toList <:+: mask.toList)
      ∧ (∀ v ∈ s.values, '=' ∉ v.toList) ∧ (∀ v ∈ s.values, ';' ∉ v.toList)
      ∧ "abcdef" ∈ s.values
      ∧ s.redact ("abc" ++ delimited '=' ';' "abcdef" ++ "defabcdef")
        = s.redact "abc" ++ delimited '=' ';' mask ++ s.redact "defabcdef"
      ∧ s.redact ("abc" ++ delimited '=' ';' "defabc" ++ "defabcdef")
        = s.redact ("abc" ++ delimited '=' ';' "abcdef" ++ "defabcdef") := by
  intro s
  have hvalues : s.values = ["abc", "abcdef", "efabc", "defabc", "a*"] := by decide
  have hmask : ∀ v ∈ s.values, ¬ v.toList <:+: mask.toList := by rw [hvalues]; decide
  have hd : ∀ v ∈ s.values, '=' ∉ v.toList := by rw [hvalues]; decide
  have he : ∀ v ∈ s.values, ';' ∉ v.toList := by rw [hvalues]; decide
  have hv : "abcdef" ∈ s.values := by rw [hvalues]; decide
  have hw : "defabc" ∈ s.values := by rw [hvalues]; decide
  obtain ⟨hwhole, hother, -⟩ := redact_delimited hmask hd he hv "abc" "defabcdef"
  exact ⟨hmask, hd, he, hv, hwhole, hother "defabc" hw⟩

end SecretSet

end SecretForge
