import MdxMend.Failure
import MdxMend.Proofs.Alternating
import MdxMend.Proofs.RealChange

/-!
# Documents without code

Keeping code is meant to make a difference where there is code. Without any, a document
that is cut into spans is one stretch of prose, because two stretches are never
neighbours, and the rules on prose see it as a whole either way.

The empty document is the exception. It has no stretch of prose at all, so when it is cut
no rule gets to see it, while it is still a text for a rule to match in when it is not.
That tells the two ways apart exactly if some rule on prose has something to fix in the
empty text, as a rule with an empty match may.
-/

namespace MdxMend

open Text

/-- Without code a document is a single stretch of prose. -/
theorem segment_of_no_code {t : Text} (h : ∀ span ∈ segment t, span.isCode = false)
    (hne : t ≠ []) : segment t = [.prose t] := by
  have hjoin := reassemble_segment t
  have hturns : (segment t).IsChain _ := (alternating_segmentFrom true t).turns
  generalize segment t = spans at h hjoin hturns
  cases spans with
  | nil => exact absurd hjoin.symm hne
  | cons x spans =>
      have hx := h x List.mem_cons_self
      cases spans with
      | nil =>
          cases x with
          | code u => cases hx
          | prose u =>
              rw [← hjoin]
              simp [reassemble, Span.content]
      | cons y spans =>
          have hy := h y (List.mem_cons_of_mem x List.mem_cons_self)
          exact absurd (hx.trans hy.symm) (List.isChain_cons_cons.mp hturns).1

/-! ## Rules with nothing to fix -/

section Fixes

variable {r : Rule} {rules : List Rule} {p : Progress}

theorem Rule.apply_of_fixes (h : r.fixes p.text = 0) : (r.apply p).Abreast Eq p := by
  have htally : (r.apply p).tally = p.tally := by
    rw [r.apply_tally, h]
    rfl
  exact ⟨(r.reports p).text_eq (congrArg Tally.total htally), htally⟩

/-- Where the total stays, each rule found nothing to fix in what the one before had left, and so
in the text as it was. -/
theorem fixes_eq_zero_of_total (h : (applyRules rules p).tally.total = p.tally.total) :
    ∀ r ∈ rules, r.fixes p.text = 0 := by
  induction rules generalizing p with
  | nil => exact fun r hr => absurd hr List.not_mem_nil
  | cons r rules ih =>
      have hhead : (r.apply p).tally.total = p.tally.total + r.fixes p.text := by
        rw [r.apply_tally, Tally.total_record]
      have hrest : (r.apply p).tally.total ≤ (applyRules rules (r.apply p)).tally.total :=
        (Progress.Reports.stepwise.applyRules (fun s _ => s.reports) (r.apply p)).total_le
      change (applyRules rules (r.apply p)).tally.total = p.tally.total at h
      have hfixes : r.fixes p.text = 0 := by omega
      have hsame := Rule.apply_of_fixes hfixes
      rw [List.forall_mem_cons, ← hsame.text]
      exact ⟨hsame.text ▸ hfixes, ih (by omega)⟩

theorem applyRules_of_fixes (h : ∀ r ∈ rules, r.fixes p.text = 0) :
    (applyRules rules p).Abreast Eq p := by
  induction rules generalizing p with
  | nil => exact ⟨rfl, rfl⟩
  | cons r rules ih =>
      obtain ⟨hfixes, hrules⟩ := List.forall_mem_cons.mp h
      have hsame := Rule.apply_of_fixes hfixes
      have hrest := ih (p := r.apply p) (by rwa [hsame.text])
      exact ⟨hrest.text.trans hsame.text, hrest.tally_eq.trans hsame.tally_eq⟩

end Fixes

/-! ## The two ways through the second phase -/

section NoCode

variable {rules : List Rule} {p : Progress} (h : ∀ span ∈ segment p.text, span.isCode = false)

include h

theorem repairSpans_of_no_code (hne : p.text ≠ []) :
    (repairSpans rules p.tally p.log (segment p.text)).Abreast Eq (applyRules rules p) := by
  rw [segment_of_no_code h hne]
  exact ⟨List.append_nil _, rfl⟩

theorem repairSpans_abreast_iff :
    (repairSpans rules p.tally p.log (segment p.text)).Abreast Eq (applyRules rules p) ↔
      (p.text = [] → ∀ r ∈ rules, r.fixes [] = 0) := by
  by_cases hne : p.text = []
  · have hspans : repairSpans rules p.tally p.log (segment p.text) = p := by
      obtain ⟨t, tally, log⟩ := p
      obtain rfl : t = [] := hne
      rw [segment_nil, repairSpans]
    rw [hspans]
    constructor
    · intro hsame _
      rw [← hne]
      exact fixes_eq_zero_of_total (congrArg Tally.total hsame.tally_eq.symm)
    · intro hfixes
      have hsame := applyRules_of_fixes (p := p) (hne ▸ hfixes hne)
      exact ⟨hsame.text.symm, hsame.tally_eq.symm⟩
  · exact iff_of_true (repairSpans_of_no_code h hne) fun hnil => absurd hnil hne

end NoCode

/-- Where the first phase leaves no code, it makes no difference whether code is kept, unless the
document is empty by then and some rule on prose has something to fix in the empty text. -/
theorem repair_without_code {o : Options} {t : Text}
    (h : ∀ span ∈ segment (repairFences o t).text, span.isCode = false) :
    let kept := repair { o with keepCode := true } t
    let whole := repair { o with keepCode := false } t
    (kept.text = whole.text ∧ kept.tally = whole.tally) ↔
      ((repairFences o t).text = [] → ∀ r ∈ o.proseRules, r.fixes [] = 0) := by
  intro kept whole
  rw [← repairSpans_abreast_iff h]
  have hkept : (repairProse { o with keepCode := true } (repairFences o t)).Abreast Eq
      (repairSpans o.proseRules _ _ _) := repairProse_abreast _ _
  have hwhole : (repairProse { o with keepCode := false } (repairFences o t)).Abreast Eq
      (applyRules o.proseRules _) := repairProse_abreast _ _
  constructor
  · rintro ⟨htext, htally⟩
    exact ⟨hkept.text.symm.trans (htext.trans hwhole.text),
      hkept.tally_eq.symm.trans (htally.trans hwhole.tally_eq)⟩
  · intro hsame
    exact ⟨hkept.text.trans (hsame.text.trans hwhole.text.symm),
      hkept.tally_eq.trans (hsame.tally_eq.trans hwhole.tally_eq.symm)⟩

/-- A backtick that opens nothing, and a rule that matches at the start of every text. -/
theorem repair_without_code_backtick :
    let rule := Rule.ofSource "heading" "" "^" (.template (.ofSource "A "))
    let o : Options := { rules := some rule.toOption.toList }
    let t : Text := "\x60b".toList
    (∀ span ∈ segment (repairFences o t).text, span.isCode = false) ∧
      (repairFences o t).text ≠ [] ∧
      (repair { o with keepCode := true } t).text = (repair { o with keepCode := false } t).text ∧
      (repair { o with keepCode := false } t).text = "A \x60b".toList := by
  intro rule o t
  have hcode : ∀ span ∈ segment (repairFences o t).text, span.isCode = false := by
    decide +kernel
  have hne : (repairFences o t).text ≠ [] := by decide +kernel
  exact ⟨hcode, hne, ((repair_without_code hcode).mpr fun hnil => absurd hnil hne).1,
    by decide +kernel⟩

/-- The same rule finds the start of the empty document only if that is not cut. -/
theorem repair_without_code_empty :
    ¬ ∀ (o : Options) (t : Text),
      (∀ span ∈ segment (repairFences o t).text, span.isCode = false) →
        (repair { o with keepCode := true } t).text =
            (repair { o with keepCode := false } t).text ∧
          (repair { o with keepCode := true } t).tally =
            (repair { o with keepCode := false } t).tally := by
  intro h
  let rule := Rule.ofSource "heading" "" "^" (.template (.ofSource "A"))
  let o : Options := { rules := some rule.toOption.toList }
  have hkept : (repair { o with keepCode := true } []).text = [] := by decide +kernel
  have hwhole : (repair { o with keepCode := false } []).text = ['A'] := by decide +kernel
  have hsame := (h o [] (by decide +kernel)).1
  rw [hkept, hwhole] at hsame
  cases hsame

end MdxMend
