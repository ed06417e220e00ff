import MdxMend.Proofs.Matches

/-!
# The pass of any rule

A pass asks the replacement for a text at each match that the rule may change. The
rule fails on a text if one of these matches has no replacement, and then the pass
gives nothing, however many matches stood before it. Otherwise the pass is the text
with all of these matches renewed.

Both cases are stated for `Rule.apply`: a rule that fails leaves text and tally as they
are, and a rule that does not makes `Rule.rewritten` of the text and adds
`Rule.changes` to its count. There is no third case, so nothing behind this file opens
a pass.
-/

namespace MdxMend

open Text

/-- What stands in place of a match behind a pass that does not fail. A match without a
replacement stands for itself. -/
def Replacement.renderOrKeep (r : Replacement) (m : Match) : Text :=
  match r.render m with
  | .ok new => new
  | .error _ => m.text

namespace Rule

variable (r : Rule) (t : Text)

/-- One of the matches that the rule may change has no replacement. -/
def FailsOn : Prop :=
  ∃ h ∈ r.hits t, h.2 = true ∧ ∃ e, r.replacement.render h.1.found = .error e

instance (x : Except RuleError Text) : Decidable (∃ e, x = .error e) :=
  match x with
  | .ok _ => .isFalse nofun
  | .error e => .isTrue ⟨e, rfl⟩

instance : Decidable (r.FailsOn t) :=
  inferInstanceAs (Decidable (∃ h ∈ r.hits t, h.2 = true ∧ ∃ e, _ = Except.error e))

/-- The text with the matches renewed that the rule may change. -/
def rewritten : Text :=
  ((r.hits t).flatMap fun h => h.1.gap ++ renewed r.replacement.renderOrKeep h) ++
    (r.pattern.scan t).tail

/-- The number of matches that are not renewed to what they were. -/
def changes : Nat :=
  (r.hits t).countP fun h => renewed r.replacement.renderOrKeep h ≠ h.1.found.text

variable {r t}

/-- Where every match is renewed to what it was, so is the text. -/
theorem rewritten_eq (h : ∀ x ∈ r.hits t, renewed r.replacement.renderOrKeep x = x.1.found.text) :
    r.rewritten t = t := by
  have hhits : (r.hits t).flatMap (fun x => x.1.gap ++ renewed r.replacement.renderOrKeep x) =
      ((r.hits t).map Prod.fst).flatMap fun x => x.gap ++ x.found.text := by
    rw [List.flatMap_map]
    exact List.flatMap_congr fun x hx => by rw [h x hx]
  rw [rewritten, hhits, map_hits]
  exact r.pattern.text_scan t

theorem changes_eq_zero :
    r.changes t = 0 ↔
      ∀ x ∈ r.hits t, renewed r.replacement.renderOrKeep x = x.1.found.text := by
  simp [changes, List.countP_eq_zero]

theorem rewritten_of_changes (h : r.changes t = 0) : r.rewritten t = t :=
  rewritten_eq (changes_eq_zero.mp h)

theorem pass_of_failsOn (h : r.FailsOn t) : ∃ e, r.pass t = .error e := pass_of_error h

theorem pass_of_not_failsOn (h : ¬ r.FailsOn t) :
    r.pass t = .ok (if r.changes t = 0 then none else some ⟨r.rewritten t, r.changes t⟩) := by
  refine pass_of_renders (f := r.replacement.renderOrKeep) fun x hx hacc => ?_
  unfold Replacement.renderOrKeep
  split
  · next new hnew => exact hnew
  · next e he => exact absurd ⟨x, hx, hacc, e, he⟩ h

theorem apply_of_failsOn {p : Progress} (h : r.FailsOn p.text) :
    ∃ e, r.apply p = { p with log := p.log ++ [r.skipped e] } := by
  obtain ⟨e, he⟩ := pass_of_failsOn h
  exact ⟨e, by rw [apply, he]⟩

theorem apply_of_not_failsOn {p : Progress} (h : ¬ r.FailsOn p.text) :
    r.apply p =
      ⟨r.rewritten p.text, p.tally.record r.name (r.changes p.text), p.log⟩ := by
  rw [apply, pass_of_not_failsOn h]
  by_cases h0 : r.changes p.text = 0
  · rw [if_pos h0, h0, rewritten_of_changes h0]
    rfl
  · rw [if_neg h0]

end Rule

end MdxMend
