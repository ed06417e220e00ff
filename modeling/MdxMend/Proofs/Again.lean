import MdxMend.Proofs.FencePhase
import MdxMend.Proofs.ProsePhase
import Mathlib.Data.List.Forall2

/-!
# Repairing what was repaired

A repair is meant to leave nothing behind for the next one. The first phase
does not: its lines are given no other tag (`retagLines_retagLines`), and what
the second phase escapes in them does not change that. Nor does the second
phase move the boundaries of code. So it all comes down to single stretches of prose, and
there the next repair finds something exactly where one is crowded.
-/

namespace MdxMend

open Text

theorem Span.Escaped.refl (span : Span) : Span.Escaped span span := by
  cases span with
  | prose t => exact .prose (MdxMend.Escaped.refl t)
  | code t => exact .code (MdxMend.Escaped.refl t)

theorem repair_text (t : Text) :
    (repair {} t).text =
      reassemble ((segment (repairFences {} t).text).map
        (Span.repaired ({} : Options).proseRules)) :=
  repairProse_text rfl _

theorem repairFences_default (t : Text) :
    repairFences {} t =
      ⟨(retagLines none (lines t)).flatten,
        Tally.record {} Builtin.normalizeLanguage.name
          (changed (lines t) (retagLines none (lines t))), []⟩ := by
  have hrules : ({} : Options).fenceRules = [Builtin.normalizeLanguage] := rfl
  rw [repairFences, hrules]
  exact apply_normalizeLanguage { text := t }

/-- The rule on fences finds nothing to do behind itself, whatever is escaped in between. -/
theorem retagLines_again (t : Text) {u : Text} (h : Escaped (retagLines none (lines t)).flatten u) :
    retagLines none (lines u) = lines u := by
  have hlined := lined_retagLines (lined_lines t) none
  have hlines := lines_escaped h
  rw [hlined.lines_flatten] at hlines
  exact retagLines_escaped hlines hlined (retagLines_retagLines (lined_lines t) none)

/-- The first phase finds nothing to do in a repaired document. -/
theorem retagLines_repair (t : Text) :
    retagLines none (lines (repair {} t).text) = lines (repair {} t).text := by
  have hescaped : Escaped (repairFences {} t).text (repair {} t).text :=
    (repairProse_grows rfl (repairFences {} t)).escaped
  rw [repairFences_default] at hescaped
  exact retagLines_again t hescaped

theorem repairFences_repair (t : Text) :
    repairFences {} (repair {} t).text = { text := (repair {} t).text } := by
  rw [repairFences_default, retagLines_repair, (changed_eq_zero rfl).mpr rfl, flatten_lines]
  rfl

/-- A stretch of prose is left as it is the second time, unless it was crowded. -/
theorem repaired_repaired_iff (u : Text) :
    Span.repaired ({} : Options).proseRules
        (Span.repaired ({} : Options).proseRules (.prose u)) =
      Span.repaired ({} : Options).proseRules (.prose u) ↔ ¬ Crowded u := by
  rw [← Escaper.joint_fixed_iff]
  simp only [Span.repaired, applyRules_joint, Span.prose.injEq]

/-- A document that was repaired is left as it is by another repair, and nothing
is counted, exactly if no stretch of its prose was crowded. -/
theorem repair_again (t : Text) :
    let once := repair {} t
    let again := repair {} once.text
    let calm := ∀ u, Span.prose u ∈ segment (repairFences {} t).text → ¬ Crowded u
    (again.text = once.text ↔ calm) ∧ (again.tally = {} ↔ calm) := by
  intro once again calm
  let rules := ({} : Options).proseRules
  let spans := segment (repairFences {} t).text
  have hrules : ∀ r ∈ rules, r.Escapes := Options.escapes_of_mem_proseRules rfl
  have honce : once.text = reassemble (spans.map (Span.repaired rules)) := repair_text t
  have hphase : again = repair {} once.text := rfl
  have hagain : again.text =
      reassemble ((spans.map (Span.repaired rules)).map (Span.repaired rules)) := by
    rw [hphase, repair_text, repairFences_repair]
    simp only []
    rw [honce, segment_repaired hrules]
  have htext : again.text = once.text ↔ calm := by
    rw [hagain, honce]
    constructor
    · intro h u hu
      have hsame := escaped_spans_inj (repaired_escaped hrules _)
        (List.forall₂_same.mpr fun span _ => Span.Escaped.refl span) h
      rw [List.map_map] at hsame
      have hu := List.map_inj_left.mp hsame _ hu
      rwa [Function.comp_apply, repaired_repaired_iff] at hu
    · intro h
      rw [List.map_map]
      refine congrArg _ (List.map_inj_left.mpr fun span hspan => ?_)
      cases span with
      | code u => rfl
      | prose u => exact (repaired_repaired_iff u).mpr (h u hspan)
  refine ⟨htext, ?_⟩
  rw [← htext]
  change (repairProse {} (repairFences {} once.text)).tally = {} ↔
    (repairProse {} (repairFences {} once.text)).text = once.text
  rw [repairFences_repair]
  exact (repairProse_grows (o := {}) rfl { text := once.text }).tally_eq_iff

/-- The match of the first tag runs on over the second one, which is left for the next repair. -/
example :
    let once := (repair {} "</5</6>".toList).text
    once = "&lt;/5</6>".toList ∧ (repair {} once).text = "&lt;/5&lt;/6>".toList := by
  decide +kernel

end MdxMend
