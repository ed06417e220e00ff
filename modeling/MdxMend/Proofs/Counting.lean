import MdxMend.Proofs.ProsePhase
import MdxMend.Proofs.Tallies

/-!
# What a repair adds to the counts

Tallies are handed from rule to rule and from span to span, and each of them adds
to what it is handed. What it adds depends on the text alone: that is what makes it
possible to speak of the fixes in a span, and to count those of a document by its
spans (`Tally.Sound.count_repairSpans`).
-/

namespace MdxMend

theorem Escaper.Runs.fixes_eq {σ : Type} {e : Escaper σ} {start : σ} {r : Rule}
    (h : e.Runs start r) (t : Text) : r.fixes t = e.fixes start t := by
  unfold Rule.fixes
  rw [h t]
  by_cases h0 : e.fixes start t = 0
  · rw [if_pos h0, h0]
  · rw [if_neg h0]

/-- The fixes under a name that rules make in a text, each on what the one before has
left. -/
def fixesOf (name : String) : List Rule → Text → Nat
  | [], _ => 0
  | r :: rules, t =>
    (if name = r.name then r.fixes t else 0) + fixesOf name rules (r.apply { text := t }).text

namespace Tally.Sound

theorem apply {p : Progress} (h : p.tally.Sound) (r : Rule) : (r.apply p).tally.Sound := by
  rw [r.apply_tally]
  exact h.record _ _

theorem applyRules {p : Progress} (h : p.tally.Sound) (rules : List Rule) :
    (applyRules rules p).tally.Sound :=
  (Progress.stepwise_tally Sound).applyRules (fun r _ _ h => h.apply r) p h

theorem count_applyRules {p : Progress} (h : p.tally.Sound) (rules : List Rule) (name : String) :
    (MdxMend.applyRules rules p).tally.count name =
      p.tally.count name + fixesOf name rules p.text := by
  induction rules generalizing p with
  | nil => rfl
  | cons r rules ih =>
      have htext : (r.apply p).text = (r.apply { text := p.text }).text := r.apply_text rfl
      have hrest := ih (h.apply r)
      rw [r.apply_tally, h.count_record, htext, Nat.add_assoc] at hrest
      exact hrest

end Tally.Sound

/-- The fixes under a name that the second phase makes in a span. -/
def Span.fixes (name : String) (rules : List Rule) : Span → Nat
  | .code _ => 0
  | .prose t => fixesOf name rules t

/-- A rule by itself counts the fixes of all spans under its name. -/
theorem repairSpans_single (r : Rule) (tally : Tally) (log : Log) (spans : List Span) :
    (repairSpans [r] tally log spans).tally =
      tally.record r.name (spans.map (Span.fixes r.name [r])).sum := by
  induction spans generalizing tally log with
  | nil => rfl
  | cons span spans ih =>
      rw [List.map_cons, List.sum_cons]
      cases span with
      | code t => exact (ih tally log).trans (congrArg _ (Nat.zero_add _).symm)
      | prose t =>
          have hhere : (applyRules [r] ⟨t, tally, log⟩).tally = tally.record r.name (r.fixes t) :=
            r.apply_tally ⟨t, tally, log⟩
          have hrest := ih (applyRules [r] ⟨t, tally, log⟩).tally (applyRules [r] ⟨t, tally, log⟩).log
          rw [hhere, Tally.record_record] at hrest
          simpa [repairSpans, Span.fixes, fixesOf, hhere] using hrest

namespace Tally.Sound

theorem count_repairSpans {tally : Tally} (h : tally.Sound) (rules : List Rule) (log : Log)
    (spans : List Span) (name : String) :
    (MdxMend.repairSpans rules tally log spans).tally.count name =
      tally.count name + (spans.map (Span.fixes name rules)).sum := by
  induction spans generalizing tally log with
  | nil => rfl
  | cons span spans ih =>
      rw [List.map_cons, List.sum_cons]
      cases span with
      | code t => exact (ih h log).trans (congrArg _ (Nat.zero_add _).symm)
      | prose t =>
          have hhere : (⟨t, tally, log⟩ : Progress).tally.Sound := h
          have hrest := ih (hhere.applyRules rules)
            (MdxMend.applyRules rules ⟨t, tally, log⟩).log
          rw [hhere.count_applyRules rules name, Nat.add_assoc] at hrest
          exact hrest

/-! ## The two phases -/

theorem repairFences (o : Options) (t : Text) : (repairFences o t).tally.Sound :=
  applyRules (p := { text := t }) sound_empty o.fenceRules

theorem repair (o : Options) (t : Text) : (repair o t).tally.Sound :=
  (Progress.stepwise_tally Sound).repair (fun r _ _ h => h.apply r) t sound_empty

theorem count_repairProse {p : Progress} (h : p.tally.Sound) {o : Options}
    (hkeep : o.keepCode = true) (name : String) :
    (MdxMend.repairProse o p).tally.count name =
      p.tally.count name + ((segment p.text).map (Span.fixes name o.proseRules)).sum := by
  rw [(repairProse_abreast o p).tally_eq, if_pos hkeep]
  exact h.count_repairSpans _ _ _ _

end Tally.Sound

end MdxMend
