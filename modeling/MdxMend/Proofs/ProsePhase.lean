import MdxMend.Proofs.Crowding
import MdxMend.Proofs.Phases

/-!
# The second phase of a repair

Whatever rules on prose are active, the second phase escapes brackets in prose
and does nothing else. Each fix makes the text longer by three characters, so
the tally can be read off the lengths: nothing was fixed exactly if nothing
changed. And since escaping leaves the spans where they are, the result is cut
into the same spans again, with the same code.
-/

namespace MdxMend

open Text

/-- What the second phase may make of a text on its way: an escaped form of it,
with a fix for each bracket. -/
structure Progress.Grows (p q : Progress) : Prop where
  escaped : Escaped p.text q.text
  total : 3 * q.tally.total + p.text.length = 3 * p.tally.total + q.text.length
  tally_eq : q.tally.total = p.tally.total → q.tally = p.tally

namespace Progress.Grows

variable {p q r : Progress}

theorem refl (p : Progress) : p.Grows p := ⟨Escaped.refl _, rfl, fun _ => rfl⟩

theorem total_le (h : p.Grows q) : p.tally.total ≤ q.tally.total := by
  have htotal := h.total
  have hlen := h.escaped.length_le
  omega

theorem trans (h : p.Grows q) (h' : q.Grows r) : p.Grows r := by
  have h1 := h.total
  have h2 := h'.total
  have hle1 := h.total_le
  have hle2 := h'.total_le
  refine ⟨h.escaped.trans h'.escaped, by omega, fun htotal => ?_⟩
  rw [h'.tally_eq (by omega), h.tally_eq (by omega)]

/-- Nothing is counted exactly if nothing is changed. -/
theorem tally_eq_iff (h : p.Grows q) : q.tally = p.tally ↔ q.text = p.text := by
  have htotal := h.total
  constructor
  · intro heq
    rw [heq] at htotal
    exact h.escaped.eq_of_length_le (by omega)
  · intro heq
    rw [heq] at htotal
    exact h.tally_eq (by omega)

theorem stepwise : Progress.Stepwise Progress.Grows where
  refl := refl
  trans := trans
  append := by
    intro t u tally log p q h h'
    have htotal := h.total
    have htotal' := h'.total
    have hle := h.total_le
    have hle' := h'.total_le
    refine ⟨h.escaped.append h'.escaped, ?_, fun hsame => ?_⟩
    · simp only [List.length_append] at htotal htotal' ⊢
      omega
    · simp only [] at hsame hle hle'
      exact (h'.tally_eq (by simp only []; omega)).trans (h.tally_eq (by simp only []; omega))
  log := fun h => ⟨h.escaped, h.total, h.tally_eq⟩

end Progress.Grows

theorem Tally.total_record (t : Tally) (name : String) (n : Nat) :
    (t.record name n).total = t.total + n := by
  unfold Tally.record
  split
  · next h => rw [h, Nat.add_zero]
  · rfl

/-- The rule escapes brackets, and each of its fixes is one. -/
def Rule.Escapes (r : Rule) : Prop :=
  ∃ (σ : Type) (e : Escaper σ) (start : σ), e.Steady ∧ e.Runs start r

theorem Rule.Escapes.grows {r : Rule} (h : r.Escapes) (p : Progress) : p.Grows (r.apply p) := by
  obtain ⟨σ, e, start, he, hruns⟩ := h
  rw [hruns.apply he]
  have hlen := Escaper.length_text he start p.text
  refine ⟨e.escaped_text start p.text, ?_, ?_⟩
  · rw [Tally.total_record]
    simp only []
    omega
  · intro htotal
    simp only [Tally.total_record] at htotal
    rw [Nat.add_eq_left.mp htotal]
    rfl

theorem applyRules_grows {rules : List Rule} (h : ∀ r ∈ rules, r.Escapes) (p : Progress) :
    p.Grows (applyRules rules p) :=
  Progress.Grows.stepwise.applyRules (fun r hr => (h r hr).grows) p

/-! ## Spans -/

/-- A span as the second phase leaves it. -/
def Span.repaired (rules : List Rule) : Span → Span
  | .code t => .code t
  | .prose t => .prose (applyRules rules { text := t }).text

theorem repairSpans_text (rules : List Rule) (tally : Tally) (log : Log) (spans : List Span) :
    (repairSpans rules tally log spans).text =
      reassemble (spans.map (Span.repaired rules)) := by
  induction spans generalizing tally log with
  | nil => rfl
  | cons span spans ih =>
      cases span with
      | code t => simp only [repairSpans, ih, List.map_cons, reassemble_cons, Span.repaired,
          Span.content]
      | prose t =>
          have htext : (applyRules rules ⟨t, tally, log⟩).text =
              (applyRules rules { text := t }).text := applyRules_text rules rfl
          simp only [repairSpans, ih, htext, List.map_cons, reassemble_cons, Span.repaired,
            Span.content]

@[simp] theorem codes_repaired (rules : List Rule) (spans : List Span) :
    codes (spans.map (Span.repaired rules)) = codes spans := by
  induction spans with
  | nil => rfl
  | cons span spans ih => cases span <;> simp [Span.repaired, ih]

section Escapes

variable {rules : List Rule} (hrules : ∀ r ∈ rules, r.Escapes)

include hrules

theorem repaired_escaped (spans : List Span) :
    List.Forall₂ Span.Escaped spans (spans.map (Span.repaired rules)) := by
  induction spans with
  | nil => exact .nil
  | cons span spans ih =>
      refine .cons ?_ ih
      cases span with
      | code t => exact .code (Escaped.refl t)
      | prose t => exact .prose (applyRules_grows hrules { text := t }).escaped

/-- The second phase moves no boundary of a span. -/
theorem segment_repaired (t : Text) :
    segment (reassemble ((segment t).map (Span.repaired rules))) =
      (segment t).map (Span.repaired rules) :=
  segment_reassemble_escaped (repaired_escaped hrules _)

end Escapes

/-! ## Built-in rules -/

theorem escapes_lessDigit : Builtin.lessDigit.Escapes :=
  ⟨_, _, _, Escaper.steady_lessDigit, Escaper.runs_lessDigit⟩

theorem escapes_lessSpaceDigit : Builtin.lessSpaceDigit.Escapes :=
  ⟨_, _, _, Escaper.steady_lessSpaceDigit, Escaper.runs_lessSpaceDigit⟩

theorem escapes_greaterDigit : Builtin.greaterDigit.Escapes :=
  ⟨_, _, _, Escaper.steady_greaterDigit, Escaper.runs_greaterDigit⟩

theorem escapes_digitTag : Builtin.digitTag.Escapes :=
  ⟨_, _, _, Escaper.steady_digitTag, Escaper.runs_digitTag⟩

/-- The built-in rules on prose, in the order in which they run. -/
def Builtin.proseRules : List Rule := Builtin.rules.filter (·.scope == .prose)

theorem Builtin.proseRules_eq :
    Builtin.proseRules = [lessDigit, lessSpaceDigit, greaterDigit, digitTag] := rfl

theorem Builtin.escapes_of_mem : ∀ r ∈ Builtin.proseRules, r.Escapes := by
  intro r hr
  rw [Builtin.proseRules_eq] at hr
  simp only [List.mem_cons, List.not_mem_nil, or_false] at hr
  rcases hr with rfl | rfl | rfl | rfl
  · exact escapes_lessDigit
  · exact escapes_lessSpaceDigit
  · exact escapes_greaterDigit
  · exact escapes_digitTag

/-- The built-in rules on prose escape, whichever are active. -/
theorem Options.escapes_of_mem_proseRules {o : Options} (ho : o.ruleList = Builtin.rules) :
    ∀ r ∈ o.proseRules, r.Escapes := by
  intro r hr
  simp only [Options.proseRules, Options.activeRules, selectRules, ho, List.mem_filter] at hr
  exact Builtin.escapes_of_mem r (List.mem_filter.mpr ⟨hr.1.1, hr.2⟩)

/-- Of the built-in rules only one is on fences. -/
theorem Options.fenceRules_builtin {o : Options} (ho : o.ruleList = Builtin.rules) :
    o.fenceRules = if Builtin.normalizeLanguage.isActive o.enable o.disable
      then [Builtin.normalizeLanguage] else [] := by
  have hscope : ∀ r ∈ [Builtin.lessDigit, Builtin.lessSpaceDigit, Builtin.greaterDigit,
      Builtin.digitTag], (r.scope == Scope.fenceOpening) = false := by
    intro r hr
    simp only [List.mem_cons, List.not_mem_nil, or_false] at hr
    rcases hr with rfl | rfl | rfl | rfl <;> rfl
  have hnone : (selectRules [Builtin.lessDigit, Builtin.lessSpaceDigit, Builtin.greaterDigit,
      Builtin.digitTag] o.enable o.disable).filter (·.scope == .fenceOpening) = [] := by
    rw [List.filter_eq_nil_iff]
    intro r hr
    rw [hscope r (List.mem_of_mem_filter hr)]
    decide
  rw [Options.fenceRules, Options.activeRules, ho]
  change (selectRules (Builtin.normalizeLanguage :: _) o.enable o.disable).filter _ = _
  rw [selectRules, List.filter_cons]
  split
  · exact congrArg (Builtin.normalizeLanguage :: ·) hnone
  · exact hnone

/-- A document whose prose went through some of the built-in rules is cut where it was
cut before: the code is what it was, and each stretch of prose is what the rules make
of the one in its place. -/
theorem segment_repairSpans (keep : Rule → Bool) (tally : Tally) (log : Log) (t : Text) :
    let rules := Builtin.proseRules.filter keep
    let spans := segment t
    let out := (repairSpans rules tally log spans).text
    segment out = spans.map (Span.repaired rules) ∧
      (segment out).map Span.isCode = spans.map Span.isCode ∧
      codes (segment out) = codes spans ∧
      ∀ (i : Nat) (u : Text), spans[i]? = some (Span.prose u) →
        (segment out)[i]? = some (Span.prose (applyRules rules { text := u }).text) := by
  intro rules spans out
  have hrules : ∀ r ∈ rules, r.Escapes := fun r hr =>
    Builtin.escapes_of_mem r (List.mem_of_mem_filter hr)
  have hout : segment out = spans.map (Span.repaired rules) := by
    rw [show out = _ from repairSpans_text rules tally log spans]
    exact segment_repaired hrules t
  refine ⟨hout, ?_, ?_, fun i u hu => ?_⟩
  · rw [hout, List.map_map]
    refine List.map_congr_left fun span _ => ?_
    cases span <;> rfl
  · rw [hout, codes_repaired]
  · rw [hout, List.getElem?_map, hu]
    rfl

theorem repairProse_text {o : Options} (hkeep : o.keepCode = true) (p : Progress) :
    (repairProse o p).text =
      reassemble ((segment p.text).map (Span.repaired o.proseRules)) := by
  rw [(repairProse_abreast o p).text, if_pos hkeep]
  exact repairSpans_text ..

theorem repairProse_grows {o : Options} (ho : o.ruleList = Builtin.rules) (p : Progress) :
    p.Grows (repairProse o p) :=
  Progress.Grows.stepwise.repairProse
    (fun r hr => (Options.escapes_of_mem_proseRules ho r hr).grows) p

/-- With all of them active, the rules on prose are the joint reader. -/
theorem applyRules_joint (t : Text) :
    (applyRules ({} : Options).proseRules { text := t }).text = Escaper.joint.text {} t := by
  have hrules : ({} : Options).proseRules =
      [Builtin.lessDigit, Builtin.lessSpaceDigit, Builtin.greaterDigit, Builtin.digitTag] := rfl
  rw [hrules, ← Escaper.text_joint]
  simp only [applyRules, List.foldl_cons, List.foldl_nil,
    Escaper.runs_lessDigit.apply Escaper.steady_lessDigit,
    Escaper.runs_lessSpaceDigit.apply Escaper.steady_lessSpaceDigit,
    Escaper.runs_greaterDigit.apply Escaper.steady_greaterDigit,
    Escaper.runs_digitTag.apply Escaper.steady_digitTag]

end MdxMend
