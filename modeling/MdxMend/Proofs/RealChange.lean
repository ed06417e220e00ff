import MdxMend.Settings.Basic
import MdxMend.Proofs.Access
import MdxMend.Proofs.FencePhase
import MdxMend.Proofs.Passes
import MdxMend.Proofs.PathNames
import MdxMend.Proofs.ProsePhase

/-!
# What is reported and what is changed

A repair reports a change by its tally, and whoever compares texts sees a change by
itself. In one direction they agree for any rules: the total never falls, and a step
that leaves it where it was has left the text where it was (`Progress.Reports`).

In the other direction two rules could undo each other, each with a count. The built-in
rules cannot. Those on prose only make a text longer. The rule on fences may make it
shorter, so lengths say nothing about both phases together; but what it writes is free
of brackets. A line that it changed would have to come back by escaping, and a line
without brackets does not change by escaping (`retagLines_eq_of_escaped`). So if the
result is the document, the first phase changed no line, and then the second has
nothing to hide behind.
-/

namespace MdxMend

open Text

/-- Nothing is taken back from the total, and where nothing is added the text stays. -/
structure Progress.Reports (p q : Progress) : Prop where
  total_le : p.tally.total ≤ q.tally.total
  text_eq : q.tally.total = p.tally.total → q.text = p.text

namespace Progress.Reports

variable {p q r : Progress}

theorem refl (p : Progress) : p.Reports p := ⟨Nat.le_refl _, fun _ => rfl⟩

theorem trans (h : p.Reports q) (h' : q.Reports r) : p.Reports r := by
  have hle := h.total_le
  have hle' := h'.total_le
  refine ⟨by omega, fun htotal => ?_⟩
  rw [h'.text_eq (by omega), h.text_eq (by omega)]

theorem stepwise : Progress.Stepwise Progress.Reports where
  refl := refl
  trans := trans
  append := by
    intro t u tally log p q h h'
    have hle := h.total_le
    have hle' := h'.total_le
    refine ⟨Nat.le_trans hle hle', fun htotal => ?_⟩
    simp only [] at hle hle' htotal
    exact congrArg₂ (· ++ ·) (h.text_eq (by simp only []; omega))
      (h'.text_eq (by simp only []; omega))
  log := fun h => ⟨h.total_le, h.text_eq⟩

end Progress.Reports

theorem Rule.reports (r : Rule) (p : Progress) : p.Reports (r.apply p) := by
  by_cases hfails : r.FailsOn p.text
  · obtain ⟨e, he⟩ := apply_of_failsOn hfails
    rw [he]
    exact ⟨Nat.le_refl _, fun _ => rfl⟩
  · rw [apply_of_not_failsOn hfails]
    refine ⟨?_, fun htotal => ?_⟩
    · show p.tally.total ≤ (p.tally.record r.name (r.changes p.text)).total
      rw [Tally.total_record]
      omega
    · rw [Tally.total_record] at htotal
      exact rewritten_of_changes (by omega)

theorem repair_text_of_total {o : Options} {t : Text} (h : (repair o t).tally.total = 0) :
    (repair o t).text = t :=
  (Progress.Reports.stepwise.repair (fun r _ => r.reports) t).text_eq h

/-! ## Built-in rules -/

namespace FenceLine

theorem plain_text {f : FenceLine} (h : ∀ c ∈ f.tag, reference? c = none) :
    ∀ c ∈ f.text, reference? c = none := by
  simp only [text, List.forall_mem_append]
  exact ⟨f.plain_indent, f.plain_marks, h, f.plain_eol⟩

/-- A new tag is free of brackets, so no escaping leads back to the old one. -/
theorem retagged_eq_of_escaped {f : FenceLine} (h : Escaped f.retagged.text f.text) :
    f.retagged.text = f.text := by
  by_cases hstays : Language.Stays f.tag
  · rw [retagged_of_stays hstays]
  · have hplain : ∀ c ∈ f.retagged.tag, reference? c = none := by
      rcases tag_retagged_of_not_stays hstays with htag | htag <;>
      · rw [htag]
        simp [reference?]
    exact (h.eq_of_plain (plain_text hplain)).symm

end FenceLine

theorem retagLines_eq_of_escaped {ls : List Text} (hls : Lined ls) {open? : Option Fence}
    (h : List.Forall₂ Escaped (retagLines open? ls) ls) : retagLines open? ls = ls := by
  induction hls generalizing open? with
  | nil => rfl
  | @last x hne hx => rw [retagLines, retag_last hx, retagLines]
  | @line l ls hl _ ih =>
      rw [retagLines] at h ⊢
      obtain ⟨hhead, hrest⟩ := List.forall₂_cons.mp h
      have hline : (retag open? l).1 = l := by
        by_cases hfence : ∃ f : FenceLine, l = f.text
        · obtain ⟨f, rfl⟩ := hfence
          cases open? with
          | none =>
              rw [retag_none] at hhead ⊢
              exact FenceLine.retagged_eq_of_escaped hhead
          | some g => rw [retag_some]
        · rw [retag_other hl fun f hf => hfence ⟨f, hf⟩]
      rw [hline, ih hrest]

/-- The first phase is known from what can be escaped back to the document. -/
theorem repairFences_of_escaped {o : Options} (ho : o.ruleList = Builtin.rules) {t : Text}
    (h : Escaped (repairFences o t).text t) : repairFences o t = { text := t } := by
  rw [repairFences, Options.fenceRules_builtin ho] at h ⊢
  split at h
  · next hactive =>
      rw [if_pos hactive]
      change Escaped (Builtin.normalizeLanguage.apply { text := t }).text t at h
      show Builtin.normalizeLanguage.apply { text := t } = _
      rw [apply_normalizeLanguage] at h ⊢
      have hlines := lines_escaped h
      rw [(lined_retagLines (lined_lines t) none).lines_flatten] at hlines
      have hsame := retagLines_eq_of_escaped (lined_lines t) hlines
      have hcount := (changed_eq_zero (length_retagLines none (lines t))).mpr hsame
      simp only [hcount]
      rw [hsame, flatten_lines]
      rfl
  · next hinactive => rw [if_neg hinactive]; rfl

theorem repair_total_of_text {o : Options} (ho : o.ruleList = Builtin.rules) {t : Text}
    (h : (repair o t).text = t) : (repair o t).tally.total = 0 := by
  have hgrows := repairProse_grows ho (repairFences o t)
  change (repairProse o (repairFences o t)).text = t at h
  show (repairProse o (repairFences o t)).tally.total = 0
  have hescaped := hgrows.escaped
  rw [h] at hescaped
  have hfences := repairFences_of_escaped ho hescaped
  rw [hfences] at hgrows h ⊢
  rw [hgrows.tally_eq_iff.mpr h]

@[simp] theorem Settings.ruleList_toOptions (s : Settings) :
    s.toOptions.ruleList = Builtin.rules := rfl

/-- A repair that reports nothing has changed nothing, whatever the rules are. With the
built-in rules it has changed something if it reports something; so the two ways to tell
are one, in a repair and in what is said of a repaired file. -/
theorem changed_eq_text_ne (o : Options) (t : Text) :
    ((repair o t).tally.total = 0 → (repair o t).text = t ∧ (repair o t).notified = []) ∧
    (o.ruleList = Builtin.rules →
      (0 < (repair o t).tally.total →
        (repair o t).text ≠ t ∧ (repair o t).notified = [(repair o t).tally]) ∧
      (repair o t).changed = ((repair o t).text != t) ∧
      ∀ (write : Bool) (store : Store) (p : Path) (f : FileRepaired),
        store.readText p = .ok t → (repairFile o write store p).result = .ok f →
          f.tally = (repair o t).tally ∧ f.changed = (repair o t).changed) := by
  have hsilent : (repair o t).tally.total = 0 → (repair o t).tally.isEmpty = true := beq_iff_eq.mpr
  refine ⟨fun h => ⟨repair_text_of_total h, if_pos (hsilent h)⟩, fun ho => ?_⟩
  have htotal : (repair o t).tally.total = 0 ↔ (repair o t).text = t :=
    ⟨repair_text_of_total, repair_total_of_text ho⟩
  have hchanged : (repair o t).changed = ((repair o t).text != t) := by
    rw [Repaired.changed, Tally.isEmpty, Bool.eq_iff_iff, bne_iff_ne, Bool.not_eq_true',
      beq_eq_false_iff_ne, ne_eq, ne_eq, htotal]
  refine ⟨fun hpos => ⟨fun heq => ?_, ?_⟩, hchanged, fun write store p f hread hok => ?_⟩
  · rw [htotal.mpr heq] at hpos
    cases hpos
  · refine if_neg ?_
    rw [Tally.isEmpty, beq_iff_eq]
    omega
  · obtain ⟨t', hread', rfl⟩ := exists_of_repairFile_ok hok
    obtain rfl := Except.ok.inj (hread.symm.trans hread')
    exact ⟨rfl, hchanged.symm⟩

/-- The new tag is as much shorter as the escaped bracket is longer, so the lengths are the
same; the texts are not. -/
theorem changed_eq_text_ne_block :
    let o := Settings.toOptions { disable := ["less-than-space-digit"], keepCode := false }
    let t : Text := "~~~ plain \n~~~\n<5\n".toList
    let store : Store := { nodes := [(["a.md"], .file (toBytes t))] }
    o.ruleList = Builtin.rules ∧ 0 < (repair o t).tally.total ∧
      (repair o t).text.length = t.length ∧
      (repair o t).text ≠ t ∧ (repair o t).notified = [(repair o t).tally] ∧
      store.readText ⟨"a.md"⟩ = .ok t ∧
      ∀ f, (repairFile o true store ⟨"a.md"⟩).result = .ok f →
        f.changed = (repair o t).changed := by
  intro o t store
  have hpos : 0 < (repair o t).tally.total := by decide +kernel
  have hread : store.readText ⟨"a.md"⟩ = .ok t := by
    refine Store.readText_ok_iff.mpr ⟨["a.md"], ?_, rfl⟩
    have hplain : Path.IsPlain "a.md" :=
      ⟨⟨by decide, by decide, by decide⟩, by decide, by decide⟩
    rw [hplain.resolve_eq]
    exact (Store.Last.file rfl hplain.toIsName rfl).walk _
  obtain ⟨hreal, -, hfile⟩ := (changed_eq_text_ne o t).2 (Settings.ruleList_toOptions _)
  exact ⟨rfl, hpos, by decide +kernel, (hreal hpos).1, (hreal hpos).2, hread,
    fun f hf => (hfile true store _ f hread hf).2⟩

end MdxMend
