import MdxMend.Proofs.Again
import MdxMend.Proofs.Apart
import MdxMend.Proofs.LineByLine

/-!
# Repairing a document in two parts

A document may be repaired in parts, if it is cut where a line ends, where no fence is
open and behind no run that opens one and is left in prose. The three conditions answer
to what a repair carries over a line break: the walk over fence lines the open fence
(`openBehind`), the scan for code a run that may yet be closed (`Apart`), and the rules on
prose nothing (`applyRules_line`).

The parts meet in one span, the prose that the first one ends with. Since the rules go
by lines that span is repaired as its two parts are, so texts and counts add up
(`repaired_joinProse`), and a tally is known from its counts.
-/

namespace MdxMend

open Text Builtin

/-! ## The first phase -/

/-- The fence that is open behind a text, by its fence lines. -/
def openBehind (t : Text) : Option Fence :=
  ((fenceLine.scan t).hits.map (·.found.text)).foldl (fun open? l => (Fence.track open? l).2) none

theorem Scan.found_pushes (x : Text) (s : Scan) :
    (x.foldr push s).hits.map (·.found.text) = s.hits.map (·.found.text) := by
  induction x with
  | nil => rfl
  | cons c x ih =>
      rw [List.foldr_cons, ← ih]
      generalize x.foldr push s = s'
      obtain ⟨_ | _, tail⟩ := s' <;> rfl

theorem openBehind_eq (t : Text) : openBehind t = trackLines none (lines t) := by
  have hscan : ∀ ls, Lined ls → ∀ (n : Nat) (b : Option Char), (b = none ∨ b = some '\n') →
      ∀ open?, ((fenceLine.scanFrom n ⟨b, ls.flatten⟩ false).hits.map (·.found.text)).foldl
        (fun open? l => (Fence.track open? l).2) open? = trackLines open? ls := by
    intro ls hls
    induction hls with
    | nil =>
        intro n b _ open?
        rw [List.flatten_nil, show fenceLine.scanFrom n ⟨b, []⟩ false = ⟨[], []⟩ from
          Pattern.scanFrom_nil covers_fenceLineAt? n b]
        rfl
    | @last x hne hx =>
        intro n b hb open?
        rw [List.flatten_singleton, scan_last hb n hx, trackLines, retag_last hx]
        rfl
    | @line l ls hl hls ih =>
        intro n b hb open?
        rw [List.flatten_cons, trackLines]
        by_cases hfence : ∃ f : FenceLine, l = f.text
        · obtain ⟨f, rfl⟩ := hfence
          have hretag : (retag open? f.text).2 = (Fence.track open? f.text).2 := by
            cases open? with
            | none => rw [retag_none, f.track_none]
            | some g => rw [retag_some, f.track_some]
          rw [scan_fenceLine hb, hretag, ← ih (n + byteLength f.text) _ (.inr rfl)]
          rfl
        · have hother : ∀ f : FenceLine, l ≠ f.text := fun f hf => hfence ⟨f, hf⟩
          rw [scan_other hb hl hother, Scan.found_pushes, retag_other hl hother]
          exact ih (n + byteLength l) _ (.inr rfl) open?
  have h := hscan (lines t) (lined_lines t) 0 none (.inl rfl) none
  rwa [flatten_lines] at h

theorem retagLines_lines_append {a : Text} (hlines : ∀ l ∈ lines a, IsLine l)
    (hopen : openBehind a = none) (b : Text) :
    retagLines none (lines (a ++ b)) =
      retagLines none (lines a) ++ retagLines none (lines b) := by
  rw [lines_append hlines, retagLines_append, ← openBehind_eq, hopen]

theorem repairFences_text (t : Text) :
    (repairFences {} t).text = (retagLines none (lines t)).flatten := by
  rw [repairFences_default]

theorem changed_append {ls ms ls' ms' : List Text} (h : ls.length = ms.length) :
    changed (ls ++ ls') (ms ++ ms') = changed ls ms + changed ls' ms' := by
  rw [changed, List.zip_append h, List.countP_append]
  rfl

/-! ## The second phase -/

/-- Prose that ends with a line break may be repaired before spans are put behind it. -/
theorem repaired_joinProse {rules : List Rule} (h : ∀ r ∈ rules, r.ByLine) (u : Text)
    (spans : List Span) :
    reassemble ((joinProse (u ++ ['\n']) spans).map (Span.repaired rules)) =
        (Span.repaired rules (.prose (u ++ ['\n']))).content ++
          reassemble (spans.map (Span.repaired rules)) ∧
      ∀ name, ((joinProse (u ++ ['\n']) spans).map (Span.fixes name rules)).sum =
        Span.fixes name rules (.prose (u ++ ['\n'])) +
          (spans.map (Span.fixes name rules)).sum := by
  rcases spans with _ | ⟨v | v, spans⟩
  · exact ⟨rfl, fun _ => rfl⟩
  · obtain ⟨y, hfirst, htext, hfixes⟩ := applyRules_line h u v
    have huv : u ++ ['\n'] ++ v = u ++ '\n' :: v := by simp
    rw [joinProse_prose, huv]
    refine ⟨?_, fun name => ?_⟩
    · simp only [List.map_cons, reassemble_cons, Span.repaired, Span.content, htext, hfirst,
        List.append_assoc, List.cons_append, List.nil_append]
    · simp only [List.map_cons, List.sum_cons, Span.fixes, hfixes, Nat.add_assoc]
  · exact ⟨rfl, fun _ => rfl⟩

/-- Where a text is scanned apart, what is behind it joins its last span. -/
theorem repaired_segment_append {rules : List Rule} (h : ∀ r ∈ rules, r.ByLine) {t : Text}
    (ht : Apart t) (hline : t = [] ∨ t.getLast? = some '\n') (s : Text) :
    reassemble ((segment (t ++ s)).map (Span.repaired rules)) =
        reassemble ((segment t).map (Span.repaired rules)) ++
          reassemble ((segment s).map (Span.repaired rules)) ∧
      ∀ name, ((segment (t ++ s)).map (Span.fixes name rules)).sum =
        ((segment t).map (Span.fixes name rules)).sum +
          ((segment s).map (Span.fixes name rules)).sum := by
  rcases hline with rfl | hlast
  · rw [segment_nil, List.nil_append]
    exact ⟨rfl, fun _ => (Nat.zero_add _).symm⟩
  · obtain ⟨xs, u, hu⟩ := segment_newline hlast
    obtain ⟨htext, hfixes⟩ := repaired_joinProse h u (segment s)
    rw [ht.segment_append hu, hu]
    refine ⟨?_, fun name => ?_⟩
    · simp only [List.map_append, reassemble_append, htext, List.map_cons, List.map_nil,
        reassemble_cons, reassemble_nil, List.append_nil, List.append_assoc]
    · simp only [List.map_append, List.sum_append, hfixes, List.map_cons, List.map_nil,
        List.sum_cons, List.sum_nil, Nat.add_zero, Nat.add_assoc]

/-! ## The whole repair -/

/-- The fixes of a repair: those in fence lines, and those in its spans. -/
theorem count_repair (t : Text) (name : String) :
    (repair {} t).tally.count name =
      (if name = normalizeLanguage.name then changed (lines t) (retagLines none (lines t))
        else 0) +
        ((segment (repairFences {} t).text).map (Span.fixes name proseRules)).sum := by
  refine ((Tally.Sound.repairFences {} t).count_repairProse rfl name).trans (congrArg (· + _) ?_)
  rw [repairFences_default]
  exact (Tally.sound_empty.count_record _ _ _).trans (Nat.zero_add _)

/-- A document may be repaired in two parts, if the first one ends with a line break and
with no fence open and no run that opens a fence is left in its prose. -/
theorem repair_append {a b : Text} (hline : a = [] ∨ a.getLast? = some '\n')
    (hopen : openBehind a = none)
    (hfree : Each NoOpener [] (segment (repairFences {} a).text) []) :
    (repair {} (a ++ b)).text = (repair {} a).text ++ (repair {} b).text ∧
      (repair {} (a ++ b)).tally = (repair {} a).tally.merge (repair {} b).tally := by
  have hlines := isLine_of_mem_lines hline
  have hretagged := isLine_retagLines hlines none
  -- Behind the first phase the two parts still stand side by side, cut at a line break.
  have hphase := retagLines_lines_append hlines hopen b
  have hfences : (repairFences {} (a ++ b)).text =
      (repairFences {} a).text ++ (repairFences {} b).text := by
    rw [repairFences_text, repairFences_text, repairFences_text, hphase, List.flatten_append]
  have hchanged : changed (lines (a ++ b)) (retagLines none (lines (a ++ b))) =
      changed (lines a) (retagLines none (lines a)) +
        changed (lines b) (retagLines none (lines b)) := by
    rw [hphase, lines_append hlines, changed_append (length_retagLines _ _).symm]
  have hapart : Apart (repairFences {} a).text := by
    have hlayout := layout_of_lined (lined_retagLines (lined_lines a) none)
    rw [repairFences_text] at hfree ⊢
    exact Apart.of_layout hlayout hretagged onIndent_nil hfree
  have hend : (repairFences {} a).text = [] ∨ (repairFences {} a).text.getLast? = some '\n' := by
    rw [repairFences_text]
    exact getLast?_flatten hretagged
  obtain ⟨htext, hfixes⟩ := repaired_segment_append byLine_of_mem hapart hend
    (repairFences {} b).text
  rw [← hfences] at htext hfixes
  refine ⟨?_, ?_⟩
  · rw [repair_text, repair_text, repair_text]
    exact htext
  · -- Tallies with the same counts are the same.
    have hsound := Tally.Sound.repair {}
    refine (hsound _).ext_count ((hsound a).merge _) fun name => ?_
    rw [(hsound a).count_merge (hsound b), count_repair, count_repair, count_repair,
      hfixes, hchanged]
    split <;> omega

/-- Cut behind a closed block. The second part begins with a `>` that is escaped at the start
of a text, and as well behind a line break; its last line opens a fence. -/
theorem repair_append_block :
    let a : Text := "a <5\n```\n<5\n```\n".toList
    let b : Text := ">6 </7\n~~~\n".toList
    (a = [] ∨ a.getLast? = some '\n') ∧ openBehind a = none ∧
      Each NoOpener [] (segment (repairFences {} a).text) [] ∧
      (repair {} (a ++ b)).text = (repair {} a).text ++ (repair {} b).text ∧
      (repair {} (a ++ b)).tally = (repair {} a).tally.merge (repair {} b).tally := by
  intro a b
  have hline : a = [] ∨ a.getLast? = some '\n' := .inr (by decide)
  have hopen : openBehind a = none := by decide +kernel
  have hspans : segment (repairFences {} a).text =
      [.prose "a <5\n".toList, .code "```text\n<5\n```".toList, .prose "\n".toList] := by
    decide +kernel
  have hfree : Each NoOpener [] (segment (repairFences {} a).text) [] := by
    rw [hspans]
    exact ⟨noOpener_of_no_mark rfl _ _, noOpener_code _ _ _,
      noOpener_of_no_mark rfl _ _, trivial⟩
  exact ⟨hline, hopen, hfree, repair_append hline hopen hfree⟩

/-- A run that is left in prose and could open a fence is closed by what is put behind it. -/
example :
    let a : Text := "```\n<5\n".toList
    let b : Text := "```\n".toList
    (repair {} a).text = "```text\n&lt;5\n".toList ∧
      (repair {} (a ++ b)).text = "```text\n<5\n```\n".toList := by
  decide +kernel

end MdxMend
