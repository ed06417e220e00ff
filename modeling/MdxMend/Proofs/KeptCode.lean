import MdxMend.Proofs.InStep

/-!
# What a repair does to code

The second phase copies code, so what becomes of it is decided in the first
one, and there by the rule on fences alone. With it, code comes back exactly
where every block is kept, and that is so in every document whose
blanks are spaces, tabs and line breaks.
-/

namespace MdxMend

open Text

/-- The second phase leaves the code of a document as it is. -/
theorem codes_repairProse {o : Options} (ho : o.ruleList = Builtin.rules)
    (hkeep : o.keepCode = true) (p : Progress) :
    codes (segment (repairProse o p).text) = codes (segment p.text) := by
  rw [repairProse_text hkeep, segment_repaired (Options.escapes_of_mem_proseRules ho),
    codes_repaired]

/-- What becomes of a document's code when the rule on fences is off and when it is on. -/
theorem codes_repair {o : Options} (ho : o.ruleList = Builtin.rules) (hkeep : o.keepCode = true)
    (t : Text) :
    codes (segment (repair o t).text) =
      if Builtin.normalizeLanguage.isActive o.enable o.disable
      then codes (segment (retagLines none (lines t)).flatten) else codes (segment t) := by
  refine (codes_repairProse ho hkeep _).trans ?_
  rw [repairFences, Options.fenceRules_builtin ho]
  split
  · exact congrArg (fun p : Progress => codes (segment p.text)) (apply_normalizeLanguage _)
  · rfl

/-- The code of a document, piece by piece, comes back from a repair, but for tags that are
replaced, exactly if the rule on fences is off or every block is kept, as it
is in a document whose blanks are spaces, tabs and line breaks. -/
theorem code_of_repaired (o : Options) (t : Text) (ho : o.ruleList = Builtin.rules)
    (hkeep : o.keepCode = true) :
    (List.Forall₂ SameCode (codes (segment t)) (codes (segment (repair o t).text)) ↔
      (Builtin.normalizeLanguage.isActive o.enable o.disable = true →
        ∀ pre span post, segment t = pre ++ span :: post →
          Kept (reassemble pre) span (reassemble post))) ∧
    (Ordinary t →
      List.Forall₂ SameCode (codes (segment t)) (codes (segment (repair o t).text))) := by
  have hlayout := layout_of_lined (lined_lines t)
  have hnil : ∀ l ∈ ([] : List Text), IsLine l := fun l hl => absurd hl List.not_mem_nil
  have hsame := sameCodes_iff hlayout hnil
  rw [flatten_lines, each_iff] at hsame
  simp only [List.flatten_nil, List.nil_append, List.append_nil, trackLines] at hsame
  have hiff : List.Forall₂ SameCode (codes (segment t)) (codes (segment (repair o t).text)) ↔
      (Builtin.normalizeLanguage.isActive o.enable o.disable = true →
        ∀ pre span post, segment t = pre ++ span :: post →
          Kept (reassemble pre) span (reassemble post)) := by
    rw [codes_repair ho hkeep]
    split
    · next hactive => exact hsame.trans ⟨fun h _ => h, fun h => h hactive⟩
    · next hactive =>
        exact iff_of_true (List.forall₂_same.mpr fun u _ => .refl u) fun h => absurd h hactive
  refine ⟨hiff, fun hord => hiff.mpr fun _ => ?_⟩
  have heach := InStep.each_kept hlayout hnil hord.lines (inStep_none _)
  rw [flatten_lines, each_iff] at heach
  simpa only [List.flatten_nil, List.nil_append, List.append_nil] using heach

/-- A no-break space behind a run closes a block for the walk, not for the scan, and the line
that does close it gets a tag. Without it the block is kept. -/
theorem code_of_repaired_noBreakSpace :
    let odd : Text := "```js\na\n```\u00a0\n```\n".toList
    let plain : Text := "```\r\n<5\r\n\t```\t\r\n```js\n```\n".toList
    ({} : Options).ruleList = Builtin.rules ∧ ({} : Options).keepCode = true ∧
      (¬ ∀ pre span post, segment odd = pre ++ span :: post →
        Kept (reassemble pre) span (reassemble post)) ∧
      Ordinary plain ∧
      List.Forall₂ SameCode (codes (segment plain)) (codes (segment (repair {} plain).text)) := by
  have hplain : Ordinary "```\r\n<5\r\n\t```\t\r\n```js\n```\n".toList := by decide +kernel
  refine ⟨rfl, rfl, fun h => ?_, hplain, (code_of_repaired {} _ rfl rfl).2 hplain⟩
  have hsame := (code_of_repaired {} _ rfl rfl).1.mpr fun _ => h
  have hlen := hsame.length_eq
  revert hlen
  decide +kernel

end MdxMend
