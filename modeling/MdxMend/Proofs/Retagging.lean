import MdxMend.Proofs.FencePhase
import MdxMend.Proofs.ProsePhase
import MdxMend.Proofs.Tallies

/-!
# What the rule on fences touches

The rule on fences gives some lines another tag and leaves everything else as it stands. Which lines
these are is told by the walk over the lines: while a fence is open no line changes, and only a line
that closes it ends that. So behind a line that has changed, which opens a fence, the next one to
change comes after a line that closes this fence (`closed_before`).
-/

namespace MdxMend

open Text Builtin

/-- A fence line with another tag. -/
def FenceLine.textWith (f : FenceLine) (tag : Text) : Text :=
  f.indent ++ (List.replicate f.count f.mark ++ (tag ++ f.eol))

variable {l : Text} {ls : List Text}

theorem FenceLine.retagged_cases (f : FenceLine) :
    f.retagged.text = f.text ∨
      ∃ language, Language.resolve? f.tag = some language ∧
        f.retagged.text = f.textWith language.toList := by
  unfold retagged
  split
  · exact .inl rfl
  · next language h => exact .inr ⟨language, h, rfl⟩

/-- One step of the walk: a line stays, or it opens a fence and its tag is replaced. -/
theorem retag_cases (hl : IsLine l ∨ '\n' ∉ l) (open? : Option Fence) :
    (retag open? l).1 = l ∨
      open? = none ∧ ∃ (f : FenceLine) (language : String), l = f.text ∧
        Language.resolve? f.tag = some language ∧
        retag open? l = (f.textWith language.toList, some f.fence) := by
  rcases hl with hl | hl
  · by_cases hfence : ∃ f : FenceLine, l = f.text
    · obtain ⟨f, rfl⟩ := hfence
      cases open? with
      | none =>
          rw [retag_none]
          rcases f.retagged_cases with hsame | ⟨language, hresolve, hnew⟩
          · exact .inl hsame
          · exact .inr ⟨rfl, f, language, rfl, hresolve, by rw [hnew]⟩
      | some g => exact .inl (by rw [retag_some])
    · exact .inl (by rw [retag_other hl fun f hf => hfence ⟨f, hf⟩])
  · exact .inl (by rw [retag_last hl])

/-- One step of the walk with a fence open: it stays open unless the line closes it. -/
theorem retag_open_cases (hl : IsLine l ∨ '\n' ∉ l) (g : Fence) :
    (retag (some g) l).1 = l ∧
      ((retag (some g) l).2 = some g ∨ ∃ c : FenceLine, l = c.text ∧ c.Closes g) := by
  rcases hl with hl | hl
  · by_cases hfence : ∃ c : FenceLine, l = c.text
    · obtain ⟨c, rfl⟩ := hfence
      rw [retag_some]
      by_cases hcloses : c.Closes g
      · exact ⟨rfl, .inr ⟨c, rfl, hcloses⟩⟩
      · exact ⟨rfl, .inl (if_neg hcloses)⟩
    · rw [retag_other hl fun f hf => hfence ⟨f, hf⟩]
      exact ⟨rfl, .inl rfl⟩
  · rw [retag_last hl]
    exact ⟨rfl, .inl rfl⟩

theorem Text.Lined.head (h : Lined (l :: ls)) : (IsLine l ∨ '\n' ∉ l) ∧ Lined ls := by
  cases h with
  | last _ hl => exact ⟨.inr hl, .nil⟩
  | line hl hls => exact ⟨.inl hl, hls⟩

/-- What the walk does to a line that changes. -/
theorem tag_replaced (hls : Lined ls) (open? : Option Fence) (i : Nat)
    (h : (retagLines open? ls)[i]? ≠ ls[i]?) :
    ∃ (f : FenceLine) (language : String), ls[i]? = some f.text ∧
      Language.resolve? f.tag = some language ∧
      (retagLines open? ls)[i]? = some (f.textWith language.toList) := by
  induction ls generalizing open? i with
  | nil => exact absurd rfl h
  | cons l ls ih =>
      obtain ⟨hl, hrest⟩ := hls.head
      cases i with
      | zero =>
          rcases retag_cases hl open? with hsame | ⟨-, f, language, rfl, hresolve, hnew⟩
          · exact absurd (congrArg some hsame) h
          · exact ⟨f, language, rfl, hresolve, by rw [retagLines, hnew]; rfl⟩
      | succ i => exact ih hrest _ i h

/-- With a fence open, a line that closes it comes before any line that changes. -/
theorem closed_before (hls : Lined ls) (g : Fence) {j : Nat}
    (h : (retagLines (some g) ls)[j]? ≠ ls[j]?) :
    ∃ k, k < j ∧ (retagLines (some g) ls)[k]? = ls[k]? ∧
      ∃ c : FenceLine, ls[k]? = some c.text ∧ c.Closes g := by
  induction ls generalizing j with
  | nil => exact absurd rfl h
  | cons l ls ih =>
      obtain ⟨hl, hrest⟩ := hls.head
      obtain ⟨hsame, hnext⟩ := retag_open_cases hl g
      cases j with
      | zero => exact absurd (congrArg some hsame) h
      | succ j =>
          rcases hnext with hopen | ⟨c, hc, hcloses⟩
          · rw [retagLines, hopen, List.getElem?_cons_succ, List.getElem?_cons_succ] at h
            obtain ⟨k, hk, hkept, hclose⟩ := ih hrest h
            refine ⟨k + 1, by omega, ?_, hclose⟩
            rw [retagLines, hopen]
            exact hkept
          · exact ⟨0, by omega, congrArg some hsame, c, congrArg some hc, hcloses⟩

/-- Between two lines that change there is one that does not and closes the fence of the first. -/
theorem closed_between (hls : Lined ls) (open? : Option Fence) {i j : Nat} (hij : i < j)
    (hi : (retagLines open? ls)[i]? ≠ ls[i]?) (hj : (retagLines open? ls)[j]? ≠ ls[j]?) :
    ∃ k, i < k ∧ k < j ∧ (retagLines open? ls)[k]? = ls[k]? ∧
      ∃ f c : FenceLine, ls[i]? = some f.text ∧ ls[k]? = some c.text ∧ c.Closes f.fence := by
  induction ls generalizing open? i j with
  | nil => exact absurd rfl hi
  | cons l ls ih =>
      obtain ⟨hl, hrest⟩ := hls.head
      obtain ⟨j, rfl⟩ : ∃ j', j = j' + 1 := ⟨j - 1, by omega⟩
      rw [retagLines, List.getElem?_cons_succ, List.getElem?_cons_succ] at hj
      cases i with
      | zero =>
          -- The first line opens a fence, so the other one is behind a line that closes it.
          rcases retag_cases hl open? with hsame | ⟨-, f, language, rfl, -, hnew⟩
          · exact absurd (congrArg some hsame) hi
          · simp only [hnew] at hj
            obtain ⟨k, hk, hkept, c, hc, hcloses⟩ := closed_before hrest f.fence hj
            refine ⟨k + 1, by omega, by omega, ?_, f, c, rfl, hc, hcloses⟩
            rw [retagLines, hnew]
            exact hkept
      | succ i =>
          obtain ⟨k, hik, hkj, hkept⟩ := ih hrest _ (Nat.lt_of_succ_lt_succ hij) hi hj
          exact ⟨k + 1, by omega, by omega, hkept⟩

/-- The rule on fences replaces tags of fence lines and nothing else: no line comes or goes, a line
that changes keeps its indent, its marks and its line break and takes the tag that its own tag
resolves to, the next one to change comes behind a line that closes the fence of the one before, and
what is counted are the lines that changed. -/
theorem normalizeLanguage_retags (t : Text) :
    let p := applyRules [normalizeLanguage] { text := t }
    let before := lines t
    let after := lines p.text
    after.length = before.length ∧
      (∀ i : Nat, after[i]? = before[i]? ∨ ∃ (f : FenceLine) (language : String),
        before[i]? = some f.text ∧ Language.resolve? f.tag = some language ∧
          after[i]? = some (f.textWith language.toList)) ∧
      (∀ i j : Nat, i < j → after[i]? ≠ before[i]? → after[j]? ≠ before[j]? →
        ∃ k, i < k ∧ k < j ∧ after[k]? = before[k]? ∧ ∃ f c : FenceLine,
          before[i]? = some f.text ∧ before[k]? = some c.text ∧ c.Closes f.fence) ∧
      p.tally.total = changed before after ∧
      p.tally.count normalizeLanguage.name = changed before after := by
  intro p before after
  have hlined := lined_lines t
  have hp : p = ⟨(retagLines none before).flatten,
      Tally.empty.record normalizeLanguage.name (changed before (retagLines none before)), []⟩ :=
    apply_normalizeLanguage { text := t }
  have hafter : after = retagLines none before := by
    show lines p.text = _
    rw [hp, (lined_retagLines hlined none).lines_flatten]
  rw [hp, hafter]
  refine ⟨length_retagLines none before, fun i => ?_, fun i j => closed_between hlined none, ?_, ?_⟩
  · exact Decidable.or_iff_not_imp_left.mpr (tag_replaced hlined none i)
  · rw [Tally.total_record]
    exact Nat.zero_add _
  · have hcount := Tally.sound_empty.count_record normalizeLanguage.name
      (changed before (retagLines none before)) normalizeLanguage.name
    rw [if_pos rfl] at hcount
    exact hcount.trans (Nat.zero_add _)

/-! ## A second time -/

theorem take_retagLines (open? : Option Fence) (ls : List Text) (n : Nat) :
    (retagLines open? ls).take n = retagLines open? (ls.take n) := by
  induction ls generalizing open? n with
  | nil => simp [retagLines]
  | cons l ls ih =>
      cases n with
      | zero => rfl
      | succ n => rw [retagLines, List.take_succ_cons, ih, List.take_succ_cons, retagLines]

theorem Text.Lined.take {ls : List Text} (h : Lined ls) (n : Nat) : Lined (ls.take n) := by
  induction h generalizing n with
  | nil =>
      rw [List.take_nil]
      exact .nil
  | last hne hx =>
      cases n with
      | zero => exact .nil
      | succ n =>
          rw [List.take_succ_cons, List.take_nil]
          exact .last hne hx
  | line hl _ ih =>
      cases n with
      | zero => exact .nil
      | succ n => exact .line hl (ih n)

/-- The rule on fences has nothing to do in what it has left: it finds no fix there and gives the
text back as it is, with nothing counted and nothing logged. In front of every line the same fence
is open as before, so what opened a block opens it still and what closed one closes it. -/
theorem normalizeLanguage_again (t : Text) :
    let once := (applyRules [normalizeLanguage] { text := t }).text
    normalizeLanguage.pass once = .ok none ∧
      (∀ tally log, applyRules [normalizeLanguage] ⟨once, tally, log⟩ = ⟨once, tally, log⟩) ∧
      ∀ n, trackLines none ((lines once).take n) = trackLines none ((lines t).take n) := by
  intro once
  have hlined := lined_lines t
  have honce : once = (retagLines none (lines t)).flatten :=
    congrArg Progress.text (apply_normalizeLanguage { text := t })
  have hlines : lines once = retagLines none (lines t) := by
    rw [honce, (lined_retagLines hlined none).lines_flatten]
  have hsame : retagLines none (lines once) = lines once := by
    rw [hlines, retagLines_retagLines hlined]
  have hnone : changed (lines once) (retagLines none (lines once)) = 0 :=
    (changed_eq_zero (length_retagLines _ _)).mpr hsame
  have hpass : normalizeLanguage.pass once = .ok none := by
    rw [pass_normalizeLanguage, if_pos hnone]
  refine ⟨hpass, fun tally log => ?_, fun n => ?_⟩
  · show normalizeLanguage.apply ⟨once, tally, log⟩ = _
    rw [Rule.apply, hpass]
  · rw [hlines, take_retagLines, trackLines_retagLines (hlined.take n)]

end MdxMend
