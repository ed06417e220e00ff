import MdxMend.Code.Language
import MdxMend.Proofs.Lines
import Mathlib.Data.List.TakeWhile

/-!
# Which tags stay

The tag that `resolve?` gives is one of two, and neither of them would be
replaced again. And a tag with an ampersand or a backtick in it stays: no entry of
the tables has one, and neither trimming nor lower case can take it away. So
escaping never makes a tag one that has to be replaced, and a tag that is
replaced begins no code.
-/

namespace MdxMend

theorem Text.isEmpty_trim (t : Text) : (trim t).isEmpty = t.all isBlank := by
  rw [Bool.eq_iff_iff, List.isEmpty_iff, List.all_eq_true, trim, dropEndWhile,
    List.reverse_eq_nil_iff, List.dropWhile_eq_nil_iff]
  simp only [List.mem_reverse]
  constructor
  · intro h c hc
    rw [← List.takeWhile_append_dropWhile (p := isBlank) (l := t)] at hc
    rcases List.mem_append.mp hc with hc | hc
    · exact of_mem_takeWhile c hc
    · exact h c hc
  · exact fun h c hc => h c ((List.dropWhile_sublist _).mem hc)

theorem Text.trim_concat {c : Char} (hc : isBlank c = true) (t : Text) :
    trim (t ++ [c]) = trim t := by
  rw [trim, trim, List.dropWhile_append]
  split
  · next h =>
      rw [List.isEmpty_iff] at h
      rw [h, List.dropWhile_cons_of_pos hc]
      rfl
  · rw [dropEndWhile, dropEndWhile, List.reverse_concat, List.dropWhile_cons_of_pos hc]

namespace Language

open Text

/-- Whether the rule on fences leaves the tag as it is. -/
def Stays (tag : Text) : Prop := resolve? tag = none

instance (tag : Text) : Decidable (Stays tag) := inferInstanceAs (Decidable (_ = none))

theorem stays_concat {c : Char} (hc : isBlank c = true) (tag : Text) :
    Stays (tag ++ [c]) ↔ Stays tag := by
  have hnormalize : normalize (tag ++ [c]) = normalize tag := by
    rw [normalize, trim_concat hc, normalize]
  rw [Stays, Stays, resolve?, resolve?, isKnown, isKnown, hnormalize]

theorem resolve?_eq_some {tag : Text} {language : String} (h : resolve? tag = some language) :
    language = "text" ∨ language = "markdown" := by
  unfold resolve? at h
  split at h
  · cases h
  · split at h
    · exact .inl (Option.some.inj h).symm
    · have hmem : ∀ p ∈ substitutes, p.2 = "text" ∨ p.2 = "markdown" := by decide
      rw [List.lookup_eq_some_iff] at h
      obtain ⟨l₁, l₂, heq, -⟩ := h
      exact hmem (normalize tag, language) (by rw [heq]; simp)

theorem stays_of_resolve? {tag : Text} {language : String} (h : resolve? tag = some language) :
    Stays language.toList := by
  rcases resolve?_eq_some h with rfl | rfl <;> decide +kernel

theorem mem_dropWhile {p : Char → Bool} {c : Char} (hc : p c = false) {t : Text} (h : c ∈ t) :
    c ∈ t.dropWhile p := by
  induction t with
  | nil => exact h
  | cons d t ih =>
      rw [List.dropWhile_cons]
      split
      · next hd =>
          refine ih ((List.mem_cons.mp h).resolve_left ?_)
          intro heq
          subst heq
          rw [hc] at hd
          cases hd
      · exact h

theorem mem_trim {c : Char} (hc : isBlank c = false) {t : Text} (h : c ∈ t) : c ∈ trim t := by
  rw [trim, dropEndWhile, List.mem_reverse]
  exact mem_dropWhile hc (List.mem_reverse.mpr (mem_dropWhile hc h))

theorem mem_lowercase {c : Char} (hc : smallLetter c = c) (hsigma : (c == 'Σ') = false)
    (hdot : (c == 'İ') = false) {t : Text} (h : c ∈ t) : c ∈ lowercase t := by
  have hafter : ∀ before, c ∈ lowercaseAfter before t := by
    induction t with
    | nil => cases h
    | cons d t ih =>
        intro before
        rw [lowercaseAfter, List.mem_append]
        rcases List.mem_cons.mp h with rfl | h
        · simp [hsigma, hdot, hc]
        · exact .inr (ih h _)
  exact hafter []

/-- No entry of the tables has an ampersand or a backtick in it. -/
theorem stays_of_mem {c : Char} (hc : c = '&' ∨ c = '\x60') {tag : Text} (h : c ∈ tag) :
    Stays tag := by
  have hkeep : isBlank c = false ∧ smallLetter c = c ∧ (c == 'Σ') = false ∧ (c == 'İ') = false ∧
      ∀ p ∈ substitutes, c ∉ p.1.toList := by
    rcases hc with rfl | rfl <;> decide +kernel
  obtain ⟨hblank, hsmall, hsigma, hdot, hsub⟩ := hkeep
  have hmem : c ∈ (normalize tag).toList := by
    rw [normalize, String.toList_ofList]
    exact mem_lowercase hsmall hsigma hdot (mem_trim hblank h)
  unfold Stays resolve?
  split
  · rfl
  · split
    · next hempty =>
        rw [String.isEmpty_iff] at hempty
        rw [hempty] at hmem
        simp at hmem
    · rw [List.lookup_eq_none_iff]
      intro p hp
      rw [bne_iff_ne]
      intro heq
      exact hsub p hp (heq ▸ hmem)

end Language

end MdxMend
