import MdxMend.Proofs.Grammar
import Mathlib.Data.List.Chain

/-!
# Prose and code take turns

`joinProse` is why no stretch of prose is followed by another: whatever the scan
leaves as prose goes in front of the spans behind it and joins the prose they
start with. That no code is followed by code is less obvious, because a run
behind code could open code again. It cannot: a closing fence has only blanks
behind it, inline code ends with a whole run of backticks, and the tildes that
may follow that one open nothing, for they are not the first on their line.

With the turns known, `paste` can be told from its arguments. Prose at the end of
the first list joins what the second one starts with, and nothing else happens
(`paste_append_prose`).
-/

namespace MdxMend

open Text

/-- Spans of which none is empty and no two neighbours are of one kind. -/
structure Alternating (spans : List Span) : Prop where
  content_ne_nil : ∀ span ∈ spans, span.content ≠ []
  turns : spans.IsChain fun x y => x.isCode ≠ y.isCode

namespace Alternating

variable {spans : List Span}

theorem nil : Alternating [] := ⟨fun _ h => absurd h List.not_mem_nil, .nil⟩

theorem cons {span : Span} (hne : span.content ≠ [])
    (hturn : ∀ next ∈ spans.head?, span.isCode ≠ next.isCode) (h : Alternating spans) :
    Alternating (span :: spans) := by
  refine ⟨fun s hs => ?_, ?_⟩
  · rcases List.mem_cons.mp hs with rfl | hs
    · exact hne
    · exact h.content_ne_nil s hs
  · cases spans with
    | nil => exact .singleton span
    | cons next spans => exact .cons_cons (hturn next rfl) h.turns

theorem of_cons {span : Span} (h : Alternating (span :: spans)) : Alternating spans :=
  ⟨fun s hs => h.content_ne_nil s (List.mem_cons_of_mem span hs), h.turns.tail⟩

theorem joinProse {t : Text} (hne : t ≠ []) (h : Alternating spans) :
    Alternating (joinProse t spans) := by
  rcases spans with _ | ⟨u | u, spans⟩
  · exact nil.cons hne (by simp)
  · refine h.of_cons.cons (by simp [Span.content, hne]) fun next hnext => ?_
    obtain ⟨spans, rfl⟩ := List.head?_eq_some_iff.mp hnext
    exact (List.isChain_cons_cons.mp h.turns).1
  · refine h.cons hne fun next hnext => ?_
    obtain rfl := Option.some.inj hnext
    simp [Span.isCode]

end Alternating

/-! ## What stands behind code -/

theorem Fence.closer?_behind {f : Fence} {line code rest : Text}
    (h : f.closer? line = some (code, rest)) :
    ∀ c ∈ restOfLine rest, isClosingBlank c = true := by
  unfold closer? at h
  simp only [] at h
  split at h
  · next hclosing =>
      simp only [Option.some.injEq, Prod.mk.injEq] at h
      rw [Bool.and_eq_true, List.all_eq_true, h.2] at hclosing
      exact hclosing.2
  · cases h

theorem Fence.block?_behind {f : Fence} {s code rest : Text}
    (h : f.block? s = some (code, rest)) :
    ∀ c ∈ restOfLine rest, isClosingBlank c = true := by
  induction s generalizing code rest with
  | nil => cases h
  | cons c s ih =>
      simp only [block?, Option.map_eq_some_iff, Option.or_eq_some_iff] at h
      obtain ⟨⟨code', rest'⟩, h, heq⟩ := h
      simp only [Prod.mk.injEq] at heq
      obtain ⟨-, rfl⟩ := heq
      rcases h with h | ⟨-, h⟩
      · split at h
        · exact closer?_behind h
        · cases h
      · exact ih h

theorem codeAfter?_behind {atIndent : Bool} {c : Char} {k : Nat} (hk : 0 < k)
    {s code rest : Text} (h : codeAfter? atIndent c k s = some (code, rest)) :
    rest.head? ≠ some backtick := by
  unfold codeAfter? at h
  split at h
  · intro hhead
    obtain ⟨rest, rfl⟩ := List.head?_eq_some_iff.mp hhead
    exact absurd (Fence.block?_behind h backtick (by simp [restOfLine, backtick])) (by decide)
  · split at h
    · obtain ⟨inner, -, -, hmax, -⟩ := inlineCode?_fits hk h
      exact hmax.back
    · cases h

theorem head?_joinProse (t : Text) (spans : List Span) :
    ∀ span ∈ (joinProse t spans).head?, span.isCode = false := by
  intro span h
  rcases spans with _ | ⟨_ | _, spans⟩ <;>
  · obtain rfl := Option.some.inj h
    rfl

/-- Where a line has begun and no backtick stands, prose begins: tildes open a
block at the head of a line only. -/
theorem head?_segmentFrom {s : Text} (hs : s.head? ≠ some backtick) :
    ∀ span ∈ (segmentFrom false s).head?, span.isCode = false := by
  cases s with
  | nil =>
      rw [segmentFrom_nil]
      exact fun span h => absurd h (by simp)
  | cons c s =>
      cases hc : isMark c with
      | false =>
          rw [segmentFrom_other hc]
          exact head?_joinProse _ _
      | true =>
          obtain ⟨k, after, hk, hafter, hsplit, -⟩ := exists_run c s
          have hnone : codeAfter? false c k after = none := by
            have hback : (c == backtick) = false := by simpa using hs
            simp [codeAfter?, Fence.opens, hback]
          rw [hsplit, segmentFrom_run hc hk hafter, hnone]
          exact head?_joinProse _ _

/-! ## The scan -/

theorem alternating_segmentFrom (atIndent : Bool) (s : Text) :
    Alternating (segmentFrom atIndent s) := by
  induction atIndent, s using segment_induction with
  | nil atIndent =>
      rw [segmentFrom_nil]
      exact .nil
  | other atIndent c s hc ih =>
      rw [segmentFrom_other hc]
      exact ih.joinProse (by simp)
  | code atIndent c k s code rest hc hk hs h ih =>
      rw [segmentFrom_run hc hk hs, h]
      -- Behind code the scan goes on within a line, and not at a backtick.
      refine ih.cons ?_ fun next hnext => ?_
      · simp [Span.content, Nat.ne_of_gt hk]
      · rw [head?_segmentFrom (codeAfter?_behind hk h) next hnext]
        simp [Span.isCode]
  | left atIndent c k s hc hk hs h ih =>
      rw [segmentFrom_run hc hk hs, h]
      exact ih.joinProse (by simp [Nat.ne_of_gt hk])

/-- The spans of a document are the document, none of them is empty, and prose and
code take turns; so only the empty document has none. -/
theorem segment_alternating (t : Text) :
    reassemble (segment t) = t ∧ (∀ span ∈ segment t, span.content ≠ []) ∧
      (segment t = [] ↔ t = []) ∧ (segment t).IsChain fun x y => x.isCode ≠ y.isCode := by
  have h := alternating_segmentFrom true t
  refine ⟨reassemble_segment t, h.content_ne_nil, ⟨fun hnil => ?_, ?_⟩, h.turns⟩
  · rw [← reassemble_segment t, hnil, reassemble_nil]
  · rintro rfl
    exact segment_nil

/-- Inline code, tildes right behind it that open nothing, and a block. -/
example : segment "`a`~~~\n~~~\n~~~ \n`".toList =
    [.code "`a`".toList, .prose "~~~\n".toList, .code "~~~\n~~~".toList, .prose " \n`".toList] := by
  decide +kernel

/-! ## Spans put end to end -/

theorem paste_append_prose {xs : List Span} {u : Text} (h : Alternating (xs ++ [.prose u]))
    (ys : List Span) : paste (xs ++ [.prose u]) ys = xs ++ joinProse u ys := by
  induction xs with
  | nil => rfl
  | cons x xs ih =>
      rw [List.cons_append] at h ⊢
      have hrest := ih h.of_cons
      cases x with
      | code t => rw [paste_code, hrest, List.cons_append]
      | prose t =>
          cases xs with
          | nil => exact absurd rfl (List.isChain_cons_cons.mp h.turns).1
          | cons x xs =>
              cases x with
              | prose v => exact absurd rfl (List.isChain_cons_cons.mp h.turns).1
              | code v =>
                  rw [paste_prose, hrest, List.cons_append, joinProse_code]
                  rfl

end MdxMend
