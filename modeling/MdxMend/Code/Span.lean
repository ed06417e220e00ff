import MdxMend.Code.Fence

/-!
# Spans: a document as code and prose

`segment` cuts a document into spans that alternate between prose and code. It reads from the
front: at a run of marks that opens code the code becomes a span, and every other character, a run
that opens nothing included, joins the prose that it is followed by. What was read before matters
only through one fact, whether the line so far is nothing but indent.
-/

namespace MdxMend

/-- A stretch of a document: prose, which rules may change, or code, which they never see. -/
inductive Span where
  | prose (content : Text)
  | code (content : Text)
deriving DecidableEq, Repr

namespace Span

/-- The characters of a span. -/
def content : Span → Text
  | prose t => t
  | code t => t

/-- Whether a span is code. -/
def isCode : Span → Bool
  | prose _ => false
  | code _ => true

end Span

/-- Puts prose in front of spans, as one span with the prose they start with. -/
def joinProse (t : Text) : List Span → List Span
  | .prose u :: spans => .prose (t ++ u) :: spans
  | spans => .prose t :: spans

namespace Fence

theorem closer?_length {f : Fence} {line code rest : Text}
    (h : f.closer? line = some (code, rest)) : rest.length ≤ line.length := by
  unfold closer? at h
  simp only [] at h
  split at h
  · simp only [Option.some.injEq, Prod.mk.injEq] at h
    have h1 := Text.length_dropWhile_le (· == f.mark) (line.dropWhile Text.isIndent)
    have h2 := Text.length_dropWhile_le Text.isIndent line
    rw [← h.2]
    omega
  · simp at h

theorem block?_length {f : Fence} {s code rest : Text} (h : f.block? s = some (code, rest)) :
    rest.length ≤ s.length := by
  induction s generalizing code rest with
  | nil => simp [block?] at h
  | cons c s ih =>
    simp only [block?, Option.map_eq_some_iff, Option.or_eq_some_iff] at h
    obtain ⟨⟨code', rest'⟩, h, he⟩ := h
    simp only [Prod.mk.injEq] at he
    obtain ⟨_, rfl⟩ := he
    rcases h with h | ⟨_, h⟩
    · split at h
      · have := closer?_length h
        simp only [List.length_cons]
        omega
      · simp at h
    · have := ih h
      simp only [List.length_cons]
      omega

end Fence

theorem inlineCode?_length {n : Nat} {s code rest : Text}
    (h : inlineCode? n s = some (code, rest)) : rest.length ≤ s.length := by
  fun_induction inlineCode? n s generalizing code rest
  case case1 => simp at h
  case case2 => simp at h
  case case3 c s _ _ run after _ =>
    simp only [Option.some.injEq, Prod.mk.injEq] at h
    have h2 : after.length ≤ s.length := Text.length_dropWhile_le _ _
    simp only [List.length_cons]
    rw [← h.2]
    omega
  case case4 c s _ _ run after _ ih =>
    simp only [Option.map_eq_some_iff] at h
    obtain ⟨⟨code', rest'⟩, h, he⟩ := h
    simp only [Prod.mk.injEq] at he
    obtain ⟨_, rfl⟩ := he
    have h1 := ih h
    have h2 : after.length ≤ s.length := Text.length_dropWhile_le _ _
    simp only [List.length_cons]
    omega
  case case5 c s _ _ ih =>
    simp only [Option.map_eq_some_iff] at h
    obtain ⟨⟨code', rest'⟩, h, he⟩ := h
    simp only [Prod.mk.injEq] at he
    obtain ⟨_, rfl⟩ := he
    have h1 := ih h
    simp only [List.length_cons]
    omega

theorem codeAfter?_length {atIndent : Bool} {mark : Char} {n : Nat} {after code rest : Text}
    (h : codeAfter? atIndent mark n after = some (code, rest)) : rest.length ≤ after.length := by
  unfold codeAfter? at h
  split at h
  · exact Fence.block?_length h
  · split at h
    · exact inlineCode?_length h
    · simp at h

/-- The spans of `s`, where `atIndent` tells that only an indent stands before it on its line. -/
def segmentFrom (atIndent : Bool) : Text → List Span
  | [] => []
  | c :: s =>
    if isMark c then
      let run := c :: s.takeWhile (· == c)
      let after := s.dropWhile (· == c)
      match _h : codeAfter? atIndent c run.length after with
      | some (code, rest) => .code (run ++ code) :: segmentFrom false rest
      | none => joinProse run (segmentFrom false after)
    else joinProse [c] (segmentFrom (c == '\n' || (atIndent && Text.isIndent c)) s)
termination_by s => s.length
decreasing_by
  · have h1 := codeAfter?_length _h
    have h2 : after.length ≤ s.length := Text.length_dropWhile_le _ _
    simp only [List.length_cons]
    omega
  · have h2 := Text.length_dropWhile_le (· == c) s
    simp only [List.length_cons]
    omega
  · simp

/-- Cuts a document into spans of prose and code. -/
def segment (t : Text) : List Span := segmentFrom true t

/-- The document that spans make up. -/
def reassemble (spans : List Span) : Text := spans.flatMap Span.content

end MdxMend
