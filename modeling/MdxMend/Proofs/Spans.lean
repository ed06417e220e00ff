import MdxMend.Code.Span
import MdxMend.Proofs.Closing

/-!
# A document is its spans

The scanner reads whole runs of marks, and its equations are stated for them
here, with the induction that goes with them; nothing later has to open its
definition. Every reading function splits what it is given, so nothing is lost:
`reassemble_segment`. With that, a place in a document can be named by the
spans around it, and `Each` is how properties of spans are stated here: each
span is looked at together with the text in front of it and the text behind.

`paste` puts two lists of spans end to end, where prose that meets prose
becomes one span. It is what cutting a document at a line break comes to.
-/

namespace MdxMend

open Text

/-! ## The scan, run by run -/

theorem inlineCode?_newline (n : Nat) (s : Text) : inlineCode? n ('\n' :: s) = none := by
  rw [inlineCode?]
  simp

theorem inlineCode?_other {c : Char} (hnl : c ≠ '\n') (hc : c ≠ backtick) (n : Nat)
    (s : Text) :
    inlineCode? n (c :: s) = (inlineCode? n s).map fun (code, rest) => (c :: code, rest) := by
  rw [inlineCode?]
  simp [hnl, hc]

theorem inlineCode?_run {k : Nat} (hk : 0 < k) {s : Text} (hs : s.head? ≠ some backtick)
    (n : Nat) :
    inlineCode? n (List.replicate k backtick ++ s) =
      if k = n then some (List.replicate k backtick, s)
      else (inlineCode? n s).map fun (code, rest) =>
        (List.replicate k backtick ++ code, rest) := by
  obtain ⟨j, rfl⟩ : ∃ j, k = j + 1 := ⟨k - 1, by omega⟩
  rw [List.replicate_succ, List.cons_append, inlineCode?]
  simp only [takeWhile_run hs, dropWhile_run hs]
  simp [show (backtick == '\n') = false by decide]

theorem segmentFrom_nil (atIndent : Bool) : segmentFrom atIndent [] = [] := by
  rw [segmentFrom]

theorem segment_nil : segment [] = [] := segmentFrom_nil true

theorem segmentFrom_other {c : Char} (hc : isMark c = false) (atIndent : Bool) (s : Text) :
    segmentFrom atIndent (c :: s) =
      joinProse [c] (segmentFrom (c == '\n' || (atIndent && isIndent c)) s) := by
  rw [segmentFrom, if_neg (by simp [hc])]

theorem segmentFrom_run {c : Char} (hc : isMark c = true) {k : Nat} (hk : 0 < k)
    {s : Text} (hs : s.head? ≠ some c) (atIndent : Bool) :
    segmentFrom atIndent (List.replicate k c ++ s) =
      match codeAfter? atIndent c k s with
      | some (code, rest) => .code (List.replicate k c ++ code) :: segmentFrom false rest
      | none => joinProse (List.replicate k c) (segmentFrom false s) := by
  obtain ⟨j, rfl⟩ : ∃ j, k = j + 1 := ⟨k - 1, by omega⟩
  rw [List.replicate_succ, List.cons_append, segmentFrom, if_pos hc]
  simp only []
  split
  · next code rest h =>
      rw [takeWhile_run hs, dropWhile_run hs, List.length_cons, List.length_replicate] at h
      rw [h, takeWhile_run hs]
  · next h =>
      rw [takeWhile_run hs, dropWhile_run hs, List.length_cons, List.length_replicate] at h
      rw [h, takeWhile_run hs, dropWhile_run hs]

/-- The induction that follows the scan: over a character that is no mark, over a
run with the code it opens, and over a run that opens nothing. -/
theorem segment_induction {motive : Bool → Text → Prop}
    (nil : ∀ atIndent, motive atIndent [])
    (other : ∀ atIndent c s, isMark c = false →
      motive (c == '\n' || (atIndent && isIndent c)) s → motive atIndent (c :: s))
    (code : ∀ atIndent c k s code rest, isMark c = true → 0 < k → s.head? ≠ some c →
      codeAfter? atIndent c k s = some (code, rest) → motive false rest →
      motive atIndent (List.replicate k c ++ s))
    (left : ∀ atIndent c k s, isMark c = true → 0 < k → s.head? ≠ some c →
      codeAfter? atIndent c k s = none → motive false s →
      motive atIndent (List.replicate k c ++ s)) :
    ∀ atIndent t, motive atIndent t := by
  intro atIndent t
  induction hlen : t.length using Nat.strongRecOn generalizing atIndent t with
  | ind n ih =>
      subst hlen
      cases t with
      | nil => exact nil atIndent
      | cons c s =>
          cases hc : isMark c with
          | false =>
              exact other atIndent c s hc (ih s.length (by rw [List.length_cons]; omega) _ s rfl)
          | true =>
              obtain ⟨k, after, hk, hafter, hsplit, hle⟩ := exists_run c s
              rw [hsplit]
              cases h : codeAfter? atIndent c k after with
              | none =>
                  exact left atIndent c k after hc hk hafter h
                    (ih after.length (by rw [List.length_cons]; omega) _ after rfl)
              | some found =>
                  have hrest := codeAfter?_length h
                  exact code atIndent c k after _ _ hc hk hafter h
                    (ih found.2.length (by rw [List.length_cons]; omega) _ found.2 rfl)

/-! ## Nothing is lost -/

theorem Fence.closer?_split {f : Fence} {line code rest : Text}
    (h : f.closer? line = some (code, rest)) : line = code ++ rest := by
  unfold closer? at h
  simp only [] at h
  split at h
  · simp only [Option.some.injEq, Prod.mk.injEq] at h
    obtain ⟨rfl, rfl⟩ := h
    rw [List.append_assoc, List.takeWhile_append_dropWhile, List.takeWhile_append_dropWhile]
  · cases h

theorem Fence.block?_split {f : Fence} {s code rest : Text}
    (h : f.block? s = some (code, rest)) : s = code ++ rest := by
  induction s generalizing code rest with
  | nil => cases h
  | cons c s ih =>
      simp only [block?, Option.map_eq_some_iff, Option.or_eq_some_iff] at h
      obtain ⟨⟨code', rest'⟩, h, heq⟩ := h
      simp only [Prod.mk.injEq] at heq
      obtain ⟨rfl, rfl⟩ := heq
      rcases h with h | ⟨-, h⟩
      · split at h
        · rw [closer?_split h, List.cons_append]
        · cases h
      · rw [ih h, List.cons_append]

theorem inlineCode?_split {n : Nat} {s code rest : Text}
    (h : inlineCode? n s = some (code, rest)) : s = code ++ rest := by
  induction s using run_induction backtick generalizing code rest with
  | nil =>
      rw [inlineCode?] at h
      cases h
  | other c s hc ih =>
      by_cases hnl : c = '\n'
      · rw [hnl, inlineCode?_newline] at h
        cases h
      · rw [inlineCode?_other hnl hc] at h
        simp only [Option.map_eq_some_iff, Prod.exists, Prod.mk.injEq] at h
        obtain ⟨code', rest', h, rfl, rfl⟩ := h
        rw [List.cons_append, ← ih h]
  | run k s hk hs ih =>
      rw [inlineCode?_run hk hs] at h
      split at h
      · simp only [Option.some.injEq, Prod.mk.injEq] at h
        obtain ⟨rfl, rfl⟩ := h
        rfl
      · simp only [Option.map_eq_some_iff, Prod.exists, Prod.mk.injEq] at h
        obtain ⟨code', rest', h, rfl, rfl⟩ := h
        rw [List.append_assoc, ← ih h]

theorem codeAfter?_split {atIndent : Bool} {mark : Char} {n : Nat}
    {after code rest : Text}
    (h : codeAfter? atIndent mark n after = some (code, rest)) : after = code ++ rest := by
  unfold codeAfter? at h
  split at h
  · exact Fence.block?_split h
  · split at h
    · exact inlineCode?_split h
    · cases h

@[simp] theorem reassemble_nil : reassemble [] = [] := rfl

@[simp] theorem reassemble_cons (span : Span) (spans : List Span) :
    reassemble (span :: spans) = span.content ++ reassemble spans := rfl

@[simp] theorem reassemble_append (xs ys : List Span) :
    reassemble (xs ++ ys) = reassemble xs ++ reassemble ys := by
  simp [reassemble]

@[simp] theorem joinProse_nil (t : Text) : joinProse t [] = [.prose t] := rfl

@[simp] theorem joinProse_prose (t u : Text) (spans : List Span) :
    joinProse t (.prose u :: spans) = .prose (t ++ u) :: spans := rfl

@[simp] theorem joinProse_code (t u : Text) (spans : List Span) :
    joinProse t (.code u :: spans) = .prose t :: .code u :: spans := rfl

@[simp] theorem reassemble_joinProse (t : Text) (spans : List Span) :
    reassemble (joinProse t spans) = t ++ reassemble spans := by
  rcases spans with _ | ⟨_ | _, spans⟩ <;> simp [Span.content]

theorem reassemble_segmentFrom (atIndent : Bool) (s : Text) :
    reassemble (segmentFrom atIndent s) = s := by
  induction atIndent, s using segment_induction with
  | nil atIndent =>
      rw [segmentFrom_nil]
      rfl
  | other atIndent c s hc ih => rw [segmentFrom_other hc, reassemble_joinProse, ih]; rfl
  | code atIndent c k s code rest hc hk hs h ih =>
      rw [segmentFrom_run hc hk hs, h]
      simp only []
      rw [reassemble_cons, ih, Span.content, List.append_assoc, ← codeAfter?_split h]
  | left atIndent c k s hc hk hs h ih =>
      rw [segmentFrom_run hc hk hs, h]
      simp only []
      rw [reassemble_joinProse, ih]

/-- The spans of a document, one after the other, are the document. -/
@[simp] theorem reassemble_segment (t : Text) : reassemble (segment t) = t :=
  reassemble_segmentFrom true t

/-! ## Spans in their places -/

/-- `P` holds of every span, given the text in front of it and behind it, where
the spans themselves stand between `before` and `after`. -/
def Each (P : Text → Span → Text → Prop) : Text → List Span → Text → Prop
  | _, [], _ => True
  | before, span :: spans, after =>
    P before span (reassemble spans ++ after) ∧ Each P (before ++ span.content) spans after

theorem each_iff {P : Text → Span → Text → Prop} {before after : Text}
    {spans : List Span} :
    Each P before spans after ↔
      ∀ pre span post, spans = pre ++ span :: post →
        P (before ++ reassemble pre) span (reassemble post ++ after) := by
  induction spans generalizing before with
  | nil => simp [Each]
  | cons head spans ih =>
      rw [Each, ih]
      constructor
      · intro hboth pre span post heq
        obtain ⟨hhead, hspans⟩ := hboth
        cases pre with
        | nil =>
            obtain ⟨rfl, rfl⟩ := List.cons.inj heq
            simpa using hhead
        | cons _ pre =>
            obtain ⟨rfl, htail⟩ := List.cons.inj heq
            have := hspans pre span post htail
            rwa [List.append_assoc, ← reassemble_cons] at this
      · intro h
        refine ⟨by simpa using h [] head spans rfl, fun pre span post heq => ?_⟩
        have := h (head :: pre) span post (by rw [heq, List.cons_append])
        rwa [reassemble_cons, ← List.append_assoc] at this

/-! ## Prose in front of spans -/

@[simp] theorem joinProse_joinProse (t u : Text) (spans : List Span) :
    joinProse t (joinProse u spans) = joinProse (t ++ u) spans := by
  rcases spans with _ | ⟨_ | _, spans⟩ <;> simp

/-- Puts a span in front of others. -/
def Span.glue : Span → List Span → List Span
  | .prose t => joinProse t
  | .code t => (.code t :: ·)

/-- The spans of two stretches of a document that follow each other. -/
def paste (xs ys : List Span) : List Span := xs.foldr Span.glue ys

@[simp] theorem paste_nil (ys : List Span) : paste [] ys = ys := rfl

@[simp] theorem paste_code (t : Text) (xs ys : List Span) :
    paste (.code t :: xs) ys = .code t :: paste xs ys := rfl

@[simp] theorem paste_prose (t : Text) (xs ys : List Span) :
    paste (.prose t :: xs) ys = joinProse t (paste xs ys) := rfl

@[simp] theorem paste_joinProse (t : Text) (xs ys : List Span) :
    paste (joinProse t xs) ys = joinProse t (paste xs ys) := by
  rcases xs with _ | ⟨_ | _, xs⟩ <;> simp

@[simp] theorem reassemble_paste (xs ys : List Span) :
    reassemble (paste xs ys) = reassemble xs ++ reassemble ys := by
  induction xs with
  | nil => rfl
  | cons x xs ih => cases x <;> simp [ih, Span.content]

/-- The code among spans. -/
def codes (spans : List Span) : List Text :=
  (spans.filter Span.isCode).map Span.content

@[simp] theorem codes_nil : codes [] = [] := rfl

@[simp] theorem codes_code (t : Text) (spans : List Span) :
    codes (.code t :: spans) = t :: codes spans := rfl

@[simp] theorem codes_prose (t : Text) (spans : List Span) :
    codes (.prose t :: spans) = codes spans := rfl

@[simp] theorem codes_joinProse (t : Text) (spans : List Span) :
    codes (joinProse t spans) = codes spans := by
  rcases spans with _ | ⟨_ | _, spans⟩ <;> simp

@[simp] theorem codes_paste (xs ys : List Span) :
    codes (paste xs ys) = codes xs ++ codes ys := by
  induction xs with
  | nil => rfl
  | cons x xs ih => cases x <;> simp [ih]

/-- Prose that is put in front of spans joins the prose they start with, so what
is said of that prose has to carry over to the longer stretch. -/
theorem Each.joinProse {P : Text → Span → Text → Prop} {before t after : Text}
    {spans : List Span}
    (hextend : ∀ p rest, p ++ rest = reassemble spans ++ after →
      P (before ++ t) (.prose p) rest → P before (.prose (t ++ p)) rest)
    (hempty : P (before ++ t) (.prose []) (reassemble spans ++ after))
    (h : Each P (before ++ t) spans after) :
    Each P before (joinProse t spans) after := by
  have halone : P before (.prose t) (reassemble spans ++ after) := by
    simpa using hextend [] _ rfl hempty
  rcases spans with _ | ⟨p | u, spans⟩
  · exact ⟨halone, trivial⟩
  · rw [joinProse_prose]
    refine ⟨hextend p _ ?_ h.1, ?_⟩
    · rw [reassemble_cons, Span.content, List.append_assoc]
    · have hrest := h.2
      rwa [Span.content, List.append_assoc] at hrest
  · exact ⟨halone, h⟩

/-! Most properties are about code alone, and for them it makes no difference
how the prose between is cut.
-/

section OfCode

variable {P : Text → Span → Text → Prop} (hP : ∀ before t after, P before (.prose t) after)

include hP

theorem each_joinProse {before t after : Text} {spans : List Span} :
    Each P before (joinProse t spans) after ↔ Each P (before ++ t) spans after := by
  rcases spans with _ | ⟨_ | _, spans⟩ <;> simp [Each, hP, Span.content]

theorem each_paste {before after : Text} {xs ys : List Span} :
    Each P before (paste xs ys) after ↔
      Each P before xs (reassemble ys ++ after) ∧
        Each P (before ++ reassemble xs) ys after := by
  induction xs generalizing before with
  | nil => simp [Each]
  | cons x xs ih =>
      cases x with
      | prose t => simp [each_joinProse hP, ih, Each, hP, Span.content]
      | code t => simp [ih, Each, Span.content, and_assoc]

end OfCode

end MdxMend
