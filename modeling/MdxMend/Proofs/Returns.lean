import MdxMend.Proofs.Spans

/-!
# Carriage returns at the ends of lines

A document may end its lines with a line feed or with a carriage return and a line feed.
`crlf` takes a text from the first form to the second, and this file is about the scan: the
spans of a document in the new form are its spans, each in the new form (`segment_crlf`).

It rests on two facts. A class with neither of the two characters in it is scanned to
the same point, and that is so of indents and of runs. And what looks at the rest of
a line sees one more blank at its end, which may follow a closing fence and is no backtick.
None of this needs to know that the document has no returns of its own.
-/

namespace MdxMend

open Text

namespace Text

/-- The text with a carriage return in front of each line feed. -/
def crlf (t : Text) : Text := t.flatMap fun c => if c = '\n' then ['\r', '\n'] else [c]

@[simp] theorem crlf_nil : crlf [] = [] := rfl

theorem crlf_newline (s : Text) : crlf ('\n' :: s) = '\r' :: '\n' :: crlf s := rfl

theorem crlf_other {c : Char} (hc : c ≠ '\n') (s : Text) : crlf (c :: s) = c :: crlf s := by
  rw [crlf, List.flatMap_cons, if_neg hc]
  rfl

theorem crlf_append (x s : Text) : crlf (x ++ s) = crlf x ++ crlf s := List.flatMap_append

theorem crlf_of_not_mem {x : Text} (hx : '\n' ∉ x) : crlf x = x := by
  induction x with
  | nil => rfl
  | cons c x ih =>
      rw [crlf_other fun h => hx (h ▸ List.mem_cons_self),
        ih fun h => hx (List.mem_cons_of_mem c h)]

theorem crlf_line {x : Text} (hx : '\n' ∉ x) (s : Text) :
    crlf (x ++ '\n' :: s) = x ++ '\r' :: '\n' :: crlf s := by
  rw [crlf_append, crlf_of_not_mem hx, crlf_newline]

theorem head?_crlf_ne_newline (s : Text) : (crlf s).head? ≠ some '\n' := by
  cases s with
  | nil => simp
  | cons c s =>
      by_cases hc : c = '\n'
      · simp [hc, crlf_newline]
      · rw [crlf_other hc]
        simpa using hc

/-- Only a line feed has a new head, and that is a return. -/
theorem head?_crlf {c : Char} (hnl : c ≠ '\n') (hcr : c ≠ '\r') (s : Text) :
    (crlf s).head? = some c ↔ s.head? = some c := by
  cases s with
  | nil => rfl
  | cons d s =>
      by_cases hd : d = '\n'
      · rw [hd, crlf_newline]
        simp only [List.head?_cons, Option.some.injEq]
        exact ⟨fun h => absurd h.symm hcr, fun h => absurd h.symm hnl⟩
      · rw [crlf_other hd]
        rfl

theorem crlf_eq_nil {s : Text} : crlf s = [] ↔ s = [] := by
  cases s with
  | nil => simp
  | cons c s =>
      by_cases hc : c = '\n'
      · simp [hc, crlf_newline]
      · simp [crlf_other hc]

theorem crlf_injective : Function.Injective crlf := by
  -- A return in front of a line feed is the new one: no text in the new form begins with
  -- a line feed.
  have hreturn : ∀ {u v : Text}, '\r' :: '\n' :: u ≠ '\r' :: crlf v := fun heq =>
    head?_crlf_ne_newline _ (congrArg List.head? (List.cons.inj heq).2).symm
  intro s
  induction s with
  | nil => exact fun t h => (crlf_eq_nil.mp h.symm).symm
  | cons c s ih =>
      intro t h
      cases t with
      | nil => exact crlf_eq_nil.mp h
      | cons d t =>
          by_cases hc : c = '\n' <;> by_cases hd : d = '\n'
          · rw [hc, hd, crlf_newline, crlf_newline] at h
            rw [hc, hd, ih (List.cons.inj (List.cons.inj h).2).2]
          · rw [hc, crlf_newline, crlf_other hd] at h
            obtain rfl := (List.cons.inj h).1
            exact absurd h hreturn
          · rw [hd, crlf_newline, crlf_other hc] at h
            obtain rfl := (List.cons.inj h).1
            exact absurd h.symm hreturn
          · rw [crlf_other hc, crlf_other hd] at h
            rw [(List.cons.inj h).1, ih (List.cons.inj h).2]

/-! ## The scanners -/

section Scanners

variable {p : Char → Bool} (hnl : p '\n' = false) (hcr : p '\r' = false)

include hnl hcr

/-- A class without the two characters is scanned to the same point. -/
theorem takeWhile_crlf (s : Text) : (crlf s).takeWhile p = s.takeWhile p := by
  induction s with
  | nil => rfl
  | cons c s ih =>
      by_cases hc : c = '\n'
      · rw [hc, crlf_newline, List.takeWhile_cons_of_neg (by simp [hcr]),
          List.takeWhile_cons_of_neg (by simp [hnl])]
      · rw [crlf_other hc, List.takeWhile_cons, List.takeWhile_cons, ih]

theorem dropWhile_crlf (s : Text) : (crlf s).dropWhile p = crlf (s.dropWhile p) := by
  induction s with
  | nil => rfl
  | cons c s ih =>
      by_cases hc : c = '\n'
      · rw [hc, crlf_newline, List.dropWhile_cons_of_neg (by simp [hcr]),
          List.dropWhile_cons_of_neg (by simp [hnl]), crlf_newline]
      · rw [crlf_other hc, List.dropWhile_cons, List.dropWhile_cons, ih]
        split
        · rfl
        · rw [crlf_other hc]

end Scanners

/-- What is new on a line is a return at its end. -/
theorem restOfLine_crlf (s : Text) :
    restOfLine (crlf s) = restOfLine s ∨ restOfLine (crlf s) = restOfLine s ++ ['\r'] := by
  induction s with
  | nil => exact .inl rfl
  | cons c s ih =>
      by_cases hc : c = '\n'
      · subst hc
        exact .inr rfl
      · have hplain : '\n' ∉ [c] := mt List.mem_singleton.mp (Ne.symm hc)
        rw [crlf_other hc, ← List.singleton_append (l := crlf s),
          ← List.singleton_append (l := s), restOfLine_append hplain, restOfLine_append hplain]
        exact ih.imp (congrArg ([c] ++ ·)) (congrArg ([c] ++ ·))

theorem all_restOfLine_crlf {p : Char → Bool} (hcr : p '\r' = true) (s : Text) :
    (restOfLine (crlf s)).all p = (restOfLine s).all p := by
  rcases restOfLine_crlf s with h | h <;> simp [h, hcr]

theorem contains_restOfLine_crlf {c : Char} (hcr : c ≠ '\r') (s : Text) :
    (restOfLine (crlf s)).contains c = (restOfLine s).contains c := by
  rcases restOfLine_crlf s with h | h
  · rw [h]
  · simp [h, hcr]

end Text

/-! ## The searches -/

theorem ne_return_of_isMark {c : Char} (h : isMark c = true) : c ≠ '\r' := by
  intro heq
  subst heq
  exact absurd h (by decide)

theorem crlf_marks {c : Char} (hc : isMark c = true) (k : Nat) :
    crlf (List.replicate k c) = List.replicate k c :=
  crlf_of_not_mem fun h => ne_newline_of_isMark hc (List.eq_of_mem_replicate h).symm

theorem head?_crlf_mark {c : Char} (hc : isMark c = true) {s : Text} (hs : s.head? ≠ some c) :
    (crlf s).head? ≠ some c :=
  fun h => hs ((head?_crlf (ne_newline_of_isMark hc) (ne_return_of_isMark hc) s).mp h)

/-- What a search has found, in the other form. -/
def cutCrlf (found : Text × Text) : Text × Text := (crlf found.1, crlf found.2)

/-- What was read before joins the code in both forms. -/
theorem map_cutCrlf (x : Text) (found? : Option (Text × Text)) :
    (found?.map fun (code, rest) => (x ++ code, rest)).map cutCrlf =
      (found?.map cutCrlf).map fun (code, rest) => (crlf x ++ code, rest) := by
  cases found? with
  | none => rfl
  | some found => simp [cutCrlf, crlf_append]

theorem Fence.closer?_crlf {f : Fence} (hm : isMark f.mark = true) (s : Text) :
    f.closer? (crlf s) = (f.closer? s).map cutCrlf := by
  have hnl : ('\n' == f.mark) = false := by simpa using (ne_newline_of_isMark hm).symm
  have hcr : ('\r' == f.mark) = false := by simpa using (ne_return_of_isMark hm).symm
  unfold closer?
  simp only [takeWhile_crlf (p := isIndent) rfl rfl, dropWhile_crlf (p := isIndent) rfl rfl,
    takeWhile_crlf (p := (· == f.mark)) hnl hcr, dropWhile_crlf (p := (· == f.mark)) hnl hcr,
    all_restOfLine_crlf (p := isClosingBlank) rfl]
  split
  · have hindent : '\n' ∉ s.takeWhile isIndent := newline_not_mem_indent of_mem_takeWhile
    have hrun : '\n' ∉ (s.dropWhile isIndent).takeWhile (· == f.mark) := by
      rw [takeWhile_beq]
      exact newline_not_mem_marks hm _
    simp [cutCrlf, crlf_append, crlf_of_not_mem hindent, crlf_of_not_mem hrun]
  · rfl

theorem Fence.block?_crlf {f : Fence} (hm : isMark f.mark = true) (s : Text) :
    f.block? (crlf s) = (f.block? s).map cutCrlf := by
  induction s with
  | nil => rfl
  | cons c s ih =>
      by_cases hc : c = '\n'
      · subst hc
        rw [crlf_newline, ← List.singleton_append, block?_append (by decide), block?, block?,
          if_pos (beq_self_eq_true _), if_pos (beq_self_eq_true _), closer?_crlf hm, ih]
        cases f.closer? s with
        | some found => rfl
        | none => cases f.block? s <;> rfl
      · have hplain : '\n' ∉ [c] := mt List.mem_singleton.mp (Ne.symm hc)
        rw [crlf_other hc, ← List.singleton_append (l := crlf s),
          ← List.singleton_append (l := s), block?_append hplain, block?_append hplain, ih,
          map_cutCrlf, crlf_of_not_mem hplain]

theorem inlineCode?_crlf (n : Nat) (s : Text) :
    inlineCode? n (crlf s) = (inlineCode? n s).map cutCrlf := by
  induction s using run_induction backtick with
  | nil =>
      rw [crlf_nil, inlineCode?]
      rfl
  | other c s hc ih =>
      by_cases hnl : c = '\n'
      · rw [hnl, crlf_newline, inlineCode?_other (by decide) (by decide), inlineCode?_newline,
          inlineCode?_newline]
        rfl
      · have hplain : '\n' ∉ [c] := mt List.mem_singleton.mp (Ne.symm hnl)
        have h := map_cutCrlf [c] (inlineCode? n s)
        rw [crlf_of_not_mem hplain] at h
        rw [crlf_other hnl, inlineCode?_other hnl hc, inlineCode?_other hnl hc, ih]
        exact h.symm
  | run k s hk hs ih =>
      have hmark : isMark backtick = true := rfl
      rw [crlf_append, crlf_marks hmark, inlineCode?_run hk (head?_crlf_mark hmark hs),
        inlineCode?_run hk hs, ih]
      split
      · rw [Option.map_some, cutCrlf, crlf_marks hmark]
      · rw [map_cutCrlf, crlf_marks hmark]

theorem codeAfter?_crlf {c : Char} (hc : isMark c = true) (atIndent : Bool) (n : Nat) (s : Text) :
    codeAfter? atIndent c n (crlf s) = (codeAfter? atIndent c n s).map cutCrlf := by
  have hopens : Fence.opens atIndent c n (crlf s) = Fence.opens atIndent c n s := by
    rw [Fence.opens, Fence.opens, contains_restOfLine_crlf (by decide)]
  unfold codeAfter?
  rw [hopens]
  split
  · exact Fence.block?_crlf hc s
  · split
    · exact inlineCode?_crlf n s
    · rfl

/-! ## The scan -/

/-- A span in the other form. -/
def Span.crlf : Span → Span
  | .prose t => .prose (Text.crlf t)
  | .code t => .code (Text.crlf t)

theorem joinProse_crlf (t : Text) (spans : List Span) :
    (joinProse t spans).map Span.crlf = joinProse (Text.crlf t) (spans.map Span.crlf) := by
  rcases spans with _ | ⟨u | u, spans⟩
  · rfl
  · simp [Span.crlf, crlf_append]
  · rfl

theorem segmentFrom_crlf (atIndent : Bool) (s : Text) :
    segmentFrom atIndent (Text.crlf s) = (segmentFrom atIndent s).map Span.crlf := by
  induction atIndent, s using segment_induction with
  | nil atIndent =>
      rw [crlf_nil, segmentFrom_nil]
      rfl
  | other atIndent c s hc ih =>
      rw [segmentFrom_other hc, joinProse_crlf, ← ih]
      by_cases hnl : c = '\n'
      · subst hnl
        rw [crlf_newline, segmentFrom_other (by decide), segmentFrom_other (by decide),
          joinProse_joinProse]
        rfl
      · have hplain : '\n' ∉ [c] := mt List.mem_singleton.mp (Ne.symm hnl)
        rw [crlf_other hnl, segmentFrom_other hc, crlf_of_not_mem hplain]
  | code atIndent c k s code rest hc hk hs hfound ih =>
      rw [crlf_append, crlf_marks hc, segmentFrom_run hc hk (head?_crlf_mark hc hs),
        segmentFrom_run hc hk hs, codeAfter?_crlf hc, hfound]
      simp only [Option.map_some, cutCrlf]
      rw [ih, List.map_cons, Span.crlf, crlf_append, crlf_marks hc]
  | left atIndent c k s hc hk hs hfound ih =>
      rw [crlf_append, crlf_marks hc, segmentFrom_run hc hk (head?_crlf_mark hc hs),
        segmentFrom_run hc hk hs, codeAfter?_crlf hc, hfound]
      simp only [Option.map_none]
      rw [ih, joinProse_crlf, crlf_marks hc]

/-- A document in the other form is cut where it was cut. -/
theorem segment_crlf (t : Text) : segment (Text.crlf t) = (segment t).map Span.crlf :=
  segmentFrom_crlf true t

end MdxMend
