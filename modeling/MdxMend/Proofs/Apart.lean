import MdxMend.Proofs.Alternating
import MdxMend.Proofs.Layout

/-!
# Where a document may be cut

Two documents put end to end are not scanned as each of them is: a run that opened
nothing may open a block once there is a line behind it that closes it. Nothing else
can happen at a line break. So a text is `Apart` from whatever follows it if its layout
has only blocks that are closed and lines that could not open one. `NoOpener` rules out
all other lines, because a run that opens a fence and is not closed is left in prose
(`OpeningLine.not_each_noOpener`).

What is cut apart still meets in prose, for the break itself is prose and no text that
ends with one ends in code (`segment_newline`).
-/

namespace MdxMend

open Text

/-- No run in the span, if it is prose, opens a fence where it stands. -/
def NoOpener (before : Text) (span : Span) (after : Text) : Prop :=
  ∀ t, span = .prose t → ∀ x (f : Fence) y, t = x ++ (List.replicate f.length f.mark ++ y) →
    isMark f.mark = true → Maximal (before ++ x) f.mark (y ++ after) →
      ¬ f.IsOpener (before ++ x) (y ++ after)

theorem noOpener_of_no_mark {t : Text} (h : t.any isMark = false) (before after : Text) :
    NoOpener before (.prose t) after := by
  rintro _ ⟨⟩ x f y heq hmark - hopen
  obtain ⟨k, hk⟩ : ∃ k, f.length = k + 1 :=
    ⟨f.length - 1, by have := hopen.three_le; simp only [Fence.minLength] at this; omega⟩
  have hmem : f.mark ∈ t := by
    rw [heq, hk]
    simp [List.replicate_succ]
  exact List.any_eq_false.mp h _ hmem hmark

theorem noOpener_code (before t after : Text) : NoOpener before (.code t) after := by
  rintro _ ⟨⟩

/-! ## What is said of spans in the part behind -/

theorem exists_joinProse (t : Text) (spans : List Span) :
    ∃ p post, joinProse t spans = .prose (t ++ p) :: post ∧
      p ++ reassemble post = reassemble spans := by
  rcases spans with _ | ⟨p | u, spans⟩
  · exact ⟨[], [], by simp, rfl⟩
  · exact ⟨p, spans, rfl, rfl⟩
  · exact ⟨[], .code u :: spans, by simp, rfl⟩

section NoOpener

variable {before after : Text}

theorem each_of_joinProse {t : Text} {spans : List Span}
    (h : Each NoOpener before (joinProse t spans) after) :
    Each NoOpener (before ++ t) spans after := by
  rcases spans with _ | ⟨p | u, spans⟩
  · trivial
  · obtain ⟨hhead, hrest⟩ := h
    rw [Span.content, ← List.append_assoc] at hrest
    refine ⟨?_, hrest⟩
    rintro _ ⟨⟩ x f y rfl hmark hmax
    rw [List.append_assoc] at hmax ⊢
    exact hhead _ rfl (t ++ x) f y (List.append_assoc ..).symm hmark hmax
  · exact h.2

theorem each_of_paste {xs ys : List Span} (h : Each NoOpener before (paste xs ys) after) :
    Each NoOpener (before ++ reassemble xs) ys after := by
  induction xs generalizing before with
  | nil => rwa [reassemble_nil, List.append_nil]
  | cons x xs ih =>
      rw [reassemble_cons, ← List.append_assoc]
      cases x with
      | prose t => exact ih (each_of_joinProse h)
      | code t => exact ih h.2

/-- A run that opens a fence and is not code is found in prose. -/
theorem OpeningLine.not_each_noOpener (o : OpeningLine) {s : Text}
    (hnone : Fence.block? o.fence (o.info ++ '\n' :: s) = none) (hind : OnIndent before) :
    ¬ Each NoOpener before (segment (o.text ++ s)) after := by
  intro h
  have htext : o.text ++ s =
      o.indent ++ (List.replicate o.count o.mark ++ (o.info ++ '\n' :: s)) := by
    simp [OpeningLine.text]
  have hleft : codeAfter? true o.mark o.count (o.info ++ '\n' :: s) = none := by
    unfold codeAfter?
    rw [opens_line true o.mark o.count o.newline_info, if_pos o.opens]
    exact hnone
  have hhead := head?_line o.isMark_mark o.head?_info s
  rw [htext, segment, segmentFrom_indent o.isIndent_indent,
    segmentFrom_run o.isMark_mark o.count_pos hhead, hleft] at h
  -- The run stands at the head of the prose that begins behind the indent.
  have hrun := each_of_paste h
  obtain ⟨p, post, hjoin, hp⟩ := exists_joinProse (List.replicate o.count o.mark)
    (segmentFrom false (o.info ++ '\n' :: s))
  simp only [] at hrun
  rw [hjoin, reassemble_segmentFrom] at hrun
  rw [reassemble_segmentFrom] at hp
  have hindent : OnIndent (before ++ o.indent) :=
    (onIndent_append (Fence.newline_not_mem_indent o.isIndent_indent) before).mpr
      ⟨hind, o.isIndent_indent⟩
  have hbehind : p ++ (reassemble post ++ after) = o.info ++ '\n' :: (s ++ after) := by
    rw [← List.append_assoc, hp, List.append_assoc, List.cons_append]
  have hopener := hrun.1 _ rfl [] o.fence p rfl o.isMark_mark
  rw [hbehind, List.append_nil] at hopener
  refine hopener ⟨fun hlast => not_onIndent_of_mark o.isMark_mark hlast hindent,
    head?_line o.isMark_mark o.head?_info _⟩ ⟨o.three_le, hindent, fun hm => ?_⟩
  rw [restOfLine_append o.newline_info, restOfLine_newline, List.append_nil]
  exact o.backtick_info hm

end NoOpener

/-! ## Texts that are scanned apart -/

theorem Text.IsLine.onIndent {l : Text} (h : IsLine l) (before : Text) :
    OnIndent (before ++ l) := by
  obtain ⟨x, -, rfl⟩ := h
  rw [← List.append_assoc]
  exact onIndent_newline _

/-- The text is scanned as it is by itself, whatever follows. -/
def Apart (t : Text) : Prop := ∀ s, segment (t ++ s) = paste (segment t) (segment s)

theorem paste_paste (xs ys zs : List Span) :
    paste (paste xs ys) zs = paste xs (paste ys zs) := by
  induction xs with
  | nil => rfl
  | cons x xs ih => cases x <;> simp [ih]

namespace Apart

theorem nil : Apart [] := by
  intro s
  rw [segment_nil]
  rfl

theorem append {t u : Text} (ht : Apart t) (hu : Apart u) : Apart (t ++ u) := by
  intro s
  rw [List.append_assoc, ht, hu, ht, paste_paste]

/-- A line break at the end keeps apart what the scan does not reach over. -/
theorem of_break {t : Text} (xs : List Span)
    (h : ∀ s, segment (t ++ s) = paste xs (joinProse ['\n'] (segment s))) : Apart t := by
  intro s
  have ht := h []
  rw [List.append_nil, segment_nil] at ht
  rw [h, ht, paste_paste]
  rfl

theorem line {x : Text} (hx : '\n' ∉ x) (hopen : ∀ o : OpeningLine, x ++ ['\n'] ≠ o.text) :
    Apart (x ++ ['\n']) := by
  refine of_break (segment x) fun s => ?_
  have h := segment_line hx (fun o ho => absurd ho (hopen o)) (lined_lines s)
  rwa [flatten_lines, ← List.singleton_append, ← List.append_assoc] at h

theorem block (o : OpeningLine) {inner : List Text} (c : o.fence.ClosingLine)
    (hline : ∀ l ∈ inner, IsLine l) (hopen : ∀ l ∈ inner, ¬ o.fence.ClosedBy (restOfLine l))
    (heol : c.eol = ['\n']) : Apart (o.text ++ (inner.flatten ++ c.text)) := by
  refine of_break (paste (segmentFrom true o.indent)
    (.code (o.code (inner.flatten ++ c.kept)) :: segmentFrom false c.blanks)) fun s => ?_
  have h := segment_block o (c.division hline hopen (s := s) (.inl heol))
  have hblanks : segmentFrom false (c.blanks ++ '\n' :: s) =
      paste (segmentFrom false c.blanks) (joinProse ['\n'] (segment s)) :=
    segmentFrom_line false c.blanks c.newline_blanks s (noBlock_false _ _)
  rw [List.append_assoc, List.append_assoc, h, paste_paste, paste_code, ← hblanks]
  simp only [Fence.ClosingLine.division, Fence.Division.code, Fence.ClosingLine.kept, heol]
  rfl

theorem each_behind {t u before : Text} (ht : Apart t)
    (h : Each NoOpener before (segment (t ++ u)) []) :
    Each NoOpener (before ++ t) (segment u) [] := by
  rw [ht] at h
  have hrest := each_of_paste h
  rwa [reassemble_segment] at hrest

/-- A text of complete lines, where no run that opens a fence is left in prose. -/
theorem of_layout {ls : List Text} (h : Layout ls) (hls : ∀ l ∈ ls, IsLine l) {before : Text}
    (hind : OnIndent before) (hfree : Each NoOpener before (segment ls.flatten) []) :
    Apart ls.flatten := by
  induction h generalizing before with
  | nil => exact nil
  | @last x hne hx =>
      obtain ⟨y, -, rfl⟩ := hls x List.mem_cons_self
      exact absurd hx (by simp)
  | @line l ls hl hopen h ih =>
      have hls' : ∀ m ∈ ls, IsLine m := fun m hm => hls m (List.mem_cons_of_mem l hm)
      have hapart : Apart l := by
        -- No line behind it closes the line, so its run would be left in prose.
        obtain ⟨x, hx, rfl⟩ := hl
        refine line hx fun o ho => ?_
        have hnone : Fence.block? o.fence (o.info ++ '\n' :: ls.flatten) = none := by
          refine Fence.block?_of_open (f := o.fence) o.isMark_mark o.newline_info o.count_pos ?_
          rw [h.lined.lines_flatten]
          exact hopen o ho
        rw [List.flatten_cons, ho] at hfree
        exact o.not_each_noOpener hnone hind hfree
      exact hapart.append (ih hls' (hl.onIndent _) (hapart.each_behind hfree))
  | @block o inner c ls hline hopen hlast h ih =>
      have hls' : ∀ m ∈ ls, IsLine m := fun m hm => hls m (by simp [hm])
      have hclose : IsLine c.text := hls c.text (by simp)
      have heol : c.eol = ['\n'] := by
        refine c.eol_cases.resolve_left fun heol => ?_
        obtain ⟨y, -, hy⟩ := hclose
        exact c.newline_text o.isMark_mark heol (by simp [hy])
      have hapart := block o c hline hopen heol
      have hflat : (o.text :: (inner ++ c.text :: ls)).flatten =
          (o.text ++ (inner.flatten ++ c.text)) ++ ls.flatten := by
        rw [flatten_block, List.append_assoc, List.append_assoc]
      rw [hflat] at hfree ⊢
      refine hapart.append (ih hls' ?_ (hapart.each_behind hfree))
      rw [← List.append_assoc, ← List.append_assoc]
      exact hclose.onIndent _

end Apart

/-! ## The last span -/

theorem SpanFits.getLast?_code {before t after : Text} (h : SpanFits before (.code t) after) :
    ∃ e, isMark e = true ∧ t.getLast? = some e := by
  have hlast : ∀ (x : Text) {n : Nat} (e : Char), 0 < n →
      (x ++ List.replicate n e).getLast? = some e := by
    intro x n e hn
    simp [List.getLast?_append, List.getLast?_replicate, Nat.ne_of_gt hn]
  rcases h with ⟨b, rfl, hstands⟩ | ⟨i, rfl, -⟩
  · have hpos : 0 < b.closing := Nat.lt_of_lt_of_le (by decide)
      (Nat.le_trans hstands.opener.three_le b.length_le)
    have hcontent : b.content = (List.replicate b.fence.length b.fence.mark ++
        (b.info ++ '\n' :: (b.inner.flatten ++ b.indent))) ++
          List.replicate b.closing b.fence.mark := by
      simp [Block.content, Block.body]
    rw [hcontent]
    exact ⟨b.fence.mark, b.isMark_mark, hlast _ _ hpos⟩
  · rw [InlineCode.content, ← List.append_assoc]
    exact ⟨backtick, by decide, hlast _ _ i.pos⟩

/-- A text that ends with a line break ends in prose. -/
theorem segment_newline {t : Text} (h : t.getLast? = some '\n') :
    ∃ xs u, segment t = xs ++ [.prose (u ++ ['\n'])] := by
  have hne : segment t ≠ [] := by
    intro hnil
    rw [← reassemble_segment t, hnil] at h
    cases h
  obtain ⟨xs, span, hspans⟩ : ∃ xs span, segment t = xs ++ [span] :=
    (List.eq_nil_or_concat _).resolve_left hne |>.imp fun _ => Exists.imp fun _ => by simp
  have hcontent : span.content ≠ [] :=
    (alternating_segmentFrom true t).content_ne_nil span (by rw [← segment, hspans]; simp)
  have hlast : span.content.getLast? = some '\n' := by
    rw [← reassemble_segment t, hspans, reassemble_append, reassemble_cons, reassemble_nil,
      List.append_nil, List.getLast?_append_of_ne_nil _ hcontent] at h
    exact h
  -- The line feed is in the last span, and code ends on a mark.
  cases span with
  | prose u =>
      obtain ⟨v, rfl⟩ := List.getLast?_eq_some_iff.mp hlast
      exact ⟨xs, v, hspans⟩
  | code u =>
      obtain ⟨e, he, hu⟩ := (each_iff.mp (each_spanFits_segment t) xs _ [] hspans).getLast?_code
      obtain rfl : e = '\n' := Option.some.inj (hu.symm.trans hlast)
      exact absurd he (by decide)

/-- Where a text ends with a line break and is scanned apart, what is behind it
begins in the prose that it ends in. -/
theorem Apart.segment_append {t : Text} (h : Apart t) {xs : List Span} {u : Text}
    (hspans : segment t = xs ++ [.prose u]) (s : Text) :
    segment (t ++ s) = xs ++ joinProse u (segment s) := by
  have halt := alternating_segmentFrom true t
  rw [← segment, hspans] at halt
  rw [h, hspans, paste_append_prose halt]

end MdxMend
