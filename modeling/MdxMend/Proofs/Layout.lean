import MdxMend.Proofs.Spans

/-!
# The scan, line by line

A run of marks can reach over a line break only by opening a block. So a
document is laid out in lines of two kinds: those that open a block which some
later line closes, together with the lines up to that one, and all the others,
each of which is scanned by itself. `Layout` says this of a list of lines, every
list of lines has one, and the scan follows it: inductions over a
document are over its layout from here on.

Spans are not compared as lists here, because prose joins across lines. What
carries over is the code (`codes_line`, `codes_block`) and what is said of each
piece of code in its place (`each_line`, `each_block`).
-/

namespace MdxMend

open Text Fence

/-! ## One line -/

theorem inlineCode?_line (n : Nat) {x : Text} (hx : '\n' ∉ x) (s : Text) :
    inlineCode? n (x ++ '\n' :: s) =
      (inlineCode? n x).map fun (code, rest) => (code, rest ++ '\n' :: s) := by
  induction x using run_induction backtick with
  | nil =>
      rw [List.nil_append, inlineCode?_newline, inlineCode?]
      rfl
  | other c x hc ih =>
      have hnl : c ≠ '\n' := fun h => hx (h ▸ List.mem_cons_self)
      rw [List.cons_append, inlineCode?_other hnl hc, inlineCode?_other hnl hc,
        ih fun h => hx (List.mem_cons_of_mem c h)]
      cases inlineCode? n x <;> rfl
  | run k x hk hhead ih =>
      have hhead' : (x ++ '\n' :: s).head? ≠ some backtick := by
        cases x with
        | nil => simp [backtick]
        | cons d x => exact hhead
      rw [List.append_assoc, inlineCode?_run hk hhead', inlineCode?_run hk hhead,
        ih fun h => hx (List.mem_append_right _ h)]
      split
      · rfl
      · cases inlineCode? n x <;> rfl

theorem opens_line (atIndent : Bool) (mark : Char) (n : Nat) {x : Text} (hx : '\n' ∉ x)
    (s : Text) :
    Fence.opens atIndent mark n (x ++ '\n' :: s) = Fence.opens atIndent mark n x := by
  rw [Fence.opens, Fence.opens, restOfLine_append hx, restOfLine_newline, List.append_nil,
    restOfLine_of_not_mem hx]

/-- A run whose block, if it opens one, is not closed is read as if the text
ended with its line. -/
theorem codeAfter?_line {atIndent : Bool} {mark : Char} {n : Nat} {x : Text} (hx : '\n' ∉ x)
    {s : Text} (hopen : Fence.opens atIndent mark n x = true →
      Fence.block? ⟨mark, n⟩ (x ++ '\n' :: s) = none) :
    codeAfter? atIndent mark n (x ++ '\n' :: s) =
      (codeAfter? atIndent mark n x).map fun (code, rest) => (code, rest ++ '\n' :: s) := by
  unfold codeAfter?
  rw [opens_line atIndent mark n hx]
  split
  · next h =>
      rw [hopen h, Fence.block?_last hx]
      rfl
  · split
    · exact inlineCode?_line n hx s
    · rfl

theorem head?_line {c : Char} (hc : isMark c = true) {x : Text} (hx : x.head? ≠ some c)
    (s : Text) : (x ++ '\n' :: s).head? ≠ some c := by
  cases x with
  | nil =>
      intro h
      exact ne_newline_of_isMark hc (Option.some.inj h).symm
  | cons d x => exact hx

/-- No run at the head of a line opens a block that is closed in `s`, where
`atIndent` tells whether the line, in front of `x`, is only indent. -/
def NoBlock (atIndent : Bool) (x s : Text) : Prop :=
  atIndent = true → ∀ indent mark n y, x = indent ++ (List.replicate n mark ++ y) →
    (∀ c ∈ indent, isIndent c = true) → isMark mark = true → y.head? ≠ some mark →
    Fence.opens true mark n y = true → Fence.block? ⟨mark, n⟩ (y ++ '\n' :: s) = none

theorem noBlock_false (x s : Text) : NoBlock false x s := fun h => absurd h (by decide)

theorem NoBlock.run {atIndent : Bool} {c : Char} {k : Nat} {y s : Text}
    (h : NoBlock atIndent (List.replicate k c ++ y) s) (hc : isMark c = true)
    (hhead : y.head? ≠ some c) (hopens : Fence.opens atIndent c k y = true) :
    Fence.block? ⟨c, k⟩ (y ++ '\n' :: s) = none := by
  cases atIndent with
  | false => simp [Fence.opens] at hopens
  | true => exact h rfl [] c k y rfl (fun d hd => absurd hd List.not_mem_nil) hc hhead hopens

/-- Up to its line feed a line is scanned by itself, if it opens no block that is
closed behind it. -/
theorem segmentFrom_line (atIndent : Bool) (x : Text) (hx : '\n' ∉ x) (s : Text)
    (hopen : NoBlock atIndent x s) :
    segmentFrom atIndent (x ++ '\n' :: s) =
      paste (segmentFrom atIndent x) (joinProse ['\n'] (segmentFrom true s)) := by
  induction atIndent, x using segment_induction with
  | nil atIndent =>
      rw [List.nil_append, segmentFrom_other (by decide), segmentFrom_nil]
      rfl
  | other atIndent c x hc ih =>
      have hnl : c ≠ '\n' := fun h => hx (h ▸ List.mem_cons_self)
      rw [List.cons_append, segmentFrom_other hc, segmentFrom_other hc, paste_joinProse, ih]
      · exact fun h => hx (List.mem_cons_of_mem c h)
      · intro hflag indent mark n y hxy hindent
        have hboth : atIndent = true ∧ isIndent c = true := by simpa [hnl] using hflag
        refine hopen hboth.1 (c :: indent) mark n y (by rw [hxy, List.cons_append]) ?_
        intro d hd
        rcases List.mem_cons.mp hd with rfl | hd
        · exact hboth.2
        · exact hindent d hd
  | code atIndent c k x code rest hc hk hhead hfound ih =>
      have hx' : '\n' ∉ x := fun h => hx (List.mem_append_right _ h)
      have hrest : '\n' ∉ rest := fun h => hx' (codeAfter?_split hfound ▸ List.mem_append_right _ h)
      rw [List.append_assoc, segmentFrom_run hc hk (head?_line hc hhead s),
        segmentFrom_run hc hk hhead, codeAfter?_line hx' (hopen.run hc hhead), hfound]
      simp only [Option.map_some, paste_code]
      rw [ih hrest (noBlock_false rest s)]
  | left atIndent c k x hc hk hhead hnone ih =>
      have hx' : '\n' ∉ x := fun h => hx (List.mem_append_right _ h)
      rw [List.append_assoc, segmentFrom_run hc hk (head?_line hc hhead s),
        segmentFrom_run hc hk hhead, codeAfter?_line hx' (hopen.run hc hhead), hnone]
      simp only [Option.map_none, paste_joinProse]
      rw [ih hx' (noBlock_false x s)]

/-! ## Lines that open and lines that close -/

/-- A line that opens a block, should a later line close it. -/
structure OpeningLine where
  indent : Text
  mark : Char
  count : Nat
  info : Text
  isIndent_indent : ∀ c ∈ indent, isIndent c = true
  isMark_mark : isMark mark = true
  three_le : Fence.minLength ≤ count
  newline_info : '\n' ∉ info
  head?_info : info.head? ≠ some mark
  backtick_info : mark = backtick → backtick ∉ info

namespace OpeningLine

def fence (o : OpeningLine) : Fence := ⟨o.mark, o.count⟩

def text (o : OpeningLine) : Text :=
  o.indent ++ (List.replicate o.count o.mark ++ (o.info ++ ['\n']))

/-- The code that begins on the line, where `body` is what follows it. -/
def code (o : OpeningLine) (body : Text) : Text :=
  List.replicate o.count o.mark ++ (o.info ++ '\n' :: body)

theorem count_pos (o : OpeningLine) : 0 < o.count := Nat.lt_of_lt_of_le (by decide) o.three_le

theorem newline_front (o : OpeningLine) :
    '\n' ∉ o.indent ++ (List.replicate o.count o.mark ++ o.info) := by
  have hmarks := Fence.newline_not_mem_marks (f := o.fence) o.isMark_mark o.count
  have hindent := Fence.newline_not_mem_indent o.isIndent_indent
  simp only [List.mem_append, not_or]
  exact ⟨hindent, hmarks, o.newline_info⟩

theorem isLine (o : OpeningLine) : IsLine o.text :=
  ⟨_, o.newline_front, by simp [text]⟩

theorem opens (o : OpeningLine) : Fence.opens true o.mark o.count o.info = true := by
  rw [Fence.opens, restOfLine_of_not_mem o.newline_info]
  by_cases h : o.mark = backtick
  · simp [o.three_le, o.backtick_info h]
  · simp [o.three_le, h]

end OpeningLine

/-- A line that closes the fence. The last line of a document may lack its line
feed. -/
structure Fence.ClosingLine (f : Fence) where
  indent : Text
  count : Nat
  blanks : Text
  eol : Text
  isIndent_indent : ∀ c ∈ indent, isIndent c = true
  length_le : f.length ≤ count
  isClosingBlank_blanks : ∀ c ∈ blanks, Fence.isClosingBlank c = true
  eol_cases : eol = [] ∨ eol = ['\n']

namespace Fence.ClosingLine

variable {f : Fence}

def text (c : f.ClosingLine) : Text :=
  c.indent ++ (List.replicate c.count f.mark ++ (c.blanks ++ c.eol))

/-- What of the line belongs to the block. -/
def kept (c : f.ClosingLine) : Text := c.indent ++ List.replicate c.count f.mark

theorem newline_blanks (c : f.ClosingLine) : '\n' ∉ c.blanks :=
  fun h => ne_newline_of_isClosingBlank (c.isClosingBlank_blanks _ h) rfl

theorem newline_kept (c : f.ClosingLine) (hm : isMark f.mark = true) : '\n' ∉ c.kept := by
  rw [kept, List.mem_append, not_or]
  exact ⟨newline_not_mem_indent c.isIndent_indent, newline_not_mem_marks hm _⟩

theorem restOfLine_text (c : f.ClosingLine) (hm : isMark f.mark = true) :
    restOfLine c.text = c.kept ++ c.blanks := by
  have hfront : '\n' ∉ c.kept ++ c.blanks := by
    rw [List.mem_append, not_or]
    exact ⟨c.newline_kept hm, c.newline_blanks⟩
  have htext : c.text = (c.kept ++ c.blanks) ++ c.eol := by simp [text, kept]
  rw [htext, restOfLine_append hfront]
  rcases c.eol_cases with h | h <;> rw [h]
  · simp [restOfLine]
  · rw [restOfLine_newline, List.append_nil]

theorem closedBy (c : f.ClosingLine) (hm : isMark f.mark = true) :
    f.ClosedBy (restOfLine c.text) :=
  ⟨c.indent, c.count, c.blanks, by rw [c.restOfLine_text hm, kept, List.append_assoc],
    c.isIndent_indent, c.length_le, c.isClosingBlank_blanks⟩

theorem isLine_text (c : f.ClosingLine) (hm : isMark f.mark = true) (heol : c.eol = ['\n']) :
    IsLine c.text := by
  refine isLine_iff.mpr ?_
  rw [c.restOfLine_text hm, text, kept, heol]
  simp

theorem newline_text (c : f.ClosingLine) (hm : isMark f.mark = true) (heol : c.eol = []) :
    '\n' ∉ c.text := by
  have htext : c.text = c.kept ++ c.blanks := by simp [text, kept, heol]
  rw [htext, List.mem_append, not_or]
  exact ⟨c.newline_kept hm, c.newline_blanks⟩

theorem kept_ne_nil (c : f.ClosingLine) (hpos : 0 < f.length) : c.kept ≠ [] := by
  have hle := c.length_le
  obtain ⟨k, hk⟩ : ∃ k, c.count = k + 1 := ⟨c.count - 1, by omega⟩
  simp [kept, hk, List.replicate_succ]

theorem text_ne_nil (c : f.ClosingLine) (hpos : 0 < f.length) : c.text ≠ [] := by
  have htext : c.text = c.kept ++ (c.blanks ++ c.eol) := by simp [text, kept]
  rw [htext]
  exact List.append_ne_nil_of_left_ne_nil (c.kept_ne_nil hpos) _

/-- A line that closes the fence, taken apart. -/
theorem exists_of_closedBy {l : Text} (hl : IsLine l ∨ '\n' ∉ l)
    (h : f.ClosedBy (restOfLine l)) :
    ∃ c : f.ClosingLine, c.text = l ∧ (c.eol = ['\n'] ↔ IsLine l) := by
  obtain ⟨indent, n, blanks, hline, hindent, hn, hblanks⟩ := h
  rcases hl with hl | hl
  · refine ⟨{ indent, count := n, blanks, eol := ['\n'], isIndent_indent := hindent,
              length_le := hn, isClosingBlank_blanks := hblanks, eol_cases := .inr rfl }, ?_, ?_⟩
    · rw [isLine_iff.mp hl, hline]
      simp [text]
    · exact ⟨fun _ => hl, fun _ => rfl⟩
  · rw [restOfLine_of_not_mem hl] at hline
    refine ⟨{ indent, count := n, blanks, eol := [], isIndent_indent := hindent, length_le := hn,
              isClosingBlank_blanks := hblanks, eol_cases := .inl rfl }, ?_, ?_⟩
    · rw [hline]
      simp [text]
    · refine ⟨fun h => by simp at h, ?_⟩
      rintro ⟨x, -, rfl⟩
      exact absurd hl (by simp)

/-- The lines in front of the first one that closes the fence, and that one. -/
def division (c : f.ClosingLine) {inner : List Text} (hline : ∀ l ∈ inner, IsLine l)
    (hopen : ∀ l ∈ inner, ¬ f.ClosedBy (restOfLine l)) {s : Text}
    (hs : c.eol = ['\n'] ∨ s = []) : f.Division (inner.flatten ++ (c.text ++ s)) where
  inner := inner
  indent := c.indent
  closing := c.count
  blanks := c.blanks
  rest := c.eol ++ s
  split := by simp [text]
  isLine_inner := hline
  open_inner := hopen
  isIndent_indent := c.isIndent_indent
  length_le := c.length_le
  isClosingBlank_blanks := c.isClosingBlank_blanks
  head?_rest := by
    rcases c.eol_cases with h | h <;> rcases hs with hs | rfl <;> simp_all

end Fence.ClosingLine

/-! ## The layout of a document -/

/-- Lines as the scan goes over them: a line by itself, or the lines of a block
that is closed. -/
inductive Layout : List Text → Prop where
  | nil : Layout []
  | last {x : Text} (hne : x ≠ []) (hx : '\n' ∉ x) : Layout [x]
  | line {l : Text} {ls : List Text} (hl : IsLine l)
      (hopen : ∀ o : OpeningLine, l = o.text → ∀ m ∈ ls, ¬ o.fence.ClosedBy (restOfLine m))
      (h : Layout ls) : Layout (l :: ls)
  | block (o : OpeningLine) {inner : List Text} (c : o.fence.ClosingLine) {ls : List Text}
      (hline : ∀ l ∈ inner, IsLine l)
      (hopen : ∀ l ∈ inner, ¬ o.fence.ClosedBy (restOfLine l))
      (hlast : c.eol = ['\n'] ∨ ls = []) (h : Layout ls) :
      Layout (o.text :: (inner ++ c.text :: ls))

/-- The first line that closes a fence, and what stands around it. -/
theorem Text.Lined.first_closing {ls : List Text} (h : Lined ls) (f : Fence) :
    (∃ (inner : List Text) (c : f.ClosingLine) (rest : List Text), ls = inner ++ c.text :: rest ∧
      (∀ l ∈ inner, IsLine l) ∧ (∀ l ∈ inner, ¬ f.ClosedBy (restOfLine l)) ∧
      (c.eol = ['\n'] ∨ rest = []) ∧ Lined rest) ∨
    ∀ m ∈ ls, ¬ f.ClosedBy (restOfLine m) := by
  rcases exists_first_closing f ls with ⟨inner, m, rest, rfl, hopen, hm⟩ | hnone
  · obtain ⟨hinner, hrest⟩ := h.of_append
    have hcases : (IsLine m ∨ '\n' ∉ m ∧ rest = []) ∧ Lined rest := by
      cases hrest with
      | last _ hx => exact ⟨.inr ⟨hx, rfl⟩, .nil⟩
      | line hl hls => exact ⟨.inl hl, hls⟩
    obtain ⟨c, rfl, heol⟩ := Fence.ClosingLine.exists_of_closedBy (hcases.1.imp_right And.left) hm
    exact .inl ⟨inner, c, rest, rfl, hinner, hopen, hcases.1.imp heol.mpr And.right, hcases.2⟩
  · exact .inr hnone

theorem layout_of_lined {ls : List Text} (h : Lined ls) : Layout ls := by
  induction hlen : ls.length using Nat.strongRecOn generalizing ls with
  | ind n ih =>
      subst hlen
      cases h with
      | nil => exact .nil
      | last hne hx => exact .last hne hx
      | @line l ls hl hls =>
          by_cases hblock : ∃ o : OpeningLine, l = o.text ∧
              ∃ m ∈ ls, o.fence.ClosedBy (restOfLine m)
          · obtain ⟨o, rfl, m, hm, hclosed⟩ := hblock
            rcases hls.first_closing o.fence with
              ⟨inner, c, rest, rfl, hinner, hopen, hlast, hrest⟩ | hnone
            · refine .block o c hinner hopen hlast (ih rest.length ?_ hrest rfl)
              simp only [List.length_cons, List.length_append]
              omega
            · exact absurd hclosed (hnone m hm)
          · refine .line hl ?_ (ih ls.length (by rw [List.length_cons]; omega) hls rfl)
            rintro o rfl m hm hclosed
            exact hblock ⟨o, rfl, m, hm, hclosed⟩

theorem Layout.lined {ls : List Text} (h : Layout ls) : Lined ls := by
  induction h with
  | nil => exact .nil
  | last hne hx => exact .last hne hx
  | line hl _ _ ih => exact .line hl ih
  | @block o inner c ls hline _ hlast _ ih =>
      refine .line o.isLine (Lined.append hline ?_)
      rcases c.eol_cases with heol | heol
      · obtain rfl := hlast.resolve_left (by simp [heol])
        exact .last (c.text_ne_nil o.count_pos) (c.newline_text o.isMark_mark heol)
      · exact .line (c.isLine_text o.isMark_mark heol) ih

/-- Induction over the layout of the rest of a document, where `bs` are the lines in
front of it. -/
theorem layout_induction {motive : List Text → List Text → Prop}
    (nil : ∀ bs, motive bs [])
    (last : ∀ bs x, x ≠ [] → '\n' ∉ x → motive bs [x])
    (line : ∀ bs x ls, '\n' ∉ x →
      (∀ o : OpeningLine, x ++ ['\n'] = o.text → ∀ m ∈ ls, ¬ o.fence.ClosedBy (restOfLine m)) →
      Layout ls → motive (bs ++ [x ++ ['\n']]) ls → motive bs ((x ++ ['\n']) :: ls))
    (block : ∀ bs (o : OpeningLine) inner (c : o.fence.ClosingLine) ls, (∀ l ∈ bs, IsLine l) →
      (∀ l ∈ inner, IsLine l) → (∀ l ∈ inner, ¬ o.fence.ClosedBy (restOfLine l)) →
      (c.eol = ['\n'] ∨ ls = []) → Layout ls →
      motive (bs ++ o.text :: (inner ++ [c.text])) ls →
        motive bs (o.text :: (inner ++ c.text :: ls)))
    {bs ls : List Text} (hbs : ∀ l ∈ bs, IsLine l) (h : Layout ls) : motive bs ls := by
  induction h generalizing bs with
  | nil => exact nil bs
  | @last x hne hx => exact last bs x hne hx
  | @line l ls hl hopen h ih =>
      have hlines : ∀ m ∈ bs ++ [l], IsLine m := by
        intro m hm
        rcases List.mem_append.mp hm with hm | hm
        · exact hbs m hm
        · exact List.mem_singleton.mp hm ▸ hl
      have hrest := ih hlines
      obtain ⟨x, hx, rfl⟩ := hl
      exact line bs x ls hx hopen h hrest
  | @block o inner c ls hline hopen hlast h ih =>
      refine block bs o inner c ls hbs hline hopen hlast h ?_
      rcases hlast with heol | rfl
      · refine ih fun l hl => ?_
        simp only [List.mem_append, List.mem_cons, List.not_mem_nil, or_false] at hl
        rcases hl with hl | rfl | hl | rfl
        · exact hbs l hl
        · exact o.isLine
        · exact hline l hl
        · exact c.isLine_text o.isMark_mark heol
      · exact nil _

/-! ## The scan of a layout -/

theorem codes_eq_nil {x : Text} (hx : ∀ c ∈ x, isMark c = false) (atIndent : Bool) :
    codes (segmentFrom atIndent x) = [] := by
  induction x generalizing atIndent with
  | nil => rw [segmentFrom_nil, codes_nil]
  | cons c x ih =>
      rw [segmentFrom_other (hx c List.mem_cons_self), codes_joinProse]
      exact ih (fun d hd => hx d (List.mem_cons_of_mem c hd)) _

theorem not_isMark_of_isIndent {c : Char} (h : isIndent c = true) : isMark c = false := by
  cases hc : isMark c with
  | false => rfl
  | true =>
      rw [isIndent_of_isMark hc] at h
      cases h

theorem not_isMark_of_isClosingBlank {c : Char} (h : Fence.isClosingBlank c = true) :
    isMark c = false := by
  cases hc : isMark c with
  | false => rfl
  | true =>
      rw [isClosingBlank_of_isMark hc] at h
      cases h

/-- Indent in front of a line is prose and changes nothing else. -/
theorem segmentFrom_indent {indent : Text} (h : ∀ c ∈ indent, isIndent c = true) (s : Text) :
    segmentFrom true (indent ++ s) = paste (segmentFrom true indent) (segmentFrom true s) := by
  induction indent with
  | nil => rw [segmentFrom_nil]; rfl
  | cons c indent ih =>
      have hc := h c List.mem_cons_self
      have hflag : (c == '\n' || (true && isIndent c)) = true := by simp [hc]
      rw [List.cons_append, segmentFrom_other (not_isMark_of_isIndent hc),
        segmentFrom_other (not_isMark_of_isIndent hc), hflag, paste_joinProse,
        ih fun d hd => h d (List.mem_cons_of_mem c hd)]

/-- A line that opens no block is scanned by itself. -/
theorem segment_line {x : Text} (hx : '\n' ∉ x) {ls : List Text}
    (hopen : ∀ o : OpeningLine, x ++ ['\n'] = o.text →
      ∀ m ∈ ls, ¬ o.fence.ClosedBy (restOfLine m)) (hls : Lined ls) :
    segment (x ++ '\n' :: ls.flatten) =
      paste (segment x) (joinProse ['\n'] (segment ls.flatten)) := by
  refine segmentFrom_line true x hx ls.flatten ?_
  intro _ indent mark n y hxy hindent hmark hhead hopens
  simp only [opens, Bool.and_eq_true, decide_eq_true_eq, Bool.or_eq_true, bne_iff_ne,
    Bool.not_eq_true', List.contains_eq_mem, decide_eq_false_iff_not] at hopens
  have hy : '\n' ∉ y := fun h => hx (by rw [hxy]; simp [h])
  rw [restOfLine_of_not_mem hy] at hopens
  let o : OpeningLine := {
    indent, mark, count := n, info := y
    isIndent_indent := hindent
    isMark_mark := hmark
    three_le := hopens.1.1
    newline_info := hy
    head?_info := hhead
    backtick_info := fun h => hopens.2.resolve_left fun hne => hne h }
  refine Fence.block?_of_open (f := o.fence) hmark hy o.count_pos ?_
  rw [hls.lines_flatten]
  exact hopen o (by simp [hxy, OpeningLine.text, o])

/-- A block that is closed is one piece of code. -/
theorem segment_block (o : OpeningLine) {s : Text} (d : o.fence.Division s) :
    segment (o.text ++ s) =
      paste (segmentFrom true o.indent)
        (.code (o.code d.code) :: segmentFrom false (d.blanks ++ d.rest)) := by
  have htext : o.text ++ s =
      o.indent ++ (List.replicate o.count o.mark ++ (o.info ++ '\n' :: s)) := by
    simp [OpeningLine.text]
  have hblock : codeAfter? true o.mark o.count (o.info ++ '\n' :: s) =
      some (o.info ++ '\n' :: d.code, d.blanks ++ d.rest) := by
    unfold codeAfter?
    rw [opens_line true o.mark o.count o.newline_info, if_pos o.opens]
    exact block?_of_division (f := o.fence) o.isMark_mark o.count_pos o.newline_info d
  rw [htext, segment, segmentFrom_indent o.isIndent_indent,
    segmentFrom_run o.isMark_mark o.count_pos (head?_line o.isMark_mark o.head?_info s), hblock]
  rfl

theorem codes_line {x : Text} (hx : '\n' ∉ x) {ls : List Text}
    (hopen : ∀ o : OpeningLine, x ++ ['\n'] = o.text →
      ∀ m ∈ ls, ¬ o.fence.ClosedBy (restOfLine m)) (hls : Lined ls) :
    codes (segment ((x ++ ['\n']) :: ls).flatten) =
      codes (segment x) ++ codes (segment ls.flatten) := by
  rw [List.flatten_cons, List.append_assoc, List.singleton_append, segment_line hx hopen hls,
    codes_paste, codes_joinProse]

theorem codes_closing {f : Fence} (c : f.ClosingLine) {s : Text}
    (hs : c.eol = ['\n'] ∨ s = []) :
    codes (segmentFrom false (c.blanks ++ (c.eol ++ s))) = codes (segment s) := by
  have hblanks := codes_eq_nil (fun d hd => not_isMark_of_isClosingBlank
    (c.isClosingBlank_blanks d hd)) false
  rcases c.eol_cases with heol | heol
  · obtain rfl := hs.resolve_left (by simp [heol])
    rw [heol, List.append_nil, List.append_nil, hblanks, segment_nil, codes_nil]
  · rw [heol, List.singleton_append,
      segmentFrom_line false c.blanks c.newline_blanks s (noBlock_false _ _), codes_paste,
      codes_joinProse, hblanks]
    rfl

/-- The lines of a block and those behind it, as they stand in the text. -/
theorem flatten_block (o : OpeningLine) (inner : List Text) (c : o.fence.ClosingLine)
    (ls : List Text) :
    (o.text :: (inner ++ c.text :: ls)).flatten =
      o.text ++ (inner.flatten ++ (c.text ++ ls.flatten)) := by
  rw [List.flatten_cons, List.flatten_append, List.flatten_cons]

theorem codes_block (o : OpeningLine) {inner : List Text} (c : o.fence.ClosingLine)
    (hline : ∀ l ∈ inner, IsLine l) (hopen : ∀ l ∈ inner, ¬ o.fence.ClosedBy (restOfLine l))
    {ls : List Text} (hlast : c.eol = ['\n'] ∨ ls = []) :
    codes (segment (o.text :: (inner ++ c.text :: ls)).flatten) =
      o.code (inner.flatten ++ c.kept) :: codes (segment ls.flatten) := by
  have hs : c.eol = ['\n'] ∨ ls.flatten = [] := hlast.imp_right fun h => by rw [h]; rfl
  have hindent := codes_eq_nil (fun d hd => not_isMark_of_isIndent (o.isIndent_indent d hd)) true
  rw [flatten_block, segment_block o (c.division hline hopen hs), codes_paste, hindent, codes_code,
    List.nil_append]
  exact congrArg (_ :: ·) (codes_closing c hs)

theorem mem_codes (pre post : List Span) (v : Text) : v ∈ codes (pre ++ .code v :: post) := by
  induction pre with
  | nil => exact List.mem_cons_self
  | cons span pre ih =>
      cases span with
      | prose t => exact ih
      | code t => exact List.mem_cons_of_mem t ih

theorem mem_of_mem_codes {spans : List Span} {v : Text} (hv : v ∈ codes spans) {c : Char}
    (hc : c ∈ v) : c ∈ reassemble spans := by
  induction spans with
  | nil => cases hv
  | cons span spans ih =>
      rw [reassemble_cons, List.mem_append]
      cases span with
      | prose t => exact .inr (ih hv)
      | code t =>
          rcases List.mem_cons.mp hv with rfl | hv
          · exact .inl hc
          · exact .inr (ih hv)

/-- Code within a line is no block. -/
theorem newline_not_mem_codes {x : Text} (hx : '\n' ∉ x) {v : Text}
    (hv : v ∈ codes (segment x)) : '\n' ∉ v := by
  intro h
  have hmem := mem_of_mem_codes hv h
  rw [reassemble_segment] at hmem
  exact hx hmem

/-- The property says something about blocks only. -/
structure OfBlocks (P : Text → Span → Text → Prop) : Prop where
  prose : ∀ before t after, P before (.prose t) after
  inline : ∀ before v after, '\n' ∉ v → P before (.code v) after

section Each

variable {P : Text → Span → Text → Prop} (hP : OfBlocks P)

include hP

theorem each_inline {x : Text} (hx : '\n' ∉ x) (before after : Text) :
    Each P before (segment x) after := by
  rw [each_iff]
  intro pre span post h
  cases span with
  | prose t => exact hP.prose _ _ _
  | code v => exact hP.inline _ _ _ (newline_not_mem_codes hx (h ▸ mem_codes pre post v))

theorem each_of_codes_eq_nil {before after : Text} {spans : List Span} (h : codes spans = []) :
    Each P before spans after := by
  induction spans generalizing before with
  | nil => trivial
  | cons span spans ih =>
      cases span with
      | prose t => exact ⟨hP.prose _ _ _, ih h⟩
      | code t => cases h

theorem each_line {x : Text} (hx : '\n' ∉ x) {ls : List Text}
    (hopen : ∀ o : OpeningLine, x ++ ['\n'] = o.text →
      ∀ m ∈ ls, ¬ o.fence.ClosedBy (restOfLine m)) (hls : Lined ls) (bs : List Text) :
    Each P bs.flatten (segment ((x ++ ['\n']) :: ls).flatten) [] ↔
      Each P (bs ++ [x ++ ['\n']]).flatten (segment ls.flatten) [] := by
  rw [List.flatten_cons, List.append_assoc, List.singleton_append, segment_line hx hopen hls,
    each_paste hP.prose, each_joinProse hP.prose]
  simpa using fun _ => each_inline hP hx _ _

theorem each_closing {f : Fence} (c : f.ClosingLine) {s : Text}
    (hs : c.eol = ['\n'] ∨ s = []) {before after : Text} :
    Each P before (segmentFrom false (c.blanks ++ (c.eol ++ s))) after ↔
      Each P (before ++ (c.blanks ++ c.eol)) (segment s) after := by
  have hblanks := codes_eq_nil (fun d hd => not_isMark_of_isClosingBlank
    (c.isClosingBlank_blanks d hd)) false
  rcases c.eol_cases with heol | heol
  · obtain rfl := hs.resolve_left (by simp [heol])
    rw [heol, List.append_nil, List.append_nil, segment_nil]
    exact iff_of_true (each_of_codes_eq_nil hP hblanks) trivial
  · rw [heol, List.singleton_append,
      segmentFrom_line false c.blanks c.newline_blanks s (noBlock_false _ _), each_paste hP.prose,
      each_joinProse hP.prose, reassemble_segmentFrom, List.append_assoc]
    exact and_iff_right (each_of_codes_eq_nil hP hblanks)

theorem each_block (o : OpeningLine) {inner : List Text} (c : o.fence.ClosingLine)
    (hline : ∀ l ∈ inner, IsLine l) (hopen : ∀ l ∈ inner, ¬ o.fence.ClosedBy (restOfLine l))
    {ls : List Text} (hlast : c.eol = ['\n'] ∨ ls = []) (bs : List Text) :
    Each P bs.flatten (segment (o.text :: (inner ++ c.text :: ls)).flatten) [] ↔
      P (bs.flatten ++ o.indent) (.code (o.code (inner.flatten ++ c.kept)))
          (c.blanks ++ (c.eol ++ ls.flatten)) ∧
        Each P (bs ++ o.text :: (inner ++ [c.text])).flatten (segment ls.flatten) [] := by
  have hs : c.eol = ['\n'] ∨ ls.flatten = [] := hlast.imp_right fun h => by rw [h]; rfl
  have hindent := codes_eq_nil (fun d hd => not_isMark_of_isIndent (o.isIndent_indent d hd)) true
  have hfront : bs.flatten ++ o.indent ++
      Span.content (.code (o.code (c.division hline hopen hs).code)) ++ (c.blanks ++ c.eol) =
        (bs ++ o.text :: (inner ++ [c.text])).flatten := by
    simp [Span.content, OpeningLine.code, OpeningLine.text, Division.code,
      Fence.ClosingLine.division, Fence.ClosingLine.text]
  rw [flatten_block, segment_block o (c.division hline hopen hs), each_paste hP.prose,
    reassemble_segmentFrom]
  refine (and_iff_right (each_of_codes_eq_nil hP hindent)).trans ?_
  rw [Each, reassemble_segmentFrom, List.append_nil]
  exact and_congr Iff.rfl ((each_closing hP c hs).trans (by rw [hfront]))

end Each

end MdxMend
