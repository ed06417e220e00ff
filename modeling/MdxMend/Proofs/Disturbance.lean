import MdxMend.Proofs.FencePhase
import MdxMend.Proofs.Layout
import MdxMend.Proofs.ProsePhase
import Mathlib.Data.List.Forall2

/-!
# Blocks that the rule on fences disturbs

The rule on fences is meant to change nothing of a block but its tag, and it
does so as long as the fence that it takes to be open is the one that the scan
goes by. The two read closing lines differently: the scan allows spaces, tabs and carriage
returns behind the run, the walk over fence lines anything that counts as
blank, and a line with a stray carriage return is no fence line at all. Where they
differ the walk is out of step, and a line inside a block, or the one that
closes it, gets a tag.

`Kept` says of a block that this does not happen to it. Code comes back exactly
if every block is kept (`sameCodes_iff`): a line that got a tag closes nothing,
so a block that is not kept ends somewhere else or not at all.
-/

namespace MdxMend

open Text

/-! ## Opening lines and fence lines -/

namespace OpeningLine

/-- An opening line can be taken apart in one way only. -/
theorem parts_inj {o p : OpeningLine} {s t : Text} (h : o.text ++ s = p.text ++ t) :
    o.indent = p.indent ∧ o.fence = p.fence ∧ o.info = p.info ∧ s = t := by
  have hsplit : ∀ (q : OpeningLine) (u : Text), q.text ++ u =
      q.indent ++ (List.replicate q.count q.mark ++ (q.info ++ '\n' :: u)) := by
    intro q u
    simp [text]
  have hhead : ∀ (q : OpeningLine) (u : Text), (List.replicate q.count q.mark ++
      (q.info ++ '\n' :: u)).head? = some q.mark := by
    intro q u
    obtain ⟨k, hk⟩ : ∃ k, q.count = k + 1 := ⟨q.count - 1, by have := q.count_pos; omega⟩
    rw [hk]
    rfl
  have hstop : ∀ (q : OpeningLine) (u : Text), ∀ c ∈ (List.replicate q.count q.mark ++
      (q.info ++ '\n' :: u)).head?, isIndent c = false :=
    fun q u => Fence.head?_marks q.isMark_mark q.count_pos (q.info ++ '\n' :: u)
  rw [hsplit, hsplit] at h
  have hindent := congrArg (List.takeWhile isIndent) h
  have hrun := congrArg (List.dropWhile isIndent) h
  rw [takeWhile_stop o.isIndent_indent (hstop o s), takeWhile_stop p.isIndent_indent (hstop p t)]
    at hindent
  rw [dropWhile_stop o.isIndent_indent (hstop o s), dropWhile_stop p.isIndent_indent (hstop p t)]
    at hrun
  have hmark := congrArg List.head? hrun
  rw [hhead, hhead, Option.some.injEq] at hmark
  have hlen := congrArg (fun u : Text => (u.takeWhile (· == o.mark)).length) hrun
  have hrest := congrArg (fun u : Text => u.dropWhile (· == o.mark)) hrun
  rw [takeWhile_run (head?_line o.isMark_mark o.head?_info s), hmark,
    takeWhile_run (head?_line p.isMark_mark p.head?_info t), List.length_replicate,
    List.length_replicate] at hlen
  rw [dropWhile_run (head?_line o.isMark_mark o.head?_info s), hmark,
    dropWhile_run (head?_line p.isMark_mark p.head?_info t)] at hrest
  obtain ⟨hinfo, hst⟩ := newline_inj o.newline_info p.newline_info hrest
  exact ⟨hindent, by rw [fence, fence, hmark, hlen], hinfo, hst⟩

theorem text_inj {o p : OpeningLine} (h : o.text = p.text) : o = p := by
  have happend : o.text ++ [] = p.text ++ [] := by rw [h]
  obtain ⟨hindent, hfence, hinfo, -⟩ := parts_inj happend
  have hmark : o.mark = p.mark := congrArg Fence.mark hfence
  have hcount : o.count = p.count := congrArg Fence.length hfence
  cases o
  cases p
  simp_all only

/-- Code that begins on an opening line tells the fence and what follows. -/
theorem code_inj {o p : OpeningLine} {s t : Text} (h : o.code s = p.code t) :
    o.fence = p.fence ∧ o.info = p.info ∧ s = t := by
  let bare (q : OpeningLine) : OpeningLine :=
    { q with indent := [], isIndent_indent := fun _ hc => absurd hc List.not_mem_nil }
  have hbare : ∀ (q : OpeningLine) (u : Text), (bare q).text ++ u = q.code u := by
    intro q u
    simp [text, code, bare]
  rw [← hbare, ← hbare] at h
  exact (parts_inj h).2

end OpeningLine

/-- A fence line as the scan sees it. -/
def FenceLine.opening (f : FenceLine) : OpeningLine where
  indent := f.indent
  mark := f.mark
  count := f.count
  info := f.tag ++ f.eol.dropLast
  isIndent_indent := f.isIndent_indent
  isMark_mark := f.isMark_mark
  three_le := f.three_le
  newline_info := by
    rw [List.mem_append, not_or]
    refine ⟨f.newline_not_mem_tag, ?_⟩
    rcases f.eol_cases with h | h <;> rw [h] <;> decide
  head?_info := by
    rw [List.head?_append]
    intro h
    rcases Option.or_eq_some_iff.mp h with h | ⟨-, h⟩
    · exact f.head?_tag h
    · have hmark := f.isMark_mark
      rcases f.eol_cases with heol | heol <;> rw [heol] at h
      · cases h
      · rw [← Option.some.inj h] at hmark
        exact absurd hmark (by decide)
  backtick_info := by
    intro hmark h
    rcases List.mem_append.mp h with h | h
    · have := f.isTagChar_tag _ h
      simp [Builtin.isTagChar, hmark] at this
    · rcases f.eol_cases with heol | heol <;> rw [heol] at h <;> exact absurd h (by decide)

theorem FenceLine.text_opening (f : FenceLine) : f.opening.text = f.text := by
  rcases f.eol_cases with h | h <;> simp [OpeningLine.text, FenceLine.text, opening, h]

theorem FenceLine.fence_opening (f : FenceLine) : f.opening.fence = f.fence := rfl

/-! ## Lines that are changed -/

/-- A line that is changed is a fence line whose tag does not stay. -/
theorem exists_of_retag_ne {open? : Option Fence} {l : Text} (hl : IsLine l)
    (h : (retag open? l).1 ≠ l) :
    open? = none ∧ ∃ f : FenceLine, l = f.text ∧ ¬ Language.Stays f.tag := by
  by_cases hfence : ∃ f : FenceLine, l = f.text
  · obtain ⟨f, rfl⟩ := hfence
    cases open? with
    | none => exact ⟨rfl, f, rfl, fun hs => h ((retag_eq_iff f).mpr hs)⟩
    | some g =>
        rw [retag_some] at h
        exact absurd rfl h
  · rw [retag_other hl fun f hf => hfence ⟨f, hf⟩] at h
    exact absurd rfl h

theorem Fence.ClosedBy.of_mem {f : Fence} {l : Text} (h : f.ClosedBy l) :
    ∀ c ∈ l, isIndent c = true ∨ c = f.mark ∨ isClosingBlank c = true := by
  obtain ⟨indent, n, blanks, rfl, hindent, -, hblanks⟩ := h
  intro c hc
  rcases List.mem_append.mp hc with hc | hc
  · exact .inl (hindent c hc)
  · rcases List.mem_append.mp hc with hc | hc
    · exact .inr (.inl (List.eq_of_mem_replicate hc))
    · exact .inr (.inr (hblanks c hc))

/-- A line that was given a tag closes nothing. -/
theorem not_closedBy_retagged {f : FenceLine} (hf : ¬ Language.Stays f.tag) {g : Fence}
    (hm : isMark g.mark = true) : ¬ g.ClosedBy (restOfLine f.retagged.text) := by
  intro h
  have htag : ∃ c ∈ f.retagged.tag, isIndent c = false ∧ isMark c = false ∧
      Fence.isClosingBlank c = false := by
    rcases FenceLine.tag_retagged_of_not_stays hf with h | h <;> rw [h]
    · exact ⟨'t', by decide⟩
    · exact ⟨'m', by decide⟩
  obtain ⟨c, hc, hindent, hmark, hblank⟩ := htag
  have hline : c ∈ restOfLine f.retagged.text := by
    have hfront : '\n' ∉ f.retagged.indent ++
        (List.replicate f.retagged.count f.retagged.mark ++ f.retagged.tag) := by
      have hfront := f.retagged.opening.newline_front
      simp only [FenceLine.opening, List.mem_append, not_or] at hfront ⊢
      exact ⟨hfront.1, hfront.2.1, hfront.2.2.1⟩
    have htext : f.retagged.text = (f.retagged.indent ++
        (List.replicate f.retagged.count f.retagged.mark ++ f.retagged.tag)) ++ f.retagged.eol := by
      simp [FenceLine.text]
    rw [htext, restOfLine_append hfront]
    simp [hc]
  rcases h.of_mem c hline with hc | rfl | hc
  · rw [hindent] at hc
    cases hc
  · rw [hmark] at hm
    cases hm
  · rw [hblank] at hc
    cases hc

/-- A line that closes a fence once the tags are written closed it before. -/
theorem retag_eq_of_closedBy {open? : Option Fence} {l : Text} (hl : IsLine l ∨ '\n' ∉ l)
    {g : Fence} (hm : isMark g.mark = true) (h : g.ClosedBy (restOfLine (retag open? l).1)) :
    (retag open? l).1 = l := by
  rcases hl with hl | hl
  · by_contra hne
    obtain ⟨rfl, f, rfl, hf⟩ := exists_of_retag_ne hl hne
    rw [retag_none] at h
    exact not_closedBy_retagged hf hm h
  · rw [retag_last hl]

theorem mem_of_mem_retagLines {ls : List Text} (hls : Lined ls) {open? : Option Fence}
    {m : Text} (hmem : m ∈ retagLines open? ls) {g : Fence} (hm : isMark g.mark = true)
    (h : g.ClosedBy (restOfLine m)) : m ∈ ls := by
  induction hls generalizing open? with
  | nil => cases hmem
  | @last x hne hx =>
      rw [retagLines, retag_last hx] at hmem
      exact hmem
  | @line l ls hl hls ih =>
      rw [retagLines] at hmem
      rcases List.mem_cons.mp hmem with rfl | hmem
      · rw [retag_eq_of_closedBy (.inl hl) hm h]
        exact List.mem_cons_self
      · exact List.mem_cons_of_mem l (ih hmem)

/-- Only opening lines become opening lines, and of the same fence. -/
theorem of_retag_opening {open? : Option Fence} {l : Text} (hl : IsLine l) {p : OpeningLine}
    (h : (retag open? l).1 = p.text) : ∃ o : OpeningLine, l = o.text ∧ o.fence = p.fence := by
  by_cases hsame : (retag open? l).1 = l
  · exact ⟨p, hsame.symm.trans h, rfl⟩
  · obtain ⟨rfl, f, rfl, -⟩ := exists_of_retag_ne hl hsame
    rw [retag_none, ← f.retagged.text_opening] at h
    refine ⟨f.opening, f.text_opening.symm, ?_⟩
    rw [← OpeningLine.text_inj h, f.fence_opening, f.retagged.fence_opening, f.fence_retagged]

/-! ## Code -/

/-- The code that begins on a fence line, where `body` is what follows it. -/
def FenceLine.code (f : FenceLine) (body : Text) : Text :=
  List.replicate f.count f.mark ++ (f.tag ++ (f.eol ++ body))

/-- The same code, but for the tag of a block that was given another one. -/
def SameCode (u v : Text) : Prop :=
  u = v ∨ ∃ (f : FenceLine) (body : Text), u = f.code body ∧ v = f.retagged.code body

theorem SameCode.refl (u : Text) : SameCode u u := .inl rfl

theorem FenceLine.code_opening (f : FenceLine) (body : Text) :
    f.opening.code body = f.code body := by
  rcases f.eol_cases with h | h <;> simp [OpeningLine.code, FenceLine.code, opening, h]

/-- What becomes of an opening line: an opening line of the same fence, from which
code begins that is the same but for the tag. -/
theorem exists_opening (o : OpeningLine) (open? : Option Fence) :
    ∃ p : OpeningLine, (retag open? o.text).1 = p.text ∧ p.fence = o.fence ∧
      ∀ body, SameCode (o.code body) (p.code body) := by
  by_cases h : (retag open? o.text).1 = o.text
  · exact ⟨o, h, rfl, fun body => .refl _⟩
  · obtain ⟨rfl, f, hf, -⟩ := exists_of_retag_ne o.isLine h
    obtain rfl : o = f.opening := OpeningLine.text_inj (hf.trans f.text_opening.symm)
    refine ⟨f.retagged.opening, ?_, ?_, fun body => .inr ⟨f, body, ?_, ?_⟩⟩
    · rw [hf, retag_none, f.retagged.text_opening]
    · rw [f.retagged.fence_opening, f.fence_retagged, f.fence_opening]
    · exact f.code_opening body
    · exact f.retagged.code_opening body

/-- Code of the same block has the same fence and the same body. -/
theorem SameCode.code {o : OpeningLine} {body v : Text} (h : SameCode (o.code body) v) :
    ∃ p : OpeningLine, v = p.code body ∧ p.fence = o.fence := by
  rcases h with rfl | ⟨f, rest, hu, rfl⟩
  · exact ⟨o, rfl, rfl⟩
  · rw [← f.code_opening] at hu
    obtain ⟨hfence, -, rfl⟩ := OpeningLine.code_inj hu
    exact ⟨f.retagged.opening, (f.retagged.code_opening body).symm, by
      rw [hfence, f.retagged.fence_opening, f.fence_retagged, f.fence_opening]⟩

theorem OpeningLine.newline_mem_code (o : OpeningLine) (body : Text) : '\n' ∈ o.code body := by
  simp [code]

/-- A block has a line that closes it. -/
theorem exists_closing {ls : List Text} (h : Layout ls) {o : OpeningLine} {body : Text}
    (hv : o.code body ∈ codes (segment ls.flatten)) :
    ∃ m ∈ ls, o.fence.ClosedBy (restOfLine m) := by
  induction h with
  | nil =>
      rw [List.flatten_nil, segment_nil] at hv
      cases hv
  | @last x hne hx =>
      rw [List.flatten_cons, List.flatten_nil, List.append_nil] at hv
      exact absurd (o.newline_mem_code body) (newline_not_mem_codes hx hv)
  | @line l ls hl hopen h ih =>
      obtain ⟨x, hx, rfl⟩ := hl
      rw [codes_line hx hopen h.lined] at hv
      rcases List.mem_append.mp hv with hv | hv
      · exact absurd (o.newline_mem_code body) (newline_not_mem_codes hx hv)
      · obtain ⟨m, hm, hclosed⟩ := ih hv
        exact ⟨m, List.mem_cons_of_mem _ hm, hclosed⟩
  | @block p inner c ls hline hopen hlast h ih =>
      rw [codes_block p c hline hopen hlast] at hv
      rcases List.mem_cons.mp hv with heq | hv
      · refine ⟨c.text, by simp, ?_⟩
        rw [(OpeningLine.code_inj heq).1]
        exact c.closedBy p.isMark_mark
      · obtain ⟨m, hm, hclosed⟩ := ih hv
        exact ⟨m, by simp [hm], hclosed⟩

/-- Where code of a fence follows a line that opens that fence, a line closes it. -/
theorem exists_closing_behind {p q : OpeningLine} (hfence : q.fence = p.fence) {ls : List Text}
    (hls : Lined ls) {body : Text} (hv : q.code body ∈ codes (segment (p.text :: ls).flatten)) :
    ∃ m ∈ ls, p.fence.ClosedBy (restOfLine m) := by
  by_contra hnone
  obtain ⟨x, hx, htext⟩ := p.isLine
  have hbar : ∀ o : OpeningLine, x ++ ['\n'] = o.text →
      ∀ m ∈ ls, ¬ o.fence.ClosedBy (restOfLine m) := by
    intro o ho m hm hclosed
    rw [← OpeningLine.text_inj (htext.trans ho)] at hclosed
    exact hnone ⟨m, hm, hclosed⟩
  rw [htext, codes_line hx hbar hls] at hv
  rcases List.mem_append.mp hv with hv | hv
  · exact newline_not_mem_codes hx hv (q.newline_mem_code body)
  · obtain ⟨m, hm, hclosed⟩ := exists_closing (layout_of_lined hls) hv
    exact hnone ⟨m, hm, hfence ▸ hclosed⟩

/-! ## Lines by themselves -/

theorem codes_of_no_backtick {x : Text} (hnl : '\n' ∉ x) (hx : backtick ∉ x) :
    codes (segmentFrom false x) = [] := by
  have hall : ∀ atIndent x, atIndent = false → '\n' ∉ x → backtick ∉ x →
      codes (segmentFrom atIndent x) = [] := by
    intro atIndent x
    induction atIndent, x using segment_induction with
    | nil atIndent =>
        intro _ _ _
        rw [segmentFrom_nil, codes_nil]
    | other atIndent c s hc ih =>
        rintro rfl hnl hback
        rw [segmentFrom_other hc, codes_joinProse]
        refine ih ?_ (fun h => hnl (List.mem_cons_of_mem c h)) fun h =>
          hback (List.mem_cons_of_mem c h)
        simpa using fun h : c = '\n' => hnl (h ▸ List.mem_cons_self)
    | code atIndent c k s code rest hc hk hs hfound ih =>
        rintro rfl hnl hback
        have hne : c ≠ backtick := by
          intro heq
          subst heq
          exact hback (List.mem_append_left _ (by simp; omega))
        simp [codeAfter?, Fence.opens, hne] at hfound
    | left atIndent c k s hc hk hs hnone ih =>
        rintro rfl hnl hback
        rw [segmentFrom_run hc hk hs, hnone]
        simp only [codes_joinProse]
        exact ih rfl (fun h => hnl (List.mem_append_right _ h)) fun h =>
          hback (List.mem_append_right _ h)
  exact hall false x rfl hnl hx

/-- By itself, a fence line without a backtick in its tag has no code in it. -/
theorem codes_fenceLine {f : FenceLine} (h : backtick ∉ f.tag) {x : Text}
    (hx : f.text = x ++ ['\n']) : codes (segment x) = [] := by
  have hx' : x = f.indent ++ (List.replicate f.count f.mark ++ f.opening.info) := by
    have htext := f.text_opening
    rw [hx, OpeningLine.text, ← List.append_assoc, ← List.append_assoc,
      List.append_left_inj, List.append_assoc] at htext
    exact htext.symm
  have hinfo : backtick ∉ f.opening.info := by
    refine fun hmem => h ?_
    rcases List.mem_append.mp hmem with hmem | hmem
    · exact hmem
    · rcases f.eol_cases with heol | heol <;> rw [heol] at hmem <;>
        exact absurd hmem (by decide)
  have hnone : codeAfter? true f.mark f.count f.opening.info = none := by
    have hopens : Fence.opens true f.mark f.count f.opening.info = true := f.opening.opens
    unfold codeAfter?
    rw [if_pos hopens]
    exact Fence.block?_last f.opening.newline_info
  have hindent := codes_eq_nil (fun d hd => not_isMark_of_isIndent (f.isIndent_indent d hd)) true
  rw [hx', segment, segmentFrom_indent f.isIndent_indent, codes_paste, hindent,
    segmentFrom_run f.isMark_mark f.count_pos f.opening.head?_info, hnone]
  simp only [codes_joinProse, List.nil_append]
  exact codes_of_no_backtick f.opening.newline_info hinfo

/-- A line by itself has the same code in it once it is given a tag. -/
theorem codes_retag {open? : Option Fence} {x y : Text} (hx : '\n' ∉ x)
    (hy : (retag open? (x ++ ['\n'])).1 = y ++ ['\n']) :
    codes (segment y) = codes (segment x) := by
  by_cases hsame : (retag open? (x ++ ['\n'])).1 = x ++ ['\n']
  · rw [hy] at hsame
    rw [List.append_cancel_right hsame]
  · obtain ⟨rfl, f, hf, hstays⟩ := exists_of_retag_ne ⟨x, hx, rfl⟩ hsame
    rw [hf, retag_none] at hy
    have htag : backtick ∉ f.tag := fun hmem => hstays (Language.stays_of_mem (.inr rfl) hmem)
    have hnew : backtick ∉ f.retagged.tag := by
      rcases FenceLine.tag_retagged_of_not_stays hstays with h | h <;> rw [h] <;> decide
    rw [codes_fenceLine htag hf.symm, codes_fenceLine hnew hy]

/-! ## Blocks -/

/-- A block is kept if the rule on fences, going on behind its opening line,
changes no line of it, the closing one included. -/
def Kept (before : Text) (span : Span) (after : Text) : Prop :=
  ∀ opening body, span = .code (opening ++ '\n' :: body) → '\n' ∉ opening →
    let open? := trackLines none (lines (before ++ (opening ++ ['\n'])))
    let n := (lines body).length
    (retagLines open? (lines (body ++ after))).take n = (lines (body ++ after)).take n

theorem kept_ofBlocks : OfBlocks Kept where
  prose := by
    intro before t after opening body h
    cases h
  inline := by
    rintro before v after hv opening body ⟨⟩ -
    exact absurd hv (by simp)

theorem kept_block (o : OpeningLine) {inner : List Text} (c : o.fence.ClosingLine)
    {bs ls : List Text} (hbs : ∀ l ∈ bs, IsLine l) (hline : ∀ l ∈ inner, IsLine l)
    (hlined : Lined (c.text :: ls)) :
    Kept (bs.flatten ++ o.indent) (.code (o.code (inner.flatten ++ c.kept)))
        (c.blanks ++ (c.eol ++ ls.flatten)) ↔
      retagLines (retag (trackLines none bs) o.text).2 (inner ++ [c.text]) = inner ++ [c.text] := by
  have hcode : o.code (inner.flatten ++ c.kept) =
      (List.replicate o.count o.mark ++ o.info) ++ '\n' :: (inner.flatten ++ c.kept) := by
    simp [OpeningLine.code]
  have hopening : '\n' ∉ List.replicate o.count o.mark ++ o.info :=
    fun h => o.newline_front (List.mem_append_right _ h)
  have hfront : lines (bs.flatten ++ o.indent ++
      ((List.replicate o.count o.mark ++ o.info) ++ ['\n'])) = bs ++ [o.text] := by
    have hflat : bs.flatten ++ o.indent ++ ((List.replicate o.count o.mark ++ o.info) ++ ['\n']) =
        (bs ++ [o.text]).flatten := by simp [OpeningLine.text]
    rw [hflat, Lined.lines_flatten (Lined.append hbs (.line o.isLine .nil))]
  have hbody : lines (inner.flatten ++ c.kept) = inner ++ [c.kept] := by
    have hlast : Lined [c.kept] :=
      .last (c.kept_ne_nil o.count_pos) (c.newline_kept o.isMark_mark)
    have hflat : inner.flatten ++ c.kept = (inner ++ [c.kept]).flatten := by simp
    rw [hflat, Lined.lines_flatten (Lined.append hline hlast)]
  have hrest : lines (inner.flatten ++ c.kept ++ (c.blanks ++ (c.eol ++ ls.flatten))) =
      (inner ++ [c.text]) ++ ls := by
    have hflat : inner.flatten ++ c.kept ++ (c.blanks ++ (c.eol ++ ls.flatten)) =
        (inner ++ c.text :: ls).flatten := by
      simp [Fence.ClosingLine.text, Fence.ClosingLine.kept]
    rw [hflat, Lined.lines_flatten (Lined.append hline hlined), List.append_assoc]
    rfl
  have htake : (retagLines (trackLines none (bs ++ [o.text])) ((inner ++ [c.text]) ++ ls)).take
      (inner ++ [c.kept]).length =
        retagLines (retag (trackLines none bs) o.text).2 (inner ++ [c.text]) := by
    rw [trackLines_append, retagLines_append]
    refine List.take_left' ?_
    rw [length_retagLines, List.length_append, List.length_append]
    rfl
  have htake' : ((inner ++ [c.text]) ++ ls).take (inner ++ [c.kept]).length =
      inner ++ [c.text] := by
    refine List.take_left' ?_
    rw [List.length_append, List.length_append]
    rfl
  constructor
  · intro h
    have hkept := h _ _ (congrArg _ hcode) hopening
    simp only [hfront, hbody, hrest] at hkept
    rwa [htake, htake'] at hkept
  · intro h opening body hspan hnl
    rw [hcode, Span.code.injEq] at hspan
    obtain ⟨rfl, rfl⟩ := newline_inj hopening hnl hspan
    simp only [hfront, hbody, hrest]
    rw [htake, htake', h]

/-! ## The correspondence -/

theorem forall₂_append_left {α : Type} {R : α → α → Prop} (hR : ∀ a, R a a) (xs : List α)
    {ys zs : List α} : List.Forall₂ R (xs ++ ys) (xs ++ zs) ↔ List.Forall₂ R ys zs := by
  induction xs with
  | nil => rfl
  | cons x xs ih =>
      rw [List.cons_append, List.cons_append, List.forall₂_cons, ih]
      exact and_iff_right (hR x)

/-- A block that is kept is the same code behind the first phase. -/
theorem codes_kept (open? : Option Fence) (o : OpeningLine) {inner : List Text}
    (c : o.fence.ClosingLine) {ls : List Text} (hline : ∀ l ∈ inner, IsLine l)
    (hopen : ∀ l ∈ inner, ¬ o.fence.ClosedBy (restOfLine l)) (hlast : c.eol = ['\n'] ∨ ls = [])
    (hkept : retagLines (retag open? o.text).2 (inner ++ [c.text]) = inner ++ [c.text]) :
    ∃ p : OpeningLine, (retag open? o.text).1 = p.text ∧
      SameCode (o.code (inner.flatten ++ c.kept)) (p.code (inner.flatten ++ c.kept)) ∧
      codes (segment (retagLines open? (o.text :: (inner ++ c.text :: ls))).flatten) =
        p.code (inner.flatten ++ c.kept) :: codes (segment
          (retagLines (trackLines open? (o.text :: (inner ++ [c.text]))) ls).flatten) := by
  obtain ⟨p, hp, hfence, hsame⟩ := exists_opening o open?
  obtain ⟨d, htext, hkeptc, heol⟩ : ∃ d : p.fence.ClosingLine,
      d.text = c.text ∧ d.kept = c.kept ∧ d.eol = c.eol := by
    rw [hfence]
    exact ⟨c, rfl, rfl, rfl⟩
  refine ⟨p, hp, hsame _, ?_⟩
  have hlines : retagLines open? (o.text :: (inner ++ c.text :: ls)) = p.text ::
      (inner ++ d.text :: retagLines (trackLines open? (o.text :: (inner ++ [c.text]))) ls) := by
    have hsplit : inner ++ c.text :: ls = (inner ++ [c.text]) ++ ls := by simp
    rw [hsplit, retagLines, retagLines_append, hkept, hp, trackLines, htext]
    simp
  have hlast' : d.eol = ['\n'] ∨
      retagLines (trackLines open? (o.text :: (inner ++ [c.text]))) ls = [] := by
    rw [heol]
    exact hlast.imp_right fun h => by rw [h]; rfl
  rw [hlines, codes_block p d hline (hfence ▸ hopen) hlast', hkeptc]

/-- The body of a block tells its lines. -/
theorem body_inj {f g : Fence} (hf : isMark f.mark = true) (hg : isMark g.mark = true)
    (hfpos : 0 < f.length) (hgpos : 0 < g.length) {inner inner' : List Text}
    (c : f.ClosingLine) (d : g.ClosingLine) (hline : ∀ l ∈ inner, IsLine l)
    (hline' : ∀ l ∈ inner', IsLine l)
    (h : inner.flatten ++ c.kept = inner'.flatten ++ d.kept) : inner = inner' := by
  have hc : Lined (inner ++ [c.kept]) :=
    Lined.append hline (.last (c.kept_ne_nil hfpos) (c.newline_kept hf))
  have hd : Lined (inner' ++ [d.kept]) :=
    Lined.append hline' (.last (d.kept_ne_nil hgpos) (d.newline_kept hg))
  have hflat : (inner ++ [c.kept]).flatten = (inner' ++ [d.kept]).flatten := by simpa using h
  have hlines := congrArg lines hflat
  rw [hc.lines_flatten, hd.lines_flatten] at hlines
  exact (List.append_inj' hlines rfl).1

/-- A block whose code comes back is kept. -/
theorem kept_of_same {open? : Option Fence} {o : OpeningLine} {inner : List Text}
    {c : o.fence.ClosingLine} {ls : List Text} (hline : ∀ l ∈ inner, IsLine l)
    (hlined : Lined (c.text :: ls)) {us : List Text}
    (h : List.Forall₂ SameCode (o.code (inner.flatten ++ c.kept) :: us)
      (codes (segment (retagLines open? (o.text :: (inner ++ c.text :: ls))).flatten))) :
    retagLines (retag open? o.text).2 (inner ++ [c.text]) = inner ++ [c.text] := by
  obtain ⟨p, hp, hfence, -⟩ := exists_opening o open?
  generalize hst : (retag open? o.text).2 = st
  obtain ⟨ms, hmsdef⟩ : ∃ ms, ms = retagLines st (inner ++ c.text :: ls) := ⟨_, rfl⟩
  have hms : Lined ms := hmsdef ▸ lined_retagLines (Lined.append hline hlined) _
  rw [retagLines, hp, hst, ← hmsdef] at h
  rcases hms.first_closing p.fence with
    ⟨inner', d, rest, rfl, hinner', hopen, hlast, -⟩ | hnone
  · -- The block ends at the first closing line there is: it has to be the old one.
    rw [codes_block p d hinner' hopen hlast] at h
    obtain ⟨q, hq, -⟩ := (List.forall₂_cons.mp h).1.code
    obtain rfl : inner' = inner := body_inj (f := p.fence) (g := o.fence) p.isMark_mark
      o.isMark_mark p.count_pos o.count_pos d c hinner' hline (OpeningLine.code_inj hq).2.2
    have hsplit : inner' ++ c.text :: ls = (inner' ++ [c.text]) ++ ls := by simp
    have hsplit' : inner' ++ d.text :: rest = (inner' ++ [d.text]) ++ rest := by simp
    rw [hsplit, hsplit', retagLines_append, retagLines_append] at hmsdef
    have hparts := (List.append_inj hmsdef (by simp [length_retagLines])).1
    obtain ⟨hinner, hclose⟩ := List.append_inj hparts (length_retagLines _ _).symm
    simp only [retagLines, List.cons.injEq, and_true] at hclose
    have hc : IsLine c.text ∨ '\n' ∉ c.text := by
      cases hlined with
      | last _ hx => exact .inr hx
      | line hl _ => exact .inl hl
    have hclosed : p.fence.ClosedBy (restOfLine d.text) := d.closedBy (f := p.fence) p.isMark_mark
    have hsame := retag_eq_of_closedBy hc (g := p.fence) p.isMark_mark (hclose ▸ hclosed)
    rw [retagLines_append, ← hinner]
    simp only [retagLines, hsame]
  · -- Without a closing line the run is prose, and no later block has its fence.
    obtain ⟨v, vs, hhead, -, hcodes⟩ := List.forall₂_cons_left_iff.mp h
    obtain ⟨q, rfl, hq⟩ := hhead.code
    have hmem : q.code (inner.flatten ++ c.kept) ∈ codes (segment (p.text :: ms).flatten) := by
      rw [hcodes]
      exact List.mem_cons_self
    obtain ⟨m, hm, hclosed⟩ := exists_closing_behind (hq.trans hfence.symm) hms hmem
    exact absurd hclosed (hnone m hm)

/-- A line that opens no block has its code behind the first phase, and opens none
either. -/
theorem codes_retagLines_line (open? : Option Fence) {x : Text} (hx : '\n' ∉ x) {ls : List Text}
    (hopen : ∀ o : OpeningLine, x ++ ['\n'] = o.text →
      ∀ m ∈ ls, ¬ o.fence.ClosedBy (restOfLine m)) (hls : Lined ls) :
    codes (segment (retagLines open? ((x ++ ['\n']) :: ls)).flatten) =
      codes (segment x) ++
        codes (segment (retagLines (retag open? (x ++ ['\n'])).2 ls).flatten) := by
  have hl : IsLine (x ++ ['\n']) := ⟨x, hx, rfl⟩
  obtain ⟨y, hy, hytext⟩ := isLine_retag hl open?
  have hbar : ∀ p : OpeningLine, y ++ ['\n'] = p.text →
      ∀ m ∈ retagLines (retag open? (x ++ ['\n'])).2 ls, ¬ p.fence.ClosedBy (restOfLine m) := by
    intro p hp m hm hclosed
    obtain ⟨o, ho, hfence⟩ := of_retag_opening hl (hytext.trans hp)
    have hmem := mem_of_mem_retagLines hls hm (g := p.fence) p.isMark_mark hclosed
    exact hopen o ho m hmem (hfence ▸ hclosed)
  rw [retagLines, hytext, codes_line hy hbar (lined_retagLines hls _), codes_retag hx hytext]

/-- The code of the rest of a document comes back behind the first phase exactly if every
block is kept. -/
theorem sameCodes_iff {ls : List Text} (h : Layout ls) {bs : List Text}
    (hbs : ∀ l ∈ bs, IsLine l) :
    List.Forall₂ SameCode (codes (segment ls.flatten))
        (codes (segment (retagLines (trackLines none bs) ls).flatten)) ↔
      Each Kept bs.flatten (segment ls.flatten) [] := by
  refine layout_induction (motive := fun bs ls =>
    List.Forall₂ SameCode (codes (segment ls.flatten))
        (codes (segment (retagLines (trackLines none bs) ls).flatten)) ↔
      Each Kept bs.flatten (segment ls.flatten) []) ?_ ?_ ?_ ?_ hbs h
  · intro bs
    rw [retagLines, List.flatten_nil, segment_nil]
    exact iff_of_true .nil trivial
  · intro bs x hne hx
    rw [retagLines, retag_last hx, retagLines, List.flatten_singleton]
    exact iff_of_true (List.forall₂_same.mpr fun u _ => .refl u) (each_inline kept_ofBlocks hx _ _)
  · intro bs x ls hx hopen h ih
    rw [trackLines_append] at ih
    rw [codes_retagLines_line _ hx hopen h.lined, codes_line hx hopen h.lined,
      forall₂_append_left SameCode.refl, each_line kept_ofBlocks hx hopen h.lined]
    exact ih
  · intro bs o inner c ls hbs hline hopen hlast h ih
    have hall : Lined ((o.text :: inner) ++ c.text :: ls) :=
      (Layout.block o c hline hopen hlast h).lined
    have hkept := kept_block o c hbs hline hall.of_append.2
    have hcode := codes_block o c hline hopen hlast
    rw [trackLines_append] at ih
    rw [each_block kept_ofBlocks o c hline hopen hlast, hkept, ← ih]
    constructor
    · intro hsame
      rw [hcode] at hsame
      have hblock := kept_of_same hline hall.of_append.2 hsame
      obtain ⟨p, -, -, hcodes⟩ := codes_kept (trackLines none bs) o c hline hopen hlast hblock
      rw [hcodes, List.forall₂_cons] at hsame
      exact ⟨hblock, hsame.2⟩
    · intro hboth
      obtain ⟨hblock, hrest⟩ := hboth
      obtain ⟨p, -, hp, hcodes⟩ := codes_kept (trackLines none bs) o c hline hopen hlast hblock
      rw [hcodes, hcode]
      exact .cons hp hrest

end MdxMend
