import MdxMend.Proofs.Spans

/-!
# What counts as code

`segment` is a scanner with four searches in it. This file says without the
scanner what it accepts and proves the two agree: every code span is a `Block`
or an `InlineCode`, standing where one may stand (`SpanFits`), and a run
of marks that is left in prose is one that nothing behind it closes.

The invariant of the scan has two parts. The flag it carries tells exactly
whether the line so far is indent, and the text in front of it never ends with
the mark that comes next, so that every run it meets is a whole one. The second
part is why a failed search may skip the run it was made for and nothing else.
-/

namespace MdxMend

open Text

/-! ## Runs -/

/-- A run of `mark` between two texts is as long as it can be. -/
structure Maximal (before : Text) (mark : Char) (after : Text) : Prop where
  front : before.getLast? ≠ some mark
  back : after.head? ≠ some mark

/-- What stands further in front makes no difference to a run that is whole. -/
theorem Maximal.of_append {a x y : Text} {mark : Char} (h : Maximal (a ++ x) mark y) :
    Maximal x mark y := by
  refine ⟨fun hlast => h.front ?_, h.back⟩
  rw [List.getLast?_append, hlast]
  rfl

/-- A whole run at the head of a text: another whole run in that text is either
this one or lies behind it. -/
theorem run_cases {c mark : Char} {k n : Nat} {p x y z : Text} (hn : 0 < n)
    (hp : (p ++ z).head? ≠ some c)
    (heq : List.replicate k c ++ p = x ++ (List.replicate n mark ++ y))
    (hmax : Maximal x mark (y ++ z)) :
    (x = [] ∧ mark = c ∧ n = k ∧ y = p) ∨
      ∃ x', x = List.replicate k c ++ x' ∧ p = x' ++ (List.replicate n mark ++ y) := by
  rcases List.append_eq_append_iff.mp heq with ⟨x', hx, hp'⟩ | ⟨r, hrun, hrest⟩
  · exact .inr ⟨x', hx, hp'⟩
  · rcases List.append_eq_replicate_iff.mp hrun.symm with ⟨-, hx, hr⟩
    cases r with
    | nil =>
        refine .inr ⟨[], ?_, ?_⟩
        · rw [List.append_nil, hrun, List.append_nil]
        · simpa using hrest.symm
    | cons d r =>
        obtain ⟨j, rfl⟩ : ∃ j, n = j + 1 := ⟨n - 1, by omega⟩
        have hd : d = c := (List.eq_replicate_iff.mp hr).2 d List.mem_cons_self
        have hmark : mark = c := by
          rw [List.replicate_succ, List.cons_append, List.cons_append] at hrest
          rw [← hd]
          exact (List.cons.inj hrest).1
        have hx0 : x = [] := by
          rcases List.eq_nil_or_concat x with h | ⟨init, d', h⟩
          · exact h
          · have hd' : d' = c := (List.eq_replicate_iff.mp hx).2 d' (by simp [h])
            refine absurd ?_ hmax.front
            rw [h, hmark, hd']
            simp
        subst hx0 hmark
        rw [List.nil_append] at heq
        have hall : ∀ m, ∀ e ∈ List.replicate m mark, (e == mark) = true := fun m e he => by
          simpa using List.eq_of_mem_replicate he
        have hstop : ∀ q : Text, q.head? ≠ some mark → ∀ e ∈ q.head?, (e == mark) = false := by
          intro q hq e he
          have : e ≠ mark := fun h => hq (h ▸ he)
          simpa using this
        have hlen := congrArg (fun t : Text => (t ++ z).takeWhile (· == mark)) heq
        simp only [List.append_assoc] at hlen
        rw [takeWhile_stop (hall _) (hstop _ hp), takeWhile_stop (hall _) (hstop _ hmax.back)]
          at hlen
        have hkj : k = j + 1 := by simpa using congrArg List.length hlen
        rw [hkj] at heq
        exact .inl ⟨rfl, rfl, hkj.symm, (List.append_cancel_left heq).symm⟩

/-! ## Openers -/

/-- Only indent stands on the last line of a text. -/
def OnIndent (before : Text) : Prop := ∀ c ∈ lastLine before, isIndent c = true

theorem onIndent_nil : OnIndent [] := fun _ hc => absurd hc List.not_mem_nil

theorem onIndent_newline (before : Text) : OnIndent (before ++ ['\n']) := by
  rw [OnIndent, lastLine_newline]
  exact fun c hc => absurd hc List.not_mem_nil

theorem onIndent_append {x : Text} (hx : '\n' ∉ x) (before : Text) :
    OnIndent (before ++ x) ↔ OnIndent before ∧ ∀ c ∈ x, isIndent c = true := by
  simp only [OnIndent, lastLine_append hx, List.mem_append, or_imp, forall_and]

/-- A text whose last character is a mark does not end in indent. -/
theorem not_onIndent_of_mark {c : Char} (hc : isMark c = true) {before : Text}
    (h : before.getLast? = some c) : ¬ OnIndent before := by
  obtain ⟨init, rfl⟩ := List.getLast?_eq_some_iff.mp h
  rw [onIndent_append (by simpa using (ne_newline_of_isMark hc).symm)]
  intro hind
  have := hind.2 c (by simp)
  rw [isIndent_of_isMark hc] at this
  exact absurd this (by simp)

/-- A run that opens a fenced block: three marks or more with nothing but
indent before them on their line, and for backticks no further one behind. -/
structure Fence.IsOpener (f : Fence) (before after : Text) : Prop where
  three_le : minLength ≤ f.length
  indent : OnIndent before
  info : f.mark = backtick → backtick ∉ restOfLine after

theorem Fence.opens_iff {atIndent : Bool} {before : Text}
    (hflag : atIndent = true ↔ OnIndent before) {mark : Char} {n : Nat} {after : Text} :
    Fence.opens atIndent mark n after = true ↔ Fence.IsOpener ⟨mark, n⟩ before after := by
  simp only [opens, Bool.and_eq_true, decide_eq_true_eq, hflag, Bool.or_eq_true, bne_iff_ne,
    Bool.not_eq_true', List.contains_eq_mem, decide_eq_false_iff_not]
  constructor
  · intro h
    obtain ⟨⟨hlen, hind⟩, hinfo⟩ := h
    exact ⟨hlen, hind, fun hm => hinfo.resolve_left fun h => h hm⟩
  · intro h
    obtain ⟨hlen, hind, hinfo⟩ := h
    refine ⟨⟨hlen, hind⟩, ?_⟩
    by_cases hm : mark = backtick
    · exact .inr (hinfo hm)
    · exact .inl hm

/-! ## Code -/

/-- A fenced block: the opening run and what follows it on its line, lines that
do not close it, and the indent and the run of the line that does. -/
structure Block where
  fence : Fence
  info : Text
  inner : List Text
  indent : Text
  closing : Nat
  isMark_mark : isMark fence.mark = true
  newline_info : '\n' ∉ info
  isLine_inner : ∀ l ∈ inner, IsLine l
  open_inner : ∀ l ∈ inner, ¬ fence.ClosedBy (restOfLine l)
  isIndent_indent : ∀ c ∈ indent, isIndent c = true
  length_le : fence.length ≤ closing

namespace Block

/-- The lines behind the opening one, up to the end of the closing run. -/
def body (b : Block) : Text :=
  b.inner.flatten ++ (b.indent ++ List.replicate b.closing b.fence.mark)

def content (b : Block) : Text :=
  List.replicate b.fence.length b.fence.mark ++ (b.info ++ '\n' :: b.body)

/-- Where a block may stand: its opening run is whole and opens a fence, and
only blanks share a line with its closing run. -/
structure StandsBetween (b : Block) (before after : Text) : Prop where
  maximal : Maximal before b.fence.mark (b.info ++ ['\n'])
  opener : b.fence.IsOpener before (b.info ++ ['\n'])
  blanks : ∃ blanks rest, after = blanks ++ rest ∧
    (∀ c ∈ blanks, Fence.isClosingBlank c = true) ∧ ∀ c ∈ rest.head?, c = '\n'

end Block

/-- Inline code: two runs of equally many backticks on one line, and between
them no whole run of that length. -/
structure InlineCode where
  length : Nat
  inner : Text
  pos : 0 < length
  newline_inner : '\n' ∉ inner
  first : ∀ x y, inner = x ++ (List.replicate length backtick ++ y) →
    ¬ Maximal x backtick (y ++ [backtick])

namespace InlineCode

def content (i : InlineCode) : Text :=
  List.replicate i.length backtick ++ (i.inner ++ List.replicate i.length backtick)

/-- Where inline code may stand: both its runs are whole, and the first does not
open a fence. -/
structure StandsBetween (i : InlineCode) (before after : Text) : Prop where
  opening : Maximal before backtick (i.inner ++ List.replicate i.length backtick)
  closing : Maximal i.inner backtick after
  not_opener : ¬ Fence.IsOpener ⟨backtick, i.length⟩ before
    (i.inner ++ (List.replicate i.length backtick ++ after))

end InlineCode

/-- A run that nothing behind it closes. -/
structure Fence.Unclosed (f : Fence) (before after : Text) : Prop where
  block : f.IsOpener before after → ∀ l ∈ (lines after).tail, ¬ f.ClosedBy (restOfLine l)
  inline : ¬ f.IsOpener before after → f.mark = backtick → ∀ x y,
    restOfLine after = x ++ (List.replicate f.length backtick ++ y) →
      ¬ Maximal x backtick y

/-- What may stand between two texts as code, and what may be left as prose. -/
def SpanFits (before : Text) (span : Span) (after : Text) : Prop :=
  match span with
  | .code t =>
    (∃ b : Block, t = b.content ∧ b.StandsBetween before after) ∨
      ∃ i : InlineCode, t = i.content ∧ i.StandsBetween before after
  | .prose t => ∀ x mark n y, t = x ++ (List.replicate n mark ++ y) → 0 < n →
    isMark mark = true → Maximal (before ++ x) mark (y ++ after) →
      Fence.Unclosed ⟨mark, n⟩ (before ++ x) (y ++ after)

/-! ## The searches -/

/-- A block that is found fits, once its opening run is known to. -/
theorem Fence.block?_fits {f : Fence} (hm : isMark f.mark = true) {before after : Text}
    (hmax : Maximal before f.mark after) (hopen : f.IsOpener before after)
    {code rest : Text} (h : f.block? after = some (code, rest)) :
    ∃ b : Block, List.replicate f.length f.mark ++ code = b.content ∧
      b.StandsBetween before rest := by
  have hpos : 0 < f.length := Nat.lt_of_lt_of_le (by decide) hopen.three_le
  by_cases hnl : '\n' ∈ after
  · obtain ⟨info, s, rfl, hinfo⟩ := List.eq_append_cons_of_mem hnl
    rcases division_or_open hm hpos s with ⟨⟨d⟩⟩ | hnone
    · rw [block?_of_division hm hpos hinfo d] at h
      simp only [Option.some.injEq, Prod.mk.injEq] at h
      obtain ⟨rfl, rfl⟩ := h
      refine ⟨{ fence := f, info, inner := d.inner, indent := d.indent, closing := d.closing,
                isMark_mark := hm, newline_info := hinfo, isLine_inner := d.isLine_inner,
                open_inner := d.open_inner, isIndent_indent := d.isIndent_indent,
                length_le := d.length_le }, rfl, ?_⟩
      have hline : restOfLine (info ++ '\n' :: s) = restOfLine (info ++ ['\n']) := by
        rw [restOfLine_append hinfo, restOfLine_append hinfo]
        rfl
      refine ⟨⟨hmax.front, ?_⟩, ⟨hopen.three_le, hopen.indent, ?_⟩, d.blanks, d.rest, rfl,
        d.isClosingBlank_blanks, d.head?_rest⟩
      · have := hmax.back
        cases info <;> simpa using this
      · rw [← hline]
        exact hopen.info
    · rw [block?_of_open hm hinfo hpos hnone] at h
      cases h
  · rw [block?_last hnl] at h
    cases h

/-- Where no block is found, no later line closes the fence. -/
theorem Fence.block?_eq_none {f : Fence} (hm : isMark f.mark = true) (hpos : 0 < f.length)
    {after : Text} (h : f.block? after = none) :
    ∀ l ∈ (lines after).tail, ¬ f.ClosedBy (restOfLine l) := by
  by_cases hnl : '\n' ∈ after
  · obtain ⟨info, s, rfl, hinfo⟩ := List.eq_append_cons_of_mem hnl
    have hlines : lines (info ++ '\n' :: s) = (info ++ ['\n']) :: lines s := by
      rw [← lines_line ⟨info, hinfo, rfl⟩, List.append_assoc, List.singleton_append]
    rw [hlines, List.tail_cons]
    rcases division_or_open hm hpos s with ⟨⟨d⟩⟩ | hnone
    · rw [block?_of_division hm hpos hinfo d] at h
      cases h
    · exact hnone
  · intro l hl
    by_cases hne : after = []
    · rw [hne] at hl
      cases hl
    · rw [lines_last hne hnl] at hl
      cases hl

/-- Inline code that is found: the run that ends it is the first whole one of
its length. -/
theorem inlineCode?_fits {n : Nat} (hn : 0 < n) {s code rest : Text}
    (h : inlineCode? n s = some (code, rest)) :
    ∃ inner, code = inner ++ List.replicate n backtick ∧ '\n' ∉ inner ∧
      Maximal inner backtick rest ∧
      ∀ x y, inner = x ++ (List.replicate n backtick ++ y) →
        ¬ Maximal x backtick (y ++ [backtick]) := by
  induction s using run_induction backtick generalizing code rest with
  | nil =>
      rw [inlineCode?] at h
      cases h
  | other c s hc ih =>
      by_cases hnl : c = '\n'
      · rw [hnl, inlineCode?_newline] at h
        cases h
      · rw [inlineCode?_other hnl hc] at h
        simp only [Option.map_eq_some_iff, Prod.exists, Prod.mk.injEq] at h
        obtain ⟨code', rest', h, rfl, rfl⟩ := h
        obtain ⟨inner, rfl, hinner, hmax, hfirst⟩ := ih h
        refine ⟨c :: inner, rfl, ?_, ⟨?_, hmax.back⟩, ?_⟩
        · simp only [List.mem_cons, not_or]
          exact ⟨fun h => hnl h.symm, hinner⟩
        · have := hmax.front
          cases inner with
          | nil => simpa using hc
          | cons d inner => simpa using this
        · intro x y hxy hmax'
          cases x with
          | nil =>
              obtain ⟨j, rfl⟩ : ∃ j, n = j + 1 := ⟨n - 1, by omega⟩
              exact hc (List.cons.inj hxy).1
          | cons d x =>
              exact hfirst x y (List.cons.inj hxy).2 (Maximal.of_append (a := [d]) hmax')
  | run k s hk hs ih =>
      rw [inlineCode?_run hk hs] at h
      split at h
      · next hkn =>
          simp only [Option.some.injEq, Prod.mk.injEq] at h
          obtain ⟨rfl, rfl⟩ := h
          refine ⟨[], by rw [hkn]; rfl, List.not_mem_nil, ⟨by simp, hs⟩, fun x y hxy => ?_⟩
          have := congrArg List.length hxy
          simp only [List.length_nil, List.length_append, List.length_replicate] at this
          omega
      · next hkn =>
          simp only [Option.map_eq_some_iff, Prod.exists, Prod.mk.injEq] at h
          obtain ⟨code', rest', h, rfl, rfl⟩ := h
          have hsplit := inlineCode?_split h
          obtain ⟨inner, rfl, hinner, hmax, hfirst⟩ := ih h
          have hhead : (inner ++ [backtick]).head? ≠ some backtick := by
            rw [hsplit] at hs
            obtain ⟨j, rfl⟩ : ∃ j, n = j + 1 := ⟨n - 1, by omega⟩
            cases inner with
            | nil => simp [List.replicate_succ] at hs
            | cons d inner => simpa using hs
          have hne : inner ≠ [] := by
            intro heq
            subst heq
            exact hhead rfl
          refine ⟨List.replicate k backtick ++ inner, by rw [List.append_assoc], ?_,
            ⟨?_, hmax.back⟩, ?_⟩
          · rw [List.mem_append, not_or]
            refine ⟨fun hmem => ?_, hinner⟩
            exact absurd (List.eq_of_mem_replicate hmem) (by decide)
          · rw [List.getLast?_append_of_ne_nil _ hne]
            exact hmax.front
          · intro x y hxy hmax'
            rcases run_cases hn hhead hxy hmax' with ⟨-, -, hnk, -⟩ | ⟨x', rfl, hinner'⟩
            · exact hkn hnk.symm
            · exact hfirst x' y hinner' hmax'.of_append

/-- Where no inline code is found, no whole run of that length follows on the
line. -/
theorem inlineCode?_eq_none {n : Nat} (hn : 0 < n) {s : Text} (h : inlineCode? n s = none) :
    ∀ x y, restOfLine s = x ++ (List.replicate n backtick ++ y) →
      ¬ Maximal x backtick y := by
  have hne : ∀ x y : Text, [] ≠ x ++ (List.replicate n backtick ++ y) := by
    intro x y hxy
    have := congrArg List.length hxy
    simp only [List.length_nil, List.length_append, List.length_replicate] at this
    omega
  induction s using run_induction backtick with
  | nil => exact fun x y hxy _ => hne x y hxy
  | other c s hc ih =>
      by_cases hnl : c = '\n'
      · rw [hnl, restOfLine_newline]
        exact fun x y hxy _ => hne x y hxy
      · rw [inlineCode?_other hnl hc, Option.map_eq_none_iff] at h
        have hline := restOfLine_append (x := [c]) (by simpa using fun h => hnl h.symm) s
        rw [List.singleton_append] at hline
        intro x y hxy hmax
        rw [hline] at hxy
        cases x with
        | nil =>
            obtain ⟨j, rfl⟩ : ∃ j, n = j + 1 := ⟨n - 1, by omega⟩
            exact hc (List.cons.inj hxy).1
        | cons d x =>
            exact ih h x y (List.cons.inj hxy).2 (Maximal.of_append (a := [d]) hmax)
  | run k s hk hs ih =>
      rw [inlineCode?_run hk hs] at h
      split at h
      · cases h
      · next hkn =>
          rw [Option.map_eq_none_iff] at h
          have hmarks : '\n' ∉ List.replicate k backtick := fun hmem =>
            absurd (List.eq_of_mem_replicate hmem) (by decide)
          intro x y hxy hmax
          rw [restOfLine_append hmarks] at hxy
          have hhead : (restOfLine s ++ []).head? ≠ some backtick := by
            rw [List.append_nil]
            intro hb
            refine hs ?_
            rw [restOfLine, List.head?_takeWhile, Option.filter_eq_some_iff] at hb
            exact hb.1
          have hmax' : Maximal x backtick (y ++ []) := by rwa [List.append_nil]
          rcases run_cases hn hhead hxy hmax' with ⟨-, -, hnk, -⟩ | ⟨x', rfl, hrest⟩
          · exact hkn hnk.symm
          · exact ih h x' y hrest hmax.of_append

/-- Code that is found fits, and the text behind it does not go on with the mark
it ends on. -/
theorem codeAfter?_fits {atIndent : Bool} {before : Text}
    (hflag : atIndent = true ↔ OnIndent before) {c : Char} (hc : isMark c = true) {k : Nat}
    (hk : 0 < k) {s : Text} (hmax : Maximal before c s) {code rest : Text}
    (h : codeAfter? atIndent c k s = some (code, rest)) :
    SpanFits before (.code (List.replicate k c ++ code)) rest ∧
      ∃ e, isMark e = true ∧ (List.replicate k c ++ code).getLast? = some e ∧
        rest.head? ≠ some e := by
  have hlast : ∀ (x : Text) {n : Nat} (e : Char), 0 < n →
      (x ++ List.replicate n e).getLast? = some e := by
    intro x n e hn
    obtain ⟨j, rfl⟩ : ∃ j, n = j + 1 := ⟨n - 1, by omega⟩
    rw [List.replicate_succ', ← List.append_assoc, List.getLast?_concat]
  unfold codeAfter? at h
  split at h
  · next hopens =>
      have hopen := (Fence.opens_iff hflag).mp hopens
      obtain ⟨b, hb, hstands⟩ := Fence.block?_fits (f := ⟨c, k⟩) hc hmax hopen h
      refine ⟨.inl ⟨b, hb, hstands⟩, b.fence.mark, b.isMark_mark, ?_, ?_⟩
      · have hpos : 0 < b.closing := by
          have := hstands.opener.three_le
          have := b.length_le
          simp only [Fence.minLength] at *
          omega
        change (List.replicate k c ++ code) = _ at hb
        rw [hb, Block.content, Block.body, ← hlast (List.replicate b.fence.length b.fence.mark ++
          (b.info ++ '\n' :: (b.inner.flatten ++ b.indent))) b.fence.mark hpos]
        simp only [List.append_assoc, List.cons_append]
      · obtain ⟨blanks, tail, rfl, hblanks, htail⟩ := hstands.blanks
        intro he
        cases blanks with
        | nil => exact ne_newline_of_isMark b.isMark_mark (htail _ he)
        | cons d blanks =>
            have hd : d = b.fence.mark := by simpa using he
            have := hblanks d List.mem_cons_self
            rw [hd, Fence.isClosingBlank_of_isMark b.isMark_mark] at this
            exact absurd this (by simp)
  · next hopens =>
      split at h
      · next hback =>
          obtain rfl : c = backtick := by simpa using hback
          have hsplit := inlineCode?_split h
          obtain ⟨inner, rfl, hinner, hend, hfirst⟩ := inlineCode?_fits hk h
          refine ⟨.inr ⟨{ length := k, inner, pos := hk, newline_inner := hinner,
                          first := hfirst }, rfl, ⟨hmax.front, ?_⟩, hend, ?_⟩,
            backtick, hc, ?_, hend.back⟩
          · have hback := hmax.back
            rw [hsplit] at hback
            cases inner with
            | nil =>
                obtain ⟨j, rfl⟩ : ∃ j, k = j + 1 := ⟨k - 1, by omega⟩
                simp [List.replicate_succ] at hback
            | cons d inner => simpa using hback
          · intro hopen
            refine hopens ((Fence.opens_iff hflag).mpr ?_)
            rwa [hsplit, List.append_assoc]
          · rw [← List.append_assoc]
            exact hlast _ backtick hk
      · cases h

/-- A run that opens no code is closed by nothing. -/
theorem codeAfter?_eq_none {atIndent : Bool} {before : Text}
    (hflag : atIndent = true ↔ OnIndent before) {c : Char} (hc : isMark c = true) {k : Nat}
    (hk : 0 < k) {s : Text} (h : codeAfter? atIndent c k s = none) :
    Fence.Unclosed ⟨c, k⟩ before s := by
  unfold codeAfter? at h
  constructor
  · intro hopen
    rw [if_pos ((Fence.opens_iff hflag).mpr hopen)] at h
    exact Fence.block?_eq_none hc hk h
  · intro hopen hback
    obtain rfl : c = backtick := hback
    rw [if_neg fun ho => hopen ((Fence.opens_iff hflag).mp ho), if_pos (by simp)] at h
    exact inlineCode?_eq_none hk h

/-- What the scan keeps: every span fits its place, as long as the flag tells
whether the line so far is indent and no run is entered in its middle. -/
theorem spanFits_segmentFrom (atIndent : Bool) (s : Text) : ∀ before : Text,
    (atIndent = true ↔ OnIndent before) →
    (∀ c ∈ s.head?, isMark c = true → before.getLast? ≠ some c) →
    Each SpanFits before (segmentFrom atIndent s) [] := by
  induction atIndent, s using segment_induction with
  | nil atIndent =>
      intro before _ _
      rw [segmentFrom_nil]
      trivial
  | other atIndent c s hc ih =>
      intro before hflag _
      have hind : (c == '\n' || (atIndent && isIndent c)) = true ↔ OnIndent (before ++ [c]) := by
        by_cases hnl : c = '\n'
        · subst hnl
          simpa using onIndent_newline before
        · have hmem : '\n' ∉ [c] := by simpa using fun h => hnl h.symm
          simp [onIndent_append hmem, hnl, hflag]
      have hrun : ∀ d ∈ s.head?, isMark d = true → (before ++ [c]).getLast? ≠ some d := by
        intro d _ hd hlast
        obtain rfl : c = d := by simpa using hlast
        rw [hc] at hd
        exact absurd hd (by simp)
      rw [segmentFrom_other hc]
      refine Each.joinProse ?_ ?_ (ih _ hind hrun)
      · intro p rest _ hp x mark n y hxy hn hmark hmax
        cases x with
        | nil =>
            obtain ⟨j, rfl⟩ : ∃ j, n = j + 1 := ⟨n - 1, by omega⟩
            obtain rfl : c = mark := (List.cons.inj hxy).1
            rw [hc] at hmark
            exact absurd hmark (by simp)
        | cons d x =>
            obtain ⟨rfl, hp'⟩ := List.cons.inj hxy
            rw [← List.singleton_append (l := x), ← List.append_assoc] at hmax ⊢
            exact hp x mark n y hp' hn hmark hmax
      · intro x mark n y hxy hn
        have := congrArg List.length hxy
        simp only [List.length_nil, List.length_append, List.length_replicate] at this
        omega
  | code atIndent c k s code rest hc hk hs h ih =>
      intro before hflag hrun
      obtain ⟨j, rfl⟩ : ∃ j, k = j + 1 := ⟨k - 1, by omega⟩
      have hmax : Maximal before c s := ⟨hrun c rfl hc, hs⟩
      obtain ⟨hfits, e, he, hlast, hrest⟩ := codeAfter?_fits hflag hc hk hmax h
      have hlast' : (before ++ (List.replicate (j + 1) c ++ code)).getLast? = some e := by
        rw [List.getLast?_append, hlast]
        rfl
      rw [segmentFrom_run hc hk hs, h]
      refine ⟨?_, ih _ ?_ ?_⟩
      · rwa [reassemble_segmentFrom, List.append_nil]
      · rw [Span.content]
        simpa using not_onIndent_of_mark he hlast'
      · intro d hd _ heq
        rw [Span.content, hlast'] at heq
        exact hrest (heq.symm ▸ hd)
  | left atIndent c k s hc hk hs h ih =>
      intro before hflag hrun
      obtain ⟨j, rfl⟩ : ∃ j, k = j + 1 := ⟨k - 1, by omega⟩
      have hlast : (before ++ List.replicate (j + 1) c).getLast? = some c := by
        rw [List.replicate_succ', ← List.append_assoc, List.getLast?_concat]
      have hunclosed := codeAfter?_eq_none hflag hc hk h
      rw [segmentFrom_run hc hk hs, h]
      refine Each.joinProse ?_ ?_ (ih _ ?_ ?_)
      · -- A run in the longer prose is the one that opened nothing, or stands behind it.
        intro p rest hsplit hp x mark n y hxy hn hmark hmax
        rw [reassemble_segmentFrom, List.append_nil] at hsplit
        have hhead : (p ++ rest).head? ≠ some c := by rwa [hsplit]
        rcases run_cases hn hhead hxy hmax.of_append with
          ⟨rfl, rfl, rfl, rfl⟩ | ⟨x', rfl, hp'⟩
        · rwa [List.append_nil, hsplit]
        · rw [← List.append_assoc] at hmax ⊢
          exact hp x' mark n y hp' hn hmark hmax
      · intro x mark n y hxy hn
        have := congrArg List.length hxy
        simp only [List.length_nil, List.length_append, List.length_replicate] at this
        omega
      · simpa using not_onIndent_of_mark hc hlast
      · intro d hd _ heq
        rw [hlast] at heq
        exact hs (heq.symm ▸ hd)

theorem each_spanFits_segment (t : Text) : Each SpanFits [] (segment t) [] :=
  spanFits_segmentFrom true t [] (by simpa using onIndent_nil) fun _ _ _ => by simp

/-- The spans of a document are the document, and each of them fits the place
where it stands: code is a fenced block up to the first line that closes it, or
inline code up to the first whole run of its length; and of the runs left in
prose none is closed by anything behind it. -/
theorem segment_fits (t : Text) :
    reassemble (segment t) = t ∧
      ∀ pre span post, segment t = pre ++ span :: post →
        SpanFits (reassemble pre) span (reassemble post) := by
  refine ⟨reassemble_segment t, fun pre span post h => ?_⟩
  have := each_iff.mp (each_spanFits_segment t) pre span post h
  rwa [List.nil_append, List.append_nil] at this

/-- A stray backtick, a block with another one in it, and inline code behind. -/
theorem segment_fits_block :
    segment "a `\n```\nb `c\n  ````\nd `e`".toList =
        [.prose "a `\n".toList] ++ .code "```\nb `c\n  ````".toList ::
          [.prose "\nd ".toList, .code "`e`".toList] ∧
      SpanFits (reassemble [.prose "a `\n".toList]) (.code "```\nb `c\n  ````".toList)
        (reassemble [.prose "\nd ".toList, .code "`e`".toList]) := by
  have h : segment "a `\n```\nb `c\n  ````\nd `e`".toList =
      [.prose "a `\n".toList] ++ .code "```\nb `c\n  ````".toList ::
        [.prose "\nd ".toList, .code "`e`".toList] := by decide +kernel
  exact ⟨h, (segment_fits _).2 _ _ _ h⟩

end MdxMend
