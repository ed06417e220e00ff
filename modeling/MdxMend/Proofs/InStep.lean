import MdxMend.Proofs.Disturbance

/-!
# Where the walk and the scan agree

The walk over fence lines and the scan for blocks read a closing line
differently only where blanks other than spaces and tabs stand in it, or a
carriage return that belongs to no line break. On a fence line, which has no
such return, the walk is the more lenient: any blank will do behind the run,
while the scan wants a space or a tab. Without those blanks the walk stays in
step: it has a fence open behind a block only if it had one in front of it, and
then it is one that nothing further down closes, so it stays open to the end
and no line is changed any more. What is said here of a whole document rests on
`InStep`, which a line preserves and a block restores.
-/

namespace MdxMend

open Text

/-- The blanks of the text are spaces, tabs and line breaks. -/
def Ordinary (t : Text) : Prop :=
  ∀ x c y, t = x ++ c :: y → isBlank c = true →
    isIndent c = true ∨ c = '\n' ∨ c = '\r' ∧ y.head? = some '\n'

theorem ordinary_cons {c : Char} {t : Text} :
    Ordinary (c :: t) ↔
      (isBlank c = true → isIndent c = true ∨ c = '\n' ∨ c = '\r' ∧ t.head? = some '\n') ∧
        Ordinary t := by
  constructor
  · intro h
    refine ⟨h [] c t rfl, fun x d y hsplit => h (c :: x) d y ?_⟩
    rw [hsplit, List.cons_append]
  · intro h x d y hsplit
    cases x with
    | nil =>
        obtain ⟨rfl, rfl⟩ := List.cons.inj hsplit
        exact h.1
    | cons e x => exact h.2 x d y (List.cons.inj hsplit).2

instance decidableOrdinary : ∀ t : Text, Decidable (Ordinary t)
  | [] => isTrue fun x c y h => by simp at h
  | _ :: t =>
    have := decidableOrdinary t
    decidable_of_iff _ ordinary_cons.symm

theorem ordinary_append {a : Text} (hreturn : '\r' ∉ a) (hnewline : '\n' ∉ a) (b : Text) :
    Ordinary (a ++ b) ↔ (∀ c ∈ a, isBlank c = true → isIndent c = true) ∧ Ordinary b := by
  induction a with
  | nil => simp
  | cons c a ih =>
      rw [List.mem_cons, not_or] at hreturn hnewline
      rw [List.cons_append, ordinary_cons, ih hreturn.2 hnewline.2, List.forall_mem_cons,
        and_assoc]
      simp only [Ne.symm hreturn.1, Ne.symm hnewline.1, false_and, or_false]

theorem isBlank_of_isIndent {c : Char} (h : isIndent c = true) : isBlank c = true := by
  simp only [isIndent, Bool.or_eq_true, beq_iff_eq] at h
  rcases h with rfl | rfl <;> rfl

theorem Ordinary.line {l : Text} (hl : IsLine l) {a s : Text} (h : Ordinary (a ++ (l ++ s))) :
    Ordinary l := by
  intro x c y hsplit hblank
  have hwhole : a ++ (l ++ s) = (a ++ x) ++ c :: (y ++ s) := by simp [hsplit]
  refine (h _ c _ hwhole hblank).imp_right (Or.imp_right fun ⟨hc, hhead⟩ => ⟨hc, ?_⟩)
  cases y with
  | nil =>
      obtain ⟨z, -, rfl⟩ := hl
      have hlast := congrArg List.getLast? hsplit
      rw [List.getLast?_concat, List.getLast?_concat, hc] at hlast
      cases hlast
  | cons d y => exact hhead

theorem Ordinary.lines {t : Text} (h : Ordinary t) : ∀ l ∈ Text.lines t, IsLine l → Ordinary l := by
  intro l hmem hl
  obtain ⟨as, bs, hsplit⟩ := List.append_of_mem hmem
  have ht := flatten_lines t
  rw [hsplit, List.flatten_append, List.flatten_cons] at ht
  rw [← ht] at h
  exact h.line hl

/-! ## Ordinary lines -/

/-- What stands in front of the line break, where that may have a carriage return. -/
theorem exists_lineBreak {t : Text} (h : '\r' ∉ t.dropLast) :
    ∃ tag eol, t ++ ['\n'] = tag ++ eol ∧ tag <+: t ∧ '\r' ∉ tag ∧
      (eol = ['\n'] ∨ eol = ['\r', '\n']) := by
  rcases List.eq_nil_or_concat t with rfl | ⟨init, c, hcat⟩
  · exact ⟨[], ['\n'], rfl, List.nil_prefix, List.not_mem_nil, .inl rfl⟩
  · rw [List.concat_eq_append] at hcat
    subst hcat
    rw [List.dropLast_concat] at h
    by_cases hc : c = '\r'
    · exact ⟨init, ['\r', '\n'], by rw [hc]; simp, List.prefix_append _ _, h, .inr rfl⟩
    · refine ⟨init ++ [c], ['\n'], rfl, List.prefix_rfl, ?_, .inl rfl⟩
      rw [List.mem_append, not_or]
      exact ⟨h, by simpa using fun h => hc h.symm⟩

/-- An opening line is a fence line unless a carriage return stands within it. -/
theorem OpeningLine.exists_fenceLine {o : OpeningLine} (h : '\r' ∉ o.info.dropLast) :
    ∃ f : FenceLine, o.text = f.text := by
  obtain ⟨tag, eol, hinfo, hpre, htag, heol⟩ := exists_lineBreak h
  refine ⟨{ indent := o.indent, mark := o.mark, count := o.count, tag, eol,
            isIndent_indent := o.isIndent_indent, isMark_mark := o.isMark_mark,
            three_le := o.three_le, eol_cases := heol, isTagChar_tag := ?_, head?_tag := ?_ }, ?_⟩
  · intro c hc
    have hcr : c ≠ '\r' := fun h => htag (h ▸ hc)
    have hnl : c ≠ '\n' := fun h => o.newline_info (h ▸ hpre.mem hc)
    by_cases hmark : o.mark = backtick
    · have hback : c ≠ backtick := fun h => o.backtick_info hmark (h ▸ hpre.mem hc)
      simp [Builtin.isTagChar, hnl, hcr, hback]
    · simp [Builtin.isTagChar, hnl, hcr, hmark]
  · intro hhead
    obtain ⟨rest, hrest⟩ := hpre
    refine o.head?_info ?_
    rw [← hrest, List.head?_append, hhead]
    rfl
  · exact congrArg (fun u => o.indent ++ (List.replicate o.count o.mark ++ u)) hinfo

theorem Ordinary.not_mem_info {o : OpeningLine} (h : Ordinary o.text) :
    '\r' ∉ o.info.dropLast := by
  intro hmem
  obtain ⟨a, b, z, hz⟩ : ∃ a b z, o.info = a ++ '\r' :: (b ++ [z]) := by
    rcases List.eq_nil_or_concat o.info with hnil | ⟨init, z, hcat⟩
    · rw [hnil] at hmem
      cases hmem
    · rw [List.concat_eq_append] at hcat
      rw [hcat, List.dropLast_concat] at hmem
      obtain ⟨a, b, rfl⟩ := List.append_of_mem hmem
      exact ⟨a, b, z, by rw [hcat]; simp⟩
  have hsplit : o.text = (o.indent ++ (List.replicate o.count o.mark ++ a)) ++
      '\r' :: ((b ++ [z]) ++ ['\n']) := by
    rw [OpeningLine.text, hz]
    simp
  rcases h _ _ _ hsplit (by decide) with h | h | ⟨-, h⟩
  · exact absurd h (by decide)
  · exact absurd h (by decide)
  · refine o.newline_info ?_
    rw [hz]
    cases b with
    | nil => simp_all
    | cons d b => simp_all

/-- A fence that a line can open. -/
structure Fence.Drawn (f : Fence) : Prop where
  isMark_mark : isMark f.mark = true
  three_le : Fence.minLength ≤ f.length

theorem OpeningLine.drawn (o : OpeningLine) : o.fence.Drawn := ⟨o.isMark_mark, o.three_le⟩

/-- A line that closes a fence looks like one that opens a fence. -/
theorem Fence.ClosedBy.opening {f : Fence} (hf : f.Drawn) {l : Text} (hl : IsLine l)
    (h : f.ClosedBy (restOfLine l)) :
    ∃ o : OpeningLine, l = o.text ∧ o.mark = f.mark ∧ f.length ≤ o.count ∧
      ∀ c ∈ o.info, isClosingBlank c = true := by
  obtain ⟨indent, n, blanks, hline, hindent, hn, hblanks⟩ := h
  have hforeign : ∀ c, isMark c = true → c ∉ blanks := by
    intro c hc hmem
    rw [not_isMark_of_isClosingBlank (hblanks c hmem)] at hc
    cases hc
  refine ⟨{ indent, mark := f.mark, count := n, info := blanks
            isIndent_indent := hindent
            isMark_mark := hf.isMark_mark
            three_le := hf.three_le.trans hn
            newline_info := fun hmem => ne_newline_of_isClosingBlank (hblanks _ hmem) rfl
            head?_info := fun hhead => hforeign _ hf.isMark_mark (List.mem_of_mem_head? hhead)
            backtick_info := fun hmark hmem => hforeign _ (hmark ▸ hf.isMark_mark) hmem },
          ?_, rfl, hn, hblanks⟩
  rw [isLine_iff.mp hl, hline]
  simp [OpeningLine.text]

/-- Whether a fence line is ordinary hangs on its tag. -/
theorem FenceLine.ordinary_text (l : FenceLine) :
    Ordinary l.text ↔ ∀ c ∈ l.tag, isBlank c = true → isIndent c = true := by
  have hmarks : ∀ c ∈ List.replicate l.count l.mark, isBlank c = true → isIndent c = true := by
    intro c hc hblank
    rw [List.eq_of_mem_replicate hc, isBlank_of_isMark l.isMark_mark] at hblank
    cases hblank
  have heol : Ordinary l.eol := by
    rcases l.eol_cases with h | h <;> rw [h] <;> decide
  rw [l.text_eq, ordinary_append l.return_not_mem_front l.newline_not_mem_front,
    and_iff_left heol, front, List.forall_mem_append, List.forall_mem_append,
    and_iff_right fun c hc _ => l.isIndent_indent c hc, and_iff_right hmarks]

/-- A fence line closes for the scan what it closes for the walk, provided it is ordinary. -/
theorem FenceLine.isSome_closer?_iff_closes (l : FenceLine) (f : Fence) (s : Text) :
    (f.closer? (l.text ++ s)).isSome = true ↔ l.Closes f ∧ Ordinary l.text := by
  rw [l.isSome_closer?, l.ordinary_text, Closes, and_assoc, and_assoc]
  refine and_congr_right fun _ => and_congr_right fun _ => ?_
  constructor
  · intro h
    exact ⟨fun c hc => isBlank_of_isIndent (h c hc), fun c hc _ => h c hc⟩
  · intro h c hc
    exact h.2 c hc (h.1 c hc)

/-- An ordinary fence line closes for the walk what it closes for the scan. -/
theorem FenceLine.closes_iff {l : FenceLine} (hord : Ordinary l.text) {f : Fence}
    (hf : f.Drawn) : l.Closes f ↔ f.ClosedBy (restOfLine l.text) := by
  have hpos : 0 < f.length := Nat.lt_of_lt_of_le (by decide) hf.three_le
  have h := l.isSome_closer?_iff_closes f []
  rw [List.append_nil, Fence.isSome_closer?_iff hf.isMark_mark hpos, and_iff_left hord] at h
  exact h.symm

/-- On a fence line both readings close a fence at a run of its mark, at least as long, with blanks
behind it. For the scan these have to be spaces and tabs; so the two agree exactly if a line that
the walk takes for the closing one is ordinary. -/
theorem Fence.closings_agree_iff (f : Fence) {p : Place} {σ : Sighting}
    (h : Builtin.fenceLineAt? p = some σ) :
    let line := p.after.take σ.length
    let walkCloses := (Fence.track (some f) line).2 = none
    let scanCloses := (f.closer? p.after).isSome = true
    ∃ l : FenceLine, line = l.text ∧ (walkCloses ↔ l.Closes f) ∧
      (scanCloses ↔ l.Closes f ∧ Ordinary line) ∧
      ((walkCloses ↔ scanCloses) ↔ (walkCloses → Ordinary line)) := by
  intro line walkCloses scanCloses
  obtain ⟨l, s, hafter, rfl⟩ := FenceLine.exists_of_found h
  have hline : line = l.text := by
    simp only [line, hafter, FenceLine.sighting, List.take_left']
  have hwalk : walkCloses ↔ l.Closes f := by
    simp only [walkCloses, hline]
    exact l.track_eq_none_iff f
  have hscan : scanCloses ↔ l.Closes f ∧ Ordinary line := by
    simp only [scanCloses, hline]
    rw [hafter]
    exact l.isSome_closer?_iff_closes f s
  refine ⟨l, hline, hwalk, hscan, ?_⟩
  rw [hscan, ← hwalk]
  exact iff_self_and

/-- A no-break space behind the run divides the two. Spaces, tabs and a carriage return in front
of the line feed do not. -/
theorem Fence.closings_agree_noBreakSpace :
    let f : Fence := ⟨backtick, 3⟩
    let odd : Place := ⟨some '\n', "```\u00a0\n<5\n```\n".toList⟩
    let plain : Place := ⟨some '\n', " ```` \t\r\n<5\n".toList⟩
    (∃ σ, Builtin.fenceLineAt? odd = some σ ∧
      (Fence.track (some f) (odd.after.take σ.length)).2 = none ∧ f.closer? odd.after = none) ∧
    ∃ σ, Builtin.fenceLineAt? plain = some σ ∧
      (Fence.track (some f) (plain.after.take σ.length)).2 = none ∧
      (f.closer? plain.after).isSome = true := by
  intro f odd plain
  have hodd : Builtin.fenceLineAt? odd = some ⟨5, Builtin.fenceGroups backtick [] "```".toList
      "\u00a0".toList "\n".toList⟩ := by decide
  have hplain : Builtin.fenceLineAt? plain = some ⟨9, Builtin.fenceGroups backtick " ".toList
      "````".toList " \t".toList "\r\n".toList⟩ := by decide
  obtain ⟨_, -, -, -, hapart⟩ := Fence.closings_agree_iff f hodd
  obtain ⟨_, -, -, -, hagree⟩ := Fence.closings_agree_iff f hplain
  refine ⟨⟨_, hodd, by decide, ?_⟩, _, hplain, by decide, ?_⟩
  · rw [← Option.not_isSome_iff_eq_none]
    exact fun hscan => hapart.not.mpr (by decide) (iff_of_true (by decide) hscan)
  · exact (hagree.mpr fun _ => by decide).mp (by decide)

/-! ## One line -/

section Line

variable {l : Text} (hl : IsLine l) (hord : Ordinary l)

include hl

/-- While a fence is open, lines stay as they are. -/
theorem retag_open (g : Fence) : (retag (some g) l).1 = l := by
  by_contra hne
  obtain ⟨h, -⟩ := exists_of_retag_ne hl hne
  cases h

include hord

theorem retag_shut {g : Fence} (hg : g.Drawn) (h : g.ClosedBy (restOfLine l)) :
    retag (some g) l = (l, none) := by
  obtain ⟨o, rfl, -⟩ := h.opening hg hl
  obtain ⟨f, hf⟩ := OpeningLine.exists_fenceLine hord.not_mem_info
  rw [hf] at h hord ⊢
  rw [retag_some, if_pos ((FenceLine.closes_iff hord hg).mpr h)]

theorem retag_unshut {g : Fence} (hg : g.Drawn) (h : ¬ g.ClosedBy (restOfLine l)) :
    retag (some g) l = (l, some g) := by
  by_cases hfence : ∃ f : FenceLine, l = f.text
  · obtain ⟨f, rfl⟩ := hfence
    rw [retag_some, if_neg fun hc => h ((FenceLine.closes_iff hord hg).mp hc)]
  · exact retag_other hl (fun f hf => hfence ⟨f, hf⟩) _

end Line

theorem retag_opening {o : OpeningLine} (hord : Ordinary o.text) :
    (retag none o.text).2 = some o.fence := by
  obtain ⟨f, hf⟩ := OpeningLine.exists_fenceLine hord.not_mem_info
  rw [hf, retag_none, ← f.fence_opening, OpeningLine.text_inj (hf.trans f.text_opening.symm)]

theorem retagLines_open {g : Fence} (hg : g.Drawn) {ls : List Text} (hline : ∀ l ∈ ls, IsLine l)
    (hord : ∀ l ∈ ls, Ordinary l) (hopen : ∀ l ∈ ls, ¬ g.ClosedBy (restOfLine l)) :
    retagLines (some g) ls = ls ∧ trackLines (some g) ls = some g := by
  induction ls with
  | nil => exact ⟨rfl, rfl⟩
  | cons l ls ih =>
      have hl := retag_unshut (hline l List.mem_cons_self) (hord l List.mem_cons_self) hg
        (hopen l List.mem_cons_self)
      obtain ⟨hlines, htrack⟩ := ih (fun m hm => hline m (List.mem_cons_of_mem l hm))
        (fun m hm => hord m (List.mem_cons_of_mem l hm))
        fun m hm => hopen m (List.mem_cons_of_mem l hm)
      rw [retagLines, trackLines, hl]
      exact ⟨congrArg _ hlines, htrack⟩

/-! ## In step -/

/-- A fence that the walk has open is one that nothing further down closes. -/
def InStep (open? : Option Fence) (ls : List Text) : Prop :=
  ∀ g ∈ open?, g.Drawn ∧ ∀ m ∈ ls, ¬ g.ClosedBy (restOfLine m)

theorem inStep_none (ls : List Text) : InStep none ls := by
  intro g hg
  cases hg

/-- The walk stays in step over a line that opens no block. -/
theorem InStep.line {open? : Option Fence} {l : Text} {ls : List Text} (hl : IsLine l)
    (hord : Ordinary l)
    (hopen : ∀ o : OpeningLine, l = o.text → ∀ m ∈ ls, ¬ o.fence.ClosedBy (restOfLine m))
    (h : InStep open? (l :: ls)) : InStep (retag open? l).2 ls := by
  cases open? with
  | none =>
      by_cases hfence : ∃ f : FenceLine, l = f.text
      · obtain ⟨f, rfl⟩ := hfence
        rw [retag_none]
        rintro g ⟨⟩
        exact ⟨f.opening.drawn, hopen f.opening f.text_opening.symm⟩
      · rw [retag_other hl fun f hf => hfence ⟨f, hf⟩]
        exact inStep_none ls
  | some g =>
      obtain ⟨hg, hbar⟩ := h g rfl
      rw [retag_unshut hl hord hg (hbar l List.mem_cons_self)]
      rintro g' ⟨⟩
      exact ⟨hg, fun m hm => hbar m (List.mem_cons_of_mem l hm)⟩

section Block

variable {open? : Option Fence} {o : OpeningLine} {inner : List Text} {c : o.fence.ClosingLine}
  {ls : List Text} (hline : ∀ l ∈ inner, IsLine l)
  (hopen : ∀ l ∈ inner, ¬ o.fence.ClosedBy (restOfLine l))
  (hord : ∀ l ∈ o.text :: (inner ++ c.text :: ls), IsLine l → Ordinary l)
  (h : InStep open? (o.text :: (inner ++ c.text :: ls)))

include hline hopen hord h

/-- Within a block the walk has a fence open that no line of its body closes: that of the block
or an earlier one. -/
theorem InStep.within : ∃ g, g.Drawn ∧ (retag open? o.text).2 = some g ∧
    retagLines (some g) inner = inner ∧ trackLines (some g) inner = some g := by
  have hordo : Ordinary o.text := hord o.text List.mem_cons_self o.isLine
  have hordi : ∀ l ∈ inner, Ordinary l := fun l hl => hord l (by simp [hl]) (hline l hl)
  cases open? with
  | none =>
      exact ⟨o.fence, o.drawn, retag_opening hordo, retagLines_open o.drawn hline hordi hopen⟩
  | some g =>
      obtain ⟨hg, hbar⟩ := h g rfl
      refine ⟨g, hg, ?_, retagLines_open hg hline hordi fun l hl => hbar l (by simp [hl])⟩
      rw [retag_unshut o.isLine hordo hg (hbar _ List.mem_cons_self)]

/-- No line of a block is changed behind the opening one. -/
theorem InStep.retagLines_block :
    retagLines (retag open? o.text).2 (inner ++ [c.text]) = inner ++ [c.text] := by
  obtain ⟨g, -, hg, hlines, htrack⟩ := InStep.within hline hopen hord h
  have hclose : (retag (some g) c.text).1 = c.text := by
    rcases c.eol_cases with heol | heol
    · rw [retag_last (c.newline_text o.isMark_mark heol)]
    · exact retag_open (c.isLine_text o.isMark_mark heol) g
  rw [hg, retagLines_append, hlines, htrack]
  simp only [retagLines, hclose]

/-- A block that ends on a line feed leaves the walk where it was. -/
theorem InStep.trackLines_block (heol : c.eol = ['\n']) :
    trackLines open? (o.text :: (inner ++ [c.text])) = open? := by
  obtain ⟨g, -, hg, -, htrack⟩ := InStep.within hline hopen hord h
  have hl := c.isLine_text o.isMark_mark heol
  have hordc : Ordinary c.text := hord c.text (by simp) hl
  have hordo : Ordinary o.text := hord o.text List.mem_cons_self o.isLine
  rw [trackLines, trackLines_append, hg, htrack, trackLines, trackLines]
  cases open? with
  | none =>
      rw [retag_opening hordo] at hg
      obtain rfl := Option.some.inj hg
      rw [retag_shut hl hordc o.drawn (c.closedBy o.isMark_mark)]
  | some g' =>
      obtain ⟨hg', hbar⟩ := h g' rfl
      rw [retag_unshut o.isLine hordo hg' (hbar _ List.mem_cons_self)] at hg
      obtain rfl := Option.some.inj hg
      rw [retag_unshut hl hordc hg' (hbar _ (by simp))]

/-- The walk stays in step over a block. -/
theorem InStep.block (hlast : c.eol = ['\n'] ∨ ls = []) :
    InStep (trackLines open? (o.text :: (inner ++ [c.text]))) ls := by
  rcases c.eol_cases with heol | heol
  · obtain rfl := hlast.resolve_left (by simp [heol])
    obtain ⟨g, hdrawn, hg, -, htrack⟩ := InStep.within hline hopen hord h
    rw [trackLines, trackLines_append, hg, htrack, trackLines, trackLines,
      retag_last (c.newline_text o.isMark_mark heol)]
    rintro g' ⟨⟩
    exact ⟨hdrawn, fun m hm => absurd hm List.not_mem_nil⟩
  · rw [InStep.trackLines_block hline hopen hord h heol]
    intro g hg
    obtain ⟨hdrawn, hbar⟩ := h g hg
    exact ⟨hdrawn, fun m hm => hbar m (by simp [hm])⟩

end Block

/-- While the walk is in step, every block is kept. -/
theorem InStep.each_kept {ls : List Text} (hlayout : Layout ls) {bs : List Text}
    (hbs : ∀ l ∈ bs, IsLine l) (hord : ∀ l ∈ ls, IsLine l → Ordinary l)
    (h : InStep (trackLines none bs) ls) : Each Kept bs.flatten (segment ls.flatten) [] := by
  revert hord h
  refine layout_induction (motive := fun bs ls => (∀ l ∈ ls, IsLine l → Ordinary l) →
    InStep (trackLines none bs) ls → Each Kept bs.flatten (segment ls.flatten) []) ?_ ?_ ?_ ?_
    hbs hlayout
  · intro bs _ _
    rw [List.flatten_nil, segment_nil]
    trivial
  · intro bs x _ hx _ _
    rw [List.flatten_singleton]
    exact each_inline kept_ofBlocks hx _ _
  · intro bs x ls hx hopen hlayout ih hord h
    have hl : IsLine (x ++ ['\n']) := ⟨x, hx, rfl⟩
    rw [trackLines_append] at ih
    rw [each_line kept_ofBlocks hx hopen hlayout.lined]
    exact ih (fun l hl => hord l (List.mem_cons_of_mem _ hl))
      (h.line hl (hord _ List.mem_cons_self hl) hopen)
  · intro bs o inner c ls hbs hline hopen hlast hlayout ih hord h
    have hall : Lined ((o.text :: inner) ++ c.text :: ls) :=
      (Layout.block o c hline hopen hlast hlayout).lined
    rw [trackLines_append] at ih
    rw [each_block kept_ofBlocks o c hline hopen hlast]
    exact ⟨(kept_block o c hbs hline hall.of_append.2).mpr
        (InStep.retagLines_block hline hopen hord h),
      ih (fun l hl => hord l (by simp [hl])) (InStep.block hline hopen hord h hlast)⟩

end MdxMend
