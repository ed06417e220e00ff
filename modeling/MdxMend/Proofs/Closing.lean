import MdxMend.Code.Fence
import MdxMend.Proofs.Lines

/-!
# Where a fenced block ends

`Fence.block?` walks over characters and asks `Fence.closer?` at every line
feed. What it finds is the first later line that closes the fence, and that is
how everything else wants to hear of it: the lines in between do not close it,
the last one does. A text divided in this way is a `Division`. Where there is one
the block ends at it (`block?_of_division`), where there is none there is no
block (`block?_of_open`), and one of the two is always so (`division_or_open`).

`ClosedBy` is the shape of a closing line without its line feed. The scanner
takes the longest indent and the longest run it can get; since a mark is
neither indent nor blank, no other way to read the line exists.
-/

namespace MdxMend

open Text

theorem ne_newline_of_isMark {c : Char} (h : isMark c = true) : c ≠ '\n' := by
  intro heq
  subst heq
  exact absurd h (by decide)

theorem isIndent_of_isMark {c : Char} (h : isMark c = true) : isIndent c = false := by
  simp only [isMark, Bool.or_eq_true, beq_iff_eq] at h
  rcases h with rfl | rfl <;> decide

theorem isBlank_of_isMark {c : Char} (h : isMark c = true) : isBlank c = false := by
  simp only [isMark, Bool.or_eq_true, beq_iff_eq] at h
  rcases h with rfl | rfl <;> decide

theorem ne_newline_of_isIndent {c : Char} (h : isIndent c = true) : c ≠ '\n' := by
  intro heq
  subst heq
  exact absurd h (by decide)

namespace Fence

theorem isClosingBlank_of_isMark {c : Char} (h : isMark c = true) :
    isClosingBlank c = false := by
  simp only [isMark, Bool.or_eq_true, beq_iff_eq] at h
  rcases h with rfl | rfl <;> decide

theorem ne_newline_of_isClosingBlank {c : Char} (h : isClosingBlank c = true) :
    c ≠ '\n' := by
  intro heq
  subst heq
  exact absurd h (by decide)

/-- A line that closes `f`: indent, marks enough, and blanks behind them. -/
def ClosedBy (f : Fence) (line : Text) : Prop :=
  ∃ (indent : Text) (n : Nat) (blanks : Text),
    line = indent ++ (List.replicate n f.mark ++ blanks) ∧
    (∀ c ∈ indent, isIndent c = true) ∧ f.length ≤ n ∧
    ∀ c ∈ blanks, isClosingBlank c = true

theorem newline_not_mem_indent {indent : Text}
    (h : ∀ c ∈ indent, isIndent c = true) : '\n' ∉ indent :=
  fun hc => ne_newline_of_isIndent (h _ hc) rfl

theorem newline_not_mem_marks {f : Fence} (hm : isMark f.mark = true) (n : Nat) :
    '\n' ∉ List.replicate n f.mark :=
  fun hc => ne_newline_of_isMark hm (List.eq_of_mem_replicate hc).symm

theorem head?_marks {mark : Char} (hm : isMark mark = true) {n : Nat} (hn : 0 < n) (s : Text) :
    ∀ c ∈ (List.replicate n mark ++ s).head?, isIndent c = false := by
  obtain ⟨k, rfl⟩ : ∃ k, n = k + 1 := ⟨n - 1, by omega⟩
  intro c hc
  rw [List.replicate_succ] at hc
  obtain rfl := Option.some.inj hc
  exact isIndent_of_isMark hm

/-- Reading a closing line back: the indent and the run go to the block. -/
theorem closer?_closed {f : Fence} (hm : isMark f.mark = true) {indent : Text}
    {n : Nat} {blanks rest : Text} (hi : ∀ c ∈ indent, isIndent c = true)
    (hn : f.length ≤ n) (hpos : 0 < n)
    (hb : ∀ c ∈ blanks, isClosingBlank c = true) (hr : ∀ c ∈ rest.head?, c = '\n') :
    f.closer? (indent ++ (List.replicate n f.mark ++ (blanks ++ rest))) =
      some (indent ++ List.replicate n f.mark, blanks ++ rest) := by
  have hfence := head?_marks hm hpos (blanks ++ rest)
  have hrun : ∀ c ∈ List.replicate n f.mark, (c == f.mark) = true := fun c hc => by
    simpa using List.eq_of_mem_replicate hc
  have hafter : ∀ c ∈ (blanks ++ rest).head?, (c == f.mark) = false := by
    intro c hc
    have hne : c ≠ f.mark := by
      intro heq
      subst heq
      cases blanks with
      | nil => exact ne_newline_of_isMark hm (hr _ hc)
      | cons d blanks =>
          have hd : d = f.mark := by simpa using hc
          have := hb d List.mem_cons_self
          rw [hd, isClosingBlank_of_isMark hm] at this
          exact absurd this (by simp)
    simpa using hne
  have hline : restOfLine (blanks ++ rest) = blanks := by
    rw [restOfLine_append fun h => ne_newline_of_isClosingBlank (hb _ h) rfl]
    cases rest with
    | nil => simp [restOfLine]
    | cons c rest =>
        have hc : c = '\n' := hr c (by simp)
        rw [hc, restOfLine_newline, List.append_nil]
  unfold closer?
  simp only [takeWhile_stop hi hfence, dropWhile_stop hi hfence, takeWhile_stop hrun hafter,
    dropWhile_stop hrun hafter, List.length_replicate, hline]
  rw [if_pos]
  rw [Bool.and_eq_true, decide_eq_true_eq, List.all_eq_true]
  exact ⟨hn, hb⟩

/-- What is read as a closing line is one. -/
theorem closedBy_of_closer? {f : Fence} (hm : isMark f.mark = true) {line code rest : Text}
    (h : f.closer? line = some (code, rest)) : f.ClosedBy (restOfLine line) := by
  unfold closer? at h
  simp only [] at h
  split at h
  · next hc =>
      rw [Bool.and_eq_true, decide_eq_true_eq, List.all_eq_true] at hc
      have hi : ∀ c ∈ line.takeWhile isIndent, isIndent c = true := of_mem_takeWhile
      refine ⟨_, _, _, ?_, hi, hc.1, hc.2⟩
      have hsplit := List.takeWhile_append_dropWhile (p := isIndent) (l := line)
      have hrun := List.takeWhile_append_dropWhile (p := (· == f.mark))
        (l := line.dropWhile isIndent)
      rw [takeWhile_beq] at hrun
      conv => lhs; rw [← hsplit, ← hrun]
      rw [restOfLine_append (newline_not_mem_indent hi),
        restOfLine_append (newline_not_mem_marks hm _)]
  · cases h

/-- A closing line, taken apart where it stands. -/
theorem ClosedBy.closer? {f : Fence} (hm : isMark f.mark = true) (hpos : 0 < f.length)
    {s : Text} (h : f.ClosedBy (restOfLine s)) :
    ∃ (indent : Text) (n : Nat) (blanks rest : Text),
      s = indent ++ (List.replicate n f.mark ++ (blanks ++ rest)) ∧
      (∀ c ∈ indent, isIndent c = true) ∧ f.length ≤ n ∧
      (∀ c ∈ blanks, isClosingBlank c = true) ∧ (∀ c ∈ rest.head?, c = '\n') ∧
      f.closer? s = some (indent ++ List.replicate n f.mark, blanks ++ rest) := by
  obtain ⟨indent, n, blanks, hline, hi, hn, hb⟩ := h
  have hr : ∀ c ∈ (s.dropWhile (· != '\n')).head?, c = '\n' := fun c hc => by
    simpa using head?_dropWhile c hc
  have hs : s = indent ++ (List.replicate n f.mark ++ (blanks ++ s.dropWhile (· != '\n'))) := by
    conv => lhs; rw [← List.takeWhile_append_dropWhile (p := (· != '\n')) (l := s)]
    change restOfLine s ++ _ = _
    rw [hline, List.append_assoc, List.append_assoc]
  refine ⟨indent, n, blanks, s.dropWhile (· != '\n'), hs, hi, hn, hb, hr, ?_⟩
  conv => lhs; rw [hs]
  exact closer?_closed hm hi hn (by omega) hb hr

theorem isSome_closer?_iff {f : Fence} (hm : isMark f.mark = true) (hpos : 0 < f.length)
    {s : Text} : (f.closer? s).isSome = true ↔ f.ClosedBy (restOfLine s) := by
  constructor
  · intro h
    obtain ⟨found, hfound⟩ := Option.isSome_iff_exists.mp h
    exact closedBy_of_closer? hm hfound
  · intro h
    obtain ⟨_, _, _, _, -, -, -, -, -, hfound⟩ := ClosedBy.closer? hm hpos h
    rw [hfound]
    rfl

theorem closer?_eq_none {f : Fence} (hm : isMark f.mark = true) {line : Text}
    (h : ¬ f.ClosedBy (restOfLine line)) : f.closer? line = none := by
  rw [Option.eq_none_iff_forall_ne_some]
  intro found hc
  obtain ⟨code, rest⟩ := found
  exact h (closedBy_of_closer? hm hc)

theorem not_closedBy_nil {f : Fence} (hpos : 0 < f.length) : ¬ f.ClosedBy [] := by
  rintro ⟨indent, n, blanks, h, -, hn, -⟩
  have hlen := congrArg List.length h
  simp only [List.length_nil, List.length_append, List.length_replicate] at hlen
  omega

/-! ## The search for the closing line -/

/-- In a list of lines either one is the first that closes `f`, or none does. -/
theorem exists_first_closing (f : Fence) (ls : List Text) :
    (∃ inner l rest, ls = inner ++ l :: rest ∧
      (∀ k ∈ inner, ¬ f.ClosedBy (restOfLine k)) ∧ f.ClosedBy (restOfLine l)) ∨
    ∀ l ∈ ls, ¬ f.ClosedBy (restOfLine l) := by
  induction ls with
  | nil => exact .inr fun l hl => absurd hl List.not_mem_nil
  | cons k ls ih =>
      by_cases hk : f.ClosedBy (restOfLine k)
      · exact .inl ⟨[], k, ls, rfl, fun l hl => absurd hl List.not_mem_nil, hk⟩
      · rcases ih with ⟨inner, l, rest, rfl, hinner, hl⟩ | hnone
        · refine .inl ⟨k :: inner, l, rest, rfl, ?_, hl⟩
          intro j hj
          rcases List.mem_cons.mp hj with rfl | hj
          · exact hk
          · exact hinner j hj
        · refine .inr fun l hl => ?_
          rcases List.mem_cons.mp hl with rfl | hl
          · exact hk
          · exact hnone l hl

theorem block?_append {f : Fence} {x : Text} (hx : '\n' ∉ x) (s : Text) :
    f.block? (x ++ s) = (f.block? s).map fun (code, rest) => (x ++ code, rest) := by
  induction x with
  | nil => simp
  | cons c x ih =>
      have hc : (c == '\n') = false := by
        simpa using fun h : c = '\n' => hx (h ▸ List.mem_cons_self)
      rw [List.cons_append, block?, ih fun h => hx (List.mem_cons_of_mem c h)]
      cases f.block? s <;> simp [hc]

theorem block?_last {f : Fence} {x : Text} (hx : '\n' ∉ x) : f.block? x = none := by
  have h := block?_append (f := f) hx []
  rw [List.append_nil] at h
  rw [h]
  rfl

/-- A line feed with a closing line behind it ends the block. -/
theorem block?_closing {f : Fence} {s code rest : Text}
    (h : f.closer? s = some (code, rest)) :
    f.block? ('\n' :: s) = some ('\n' :: code, rest) := by
  simp [block?, h]

/-- A line that does not close the fence is passed over. -/
theorem block?_line {f : Fence} (hm : isMark f.mark = true) {l : Text}
    (hl : IsLine l) (hopen : ¬ f.ClosedBy (restOfLine l)) (s : Text) :
    f.block? ('\n' :: (l ++ s)) =
      (f.block? ('\n' :: s)).map fun (code, rest) => ('\n' :: l.dropLast ++ code, rest) := by
  have hnone : f.closer? (l ++ s) = none :=
    closer?_eq_none hm (by rwa [restOfLine_line hl])
  rw [block?, hnone]
  obtain ⟨x, hx, rfl⟩ := hl
  rw [List.append_assoc, block?_append hx, List.singleton_append]
  cases f.block? ('\n' :: s) <;> simp

/-- A text divided at the first of its lines that closes `f`: the lines in front,
the indent and the run of that line, the blanks behind the run, and the rest. -/
structure Division (f : Fence) (s : Text) where
  inner : List Text
  indent : Text
  closing : Nat
  blanks : Text
  rest : Text
  split : s = inner.flatten ++ (indent ++ (List.replicate closing f.mark ++ (blanks ++ rest)))
  isLine_inner : ∀ l ∈ inner, IsLine l
  open_inner : ∀ l ∈ inner, ¬ f.ClosedBy (restOfLine l)
  isIndent_indent : ∀ c ∈ indent, isIndent c = true
  length_le : f.length ≤ closing
  isClosingBlank_blanks : ∀ c ∈ blanks, isClosingBlank c = true
  head?_rest : ∀ c ∈ rest.head?, c = '\n'

/-- What a division leaves to the block. -/
def Division.code {f : Fence} {s : Text} (d : f.Division s) : Text :=
  d.inner.flatten ++ (d.indent ++ List.replicate d.closing f.mark)

/-- Any text is divided at a line that closes `f`, or no line of it does. -/
theorem division_or_open {f : Fence} (hm : isMark f.mark = true) (hpos : 0 < f.length)
    (s : Text) : Nonempty (f.Division s) ∨ ∀ l ∈ lines s, ¬ f.ClosedBy (restOfLine l) := by
  rcases exists_first_closing f (lines s) with ⟨inner, l, ls, hls, hopen, hl⟩ | hnone
  · have hlined := lined_lines s
    rw [hls] at hlined
    obtain ⟨hinner, hlast⟩ := hlined.of_append
    have hs : s = inner.flatten ++ (l ++ ls.flatten) := by
      rw [← flatten_lines s, hls, List.flatten_append, List.flatten_cons]
    have hrest : restOfLine (l ++ ls.flatten) = restOfLine l := by
      cases hlast with
      | last => simp
      | line hline => exact restOfLine_line hline _
    rw [← hrest] at hl
    obtain ⟨indent, n, blanks, rest, hsplit, hi, hn, hb, hr, -⟩ := ClosedBy.closer? hm hpos hl
    refine .inl ⟨{ inner, indent, closing := n, blanks, rest, split := ?_, isLine_inner := hinner,
                   open_inner := hopen, isIndent_indent := hi, length_le := hn,
                   isClosingBlank_blanks := hb, head?_rest := hr }⟩
    rw [← hsplit]
    exact hs
  · exact .inr hnone

/-- The block reaches to the first later line that closes the fence. -/
theorem block?_of_division {f : Fence} (hm : isMark f.mark = true) (hpos : 0 < f.length)
    {info : Text} (hinfo : '\n' ∉ info) {s : Text} (d : f.Division s) :
    f.block? (info ++ '\n' :: s) = some (info ++ '\n' :: d.code, d.blanks ++ d.rest) := by
  have hclose := closer?_closed hm d.isIndent_indent d.length_le
    (Nat.lt_of_lt_of_le hpos d.length_le) d.isClosingBlank_blanks d.head?_rest
  have hlines : ∀ inner : List Text, (∀ l ∈ inner, IsLine l) →
      (∀ l ∈ inner, ¬ f.ClosedBy (restOfLine l)) →
      f.block? ('\n' :: (inner.flatten ++ (d.indent ++
        (List.replicate d.closing f.mark ++ (d.blanks ++ d.rest))))) =
      some ('\n' :: (inner.flatten ++ (d.indent ++ List.replicate d.closing f.mark)),
        d.blanks ++ d.rest) := by
    intro inner
    induction inner with
    | nil => exact fun _ _ => block?_closing hclose
    | cons l inner ih =>
        intro hline hopen
        have hl := hline l List.mem_cons_self
        rw [List.flatten_cons, List.append_assoc,
          block?_line hm hl (hopen l List.mem_cons_self),
          ih (fun k hk => hline k (List.mem_cons_of_mem l hk))
            fun k hk => hopen k (List.mem_cons_of_mem l hk)]
        obtain ⟨x, -, rfl⟩ := hl
        simp
  conv => lhs; rw [d.split]
  rw [block?_append hinfo, hlines d.inner d.isLine_inner d.open_inner]
  rfl

/-- Without a later line that closes the fence there is no block. -/
theorem block?_of_open {f : Fence} (hm : isMark f.mark = true) {info : Text}
    (hinfo : '\n' ∉ info) (hpos : 0 < f.length) {s : Text}
    (hs : ∀ l ∈ lines s, ¬ f.ClosedBy (restOfLine l)) :
    f.block? (info ++ '\n' :: s) = none := by
  have hlines : ∀ ls, Lined ls → (∀ l ∈ ls, ¬ f.ClosedBy (restOfLine l)) →
      f.block? ('\n' :: ls.flatten) = none := by
    intro ls hls
    induction hls with
    | nil =>
        intro _
        have hnil : f.closer? [] = none := closer?_eq_none hm (not_closedBy_nil hpos)
        simp [block?, hnil]
    | last hne hx =>
        intro hall
        have hopen := closer?_eq_none hm (hall _ List.mem_cons_self)
        rw [List.flatten_cons, List.flatten_nil, List.append_nil, block?, hopen, block?_last hx]
        simp
    | line hl hls ih =>
        intro hall
        rw [List.flatten_cons, block?_line hm hl (hall _ List.mem_cons_self),
          ih fun k hk => hall k (List.mem_cons_of_mem _ hk)]
        rfl
  have h := hlines (lines s) (lined_lines s) hs
  rw [flatten_lines] at h
  rw [block?_append hinfo, h]
  rfl

end Fence

end MdxMend
