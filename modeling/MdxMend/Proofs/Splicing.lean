import MdxMend.Rule.Pass

/-!
# A pass as a splice

A pass goes over matches that are given by their places in a text, in order and without overlap.
What it makes of them is a splice: the text is copied from the end of one match to the start of the
next, and something is written in place of each (`spliceFrom`).

The pass does not write it in this way. It writes nothing before the first fix, and it does not take
note of the matches that are none, so that the text around them is copied as one later on. This
comes to the same because of the order: to copy up to a place and then on from there is to copy, as
long as the places come one behind the other (`slice_append_spliceFrom`). What stands behind the
place up to which the pass has written is always the splice of the matches to come (`foldlM_next`).

Places are counted in bytes, and not every number of bytes is a place. Those from which a slice can
be cut are where a character ends.
-/

namespace MdxMend

namespace Text

variable {t x y z : Text} {i j k : Nat}

/-! ## Places in a text -/

@[simp] theorem byteLength_append (x y : Text) :
    byteLength (x ++ y) = byteLength x + byteLength y := by
  induction x with
  | nil => simp
  | cons c x ih => rw [List.cons_append, byteLength_cons, byteLength_cons, ih, Nat.add_assoc]

theorem eq_nil_of_byteLength (h : byteLength x = 0) : x = [] := by
  cases x with
  | nil => rfl
  | cons c x =>
      rw [byteLength_cons] at h
      have := c.utf8Size_pos
      omega

@[simp] theorem dropBytes_append (x y : Text) : dropBytes (byteLength x) (x ++ y) = y := by
  induction x with
  | nil => cases y <;> rfl
  | cons c x ih =>
      have := c.utf8Size_pos
      rw [List.cons_append, byteLength_cons, dropBytes, if_neg (by omega), Nat.add_sub_cancel_left,
        ih]

@[simp] theorem takeBytes_append (x y : Text) : takeBytes (byteLength x) (x ++ y) = x := by
  induction x with
  | nil => cases y <;> rfl
  | cons c x ih =>
      have := c.utf8Size_pos
      rw [List.cons_append, byteLength_cons, takeBytes, if_neg (by omega), Nat.add_sub_cancel_left,
        ih]

@[simp] theorem dropBytes_zero (t : Text) : dropBytes 0 t = t := dropBytes_append [] t

theorem slice_append (x y z : Text) :
    slice (x ++ (y ++ z)) (byteLength x) (byteLength x + byteLength y) = y := by
  rw [slice, dropBytes_append, Nat.add_sub_cancel_left, takeBytes_append]

/-- A number of bytes at which a character of the text ends, or the text begins. -/
def IsPlace (t : Text) (i : Nat) : Prop := ∃ x y, t = x ++ y ∧ byteLength x = i

theorem isPlace_zero (t : Text) : IsPlace t 0 := ⟨[], t, rfl, rfl⟩

/-- Of two places one lies behind the other, with a text between them. -/
theorem IsPlace.between (hi : IsPlace t i) (hj : IsPlace t j) (hij : i ≤ j) :
    ∃ x y z, t = x ++ (y ++ z) ∧ byteLength x = i ∧ byteLength x + byteLength y = j := by
  obtain ⟨x, u, rfl, rfl⟩ := hi
  obtain ⟨x', z, heq, rfl⟩ := hj
  rcases List.append_eq_append_iff.mp heq with ⟨y, rfl, rfl⟩ | ⟨y, rfl, rfl⟩
  · exact ⟨x, y, z, rfl, rfl, (byteLength_append x y).symm⟩
  · rw [byteLength_append] at hij ⊢
    obtain rfl : y = [] := eq_nil_of_byteLength (by omega)
    exact ⟨x', [], u, by simp, by simp, by simp⟩

theorem slice_append_dropBytes (hi : IsPlace t i) (hj : IsPlace t j) (hij : i ≤ j) :
    slice t i j ++ dropBytes j t = dropBytes i t := by
  obtain ⟨x, y, z, rfl, rfl, rfl⟩ := hi.between hj hij
  rw [slice_append, dropBytes_append, ← byteLength_append, ← List.append_assoc, dropBytes_append]

theorem slice_append_slice (hi : IsPlace t i) (hj : IsPlace t j) (hk : IsPlace t k) (hij : i ≤ j)
    (hjk : j ≤ k) : slice t i j ++ slice t j k = slice t i k := by
  have hwhole : (slice t i j ++ slice t j k) ++ dropBytes k t = slice t i k ++ dropBytes k t := by
    rw [List.append_assoc, slice_append_dropBytes hj hk hjk, slice_append_dropBytes hi hj hij,
      slice_append_dropBytes hi hk (Nat.le_trans hij hjk)]
  exact List.append_cancel_right hwhole

end Text

open Text

variable {t x : Text} {i j : Nat}

/-! ## Matches in order -/

/-- A match lies in a text if its text stands where it starts. -/
def Match.LiesIn (t : Text) (m : Match) : Prop :=
  ∃ x y, t = x ++ (m.text ++ y) ∧ byteLength x = m.start

namespace Match.LiesIn

variable {m : Match}

theorem isPlace_start (h : m.LiesIn t) : IsPlace t m.start := by
  obtain ⟨x, y, rfl, hx⟩ := h
  exact ⟨x, _, rfl, hx⟩

theorem isPlace_stop (h : m.LiesIn t) : IsPlace t m.stop := by
  obtain ⟨x, y, rfl, hx⟩ := h
  exact ⟨x ++ m.text, y, by simp, by rw [byteLength_append, hx, stop]⟩

theorem slice_eq (h : m.LiesIn t) : slice t m.start m.stop = m.text := by
  obtain ⟨x, y, rfl, hx⟩ := h
  rw [stop, ← hx, slice_append]

end Match.LiesIn

theorem Match.start_le_stop (m : Match) : m.start ≤ m.stop := Nat.le_add_right _ _

/-- Matches in a text, in order and without overlap. Empty ones may stand anywhere between. -/
structure InOrder (t : Text) (ms : List Match) : Prop where
  inside : ∀ m ∈ ms, m.LiesIn t
  apart : ms.Pairwise fun m m' => m.stop ≤ m'.start

theorem InOrder.cons_iff {m : Match} {ms : List Match} :
    InOrder t (m :: ms) ↔ m.LiesIn t ∧ (∀ m' ∈ ms, m.stop ≤ m'.start) ∧ InOrder t ms := by
  constructor
  · intro ⟨hinside, hapart⟩
    obtain ⟨hm, hms⟩ := List.forall_mem_cons.mp hinside
    obtain ⟨hbehind, hrest⟩ := List.pairwise_cons.mp hapart
    exact ⟨hm, hbehind, hms, hrest⟩
  · intro ⟨hm, hbehind, hms, hrest⟩
    exact ⟨List.forall_mem_cons.mpr ⟨hm, hms⟩, List.pairwise_cons.mpr ⟨hbehind, hrest⟩⟩

/-! ## Splices -/

/-- The text from `i` on, with a text written in place of each match. -/
def spliceFrom (t : Text) : Nat → List (Match × Text) → Text
  | i, [] => dropBytes i t
  | i, (m, new) :: edits => slice t i m.start ++ (new ++ spliceFrom t m.stop edits)

/-- It makes no difference where one copies on from, as long as it lies in front of the matches. -/
theorem slice_append_spliceFrom {edits : List (Match × Text)} (hi : IsPlace t i) (hj : IsPlace t j)
    (hij : i ≤ j) (horder : InOrder t (edits.map Prod.fst))
    (hbehind : ∀ m ∈ edits.map Prod.fst, j ≤ m.start) :
    slice t i j ++ spliceFrom t j edits = spliceFrom t i edits := by
  cases edits with
  | nil => exact slice_append_dropBytes hi hj hij
  | cons e edits =>
      obtain ⟨m, new⟩ := e
      have hm : m.LiesIn t := (InOrder.cons_iff.mp horder).1
      have hjm : j ≤ m.start := hbehind m List.mem_cons_self
      rw [spliceFrom, spliceFrom, ← List.append_assoc,
        slice_append_slice hi hj hm.isPlace_start hij hjm]

/-- A match that is written as it is may as well not be there. -/
theorem spliceFrom_same {m : Match} {edits : List (Match × Text)} (hi : IsPlace t i)
    (him : i ≤ m.start) (horder : InOrder t (m :: edits.map Prod.fst)) :
    spliceFrom t i ((m, m.text) :: edits) = spliceFrom t i edits := by
  obtain ⟨hm, hbehind, hrest⟩ := InOrder.cons_iff.mp horder
  have hstart := hm.isPlace_start
  have hstop := hm.isPlace_stop
  have hcopy : m.text ++ spliceFrom t m.stop edits = spliceFrom t m.start edits := by
    rw [← slice_append_spliceFrom hstart hstop m.start_le_stop hrest hbehind, hm.slice_eq]
  rw [spliceFrom, hcopy, slice_append_spliceFrom hi hstart him hrest]
  exact fun m' hm' => Nat.le_trans m.start_le_stop (hbehind m' hm')

/-- Where every match is written as it is, the splice is the text. -/
theorem spliceFrom_of_same {edits : List (Match × Text)} (hi : IsPlace t i)
    (horder : InOrder t (edits.map Prod.fst)) (hbehind : ∀ m ∈ edits.map Prod.fst, i ≤ m.start)
    (hsame : ∀ e ∈ edits, e.2 = e.1.text) : spliceFrom t i edits = dropBytes i t := by
  induction edits with
  | nil => rfl
  | cons e edits ih =>
      obtain ⟨m, new⟩ := e
      obtain ⟨hnew, hrest⟩ := List.forall_mem_cons.mp hsame
      obtain rfl : new = m.text := hnew
      obtain ⟨him, hbehind⟩ := List.forall_mem_cons.mp hbehind
      rw [spliceFrom_same hi him horder]
      exact ih (InOrder.cons_iff.mp horder).2.2 hbehind hrest

/-! ## The pass -/

/-- What stands in place of a match behind a pass, given whether the match may be changed. -/
def editOf (new : Match → Text) (m : Match × Bool) : Match × Text :=
  (m.1, if m.2 then new m.1 else m.1.text)

/-- The number of matches that are written as something else. -/
def fixesIn (new : Match → Text) (ms : List (Match × Bool)) : Nat :=
  ms.countP fun m => (editOf new m).2 ≠ m.1.text

theorem map_editOf (new : Match → Text) (ms : List (Match × Bool)) :
    (ms.map (editOf new)).map Prod.fst = ms.map Prod.fst := List.map_map

section Pass

variable {render : Match → Except RuleError Text} {new : Match → Text}

namespace Draft

/-- One match: if it is no fix nothing is done about it. -/
theorem next_eq {d : Draft} {m : Match × Bool} (hnew : m.2 = true → render m.1 = .ok (new m.1)) :
    d.next render t m = .ok (if (editOf new m).2 = m.1.text then d else {
      written? := some (d.written?.getD [] ++ slice t d.lastEnd m.1.start ++ (editOf new m).2)
      lastEnd := m.1.stop
      fixes := d.fixes + 1 }) := by
  obtain ⟨m, accepted⟩ := m
  cases accepted with
  | false => simp [next, editOf]
  | true =>
      rw [next, if_pos rfl, hnew rfl]
      show (if new m = m.text then _ else _) = Except.ok (if new m = m.text then _ else _)
      split <;> rfl

/-- What a draft comes to if nothing is left to be fixed behind its end but `rest` is to be written
there. -/
def whole (d : Draft) (rest : Text) : Text := d.written?.getD [] ++ rest

/-- Something is written just if there was a fix. -/
def Counts (d : Draft) : Prop := d.written? = none ↔ d.fixes = 0

/-- The matches to come add their fixes to a draft, and what the draft comes to is what it came to
with their splice at its end. -/
theorem foldlM_next {ms : List (Match × Bool)} {d : Draft} (hplace : IsPlace t d.lastEnd)
    (horder : InOrder t (ms.map Prod.fst)) (hbehind : ∀ m ∈ ms.map Prod.fst, d.lastEnd ≤ m.start)
    (hcounts : d.Counts) (hnew : ∀ m ∈ ms, m.2 = true → render m.1 = .ok (new m.1)) :
    ∃ d', ms.foldlM (next render t) d = .ok d' ∧ d'.Counts ∧ d'.fixes = d.fixes + fixesIn new ms ∧
      d'.whole (dropBytes d'.lastEnd t) =
        d.whole (spliceFrom t d.lastEnd (ms.map (editOf new))) := by
  induction ms generalizing d with
  | nil => exact ⟨d, rfl, hcounts, rfl, rfl⟩
  | cons m ms ih =>
      obtain ⟨hm, hnew⟩ := List.forall_mem_cons.mp hnew
      obtain ⟨hlies, hbehindm, hrest⟩ := InOrder.cons_iff.mp horder
      obtain ⟨hstart, hbehind⟩ := List.forall_mem_cons.mp hbehind
      rw [List.foldlM_cons, next_eq hm, fixesIn, List.countP_cons, List.map_cons, ← fixesIn]
      by_cases hsame : (editOf new m).2 = m.1.text
      · -- The match is passed over. It is copied later on, with what stands around it.
        have hedit : editOf new m = (m.1, m.1.text) := Prod.ext rfl hsame
        have horder' : InOrder t (m.1 :: (ms.map (editOf new)).map Prod.fst) := by
          rwa [map_editOf]
        rw [if_pos hsame, hedit, spliceFrom_same hplace hstart horder']
        obtain ⟨d', hd', hcounts', hfixes, hwhole⟩ := ih hplace hrest hbehind hcounts hnew
        exact ⟨d', hd', hcounts', by simp [hfixes], hwhole⟩
      · rw [if_neg hsame]
        have hcounts' : Counts {
            written? := some (d.written?.getD [] ++ slice t d.lastEnd m.1.start ++ (editOf new m).2)
            lastEnd := m.1.stop
            fixes := d.fixes + 1 } := by
          simp [Counts]
        obtain ⟨d', hd', hcounts'', hfixes, hwhole⟩ :=
          ih (d := ⟨_, m.1.stop, d.fixes + 1⟩) hlies.isPlace_stop hrest hbehindm hcounts' hnew
        refine ⟨d', hd', hcounts'', ?_, ?_⟩
        · rw [hfixes]
          simp only [ne_eq, hsame, not_false_eq_true, decide_true, if_true]
          omega
        · rw [hwhole, whole, whole, Option.getD_some, List.append_assoc, List.append_assoc]
          rfl

/-- A replacement that fails takes the pass with it, whatever came before. -/
theorem foldlM_next_error {ms : List (Match × Bool)} {d : Draft}
    (h : ∃ m ∈ ms, m.2 = true ∧ ∃ e, render m.1 = .error e) :
    ∃ e, ms.foldlM (next render t) d = .error e := by
  induction ms generalizing d with
  | nil => simp at h
  | cons m ms ih =>
      rw [List.foldlM_cons]
      cases hnext : d.next render t m with
      | error e => exact ⟨e, rfl⟩
      | ok d' =>
          obtain ⟨m', hm', haccepted, e, he⟩ := h
          rcases List.mem_cons.mp hm' with rfl | hm'
          · rw [next, if_pos haccepted, he] at hnext
            cases hnext
          · exact ih ⟨m', hm', haccepted, e, he⟩

end Draft

theorem passOver_eq {ms : List (Match × Bool)} (horder : InOrder t (ms.map Prod.fst))
    (hnew : ∀ m ∈ ms, m.2 = true → render m.1 = .ok (new m.1)) :
    passOver render t ms = .ok (if fixesIn new ms = 0 then none
      else some ⟨spliceFrom t 0 (ms.map (editOf new)), fixesIn new ms⟩) := by
  obtain ⟨d, hd, hcounts, hfixes, hwhole⟩ := Draft.foldlM_next (d := {}) (isPlace_zero t) horder
    (fun _ _ => Nat.zero_le _) (by simp [Draft.Counts]) hnew
  rw [Nat.zero_add] at hfixes
  unfold passOver
  rw [hd, ← hfixes]
  show Except.ok (d.finish t) = _
  unfold Draft.finish
  cases hwritten : d.written? with
  | none => rw [if_pos (hcounts.mp hwritten), Option.map_none]
  | some written =>
      have hpos : d.fixes ≠ 0 := fun h0 => by
        rw [hcounts.mpr h0] at hwritten
        cases hwritten
      rw [Draft.whole, hwritten, Option.getD_some] at hwhole
      rw [if_neg hpos, Option.map_some, hwhole]
      rfl

theorem passOver_error {ms : List (Match × Bool)}
    (h : ∃ m ∈ ms, m.2 = true ∧ ∃ e, render m.1 = .error e) :
    ∃ e, passOver render t ms = .error e := by
  obtain ⟨e, he⟩ := Draft.foldlM_next_error (t := t) (d := {}) h
  refine ⟨e, ?_⟩
  unfold passOver
  rw [he]
  rfl

/-- A pass over matches in order that may be rendered as far as they may be changed gives the text
with each match replaced, or left as it is if it may not be changed. The fixes are the matches that
may be changed and come out different; the pass gives nothing just if there are none, and then the
text would be the same. -/
theorem passOver_splices {ms : List (Match × Bool)} (horder : InOrder t (ms.map Prod.fst))
    (hnew : ∀ m ∈ ms, m.2 = true → render m.1 = .ok (new m.1)) :
    let text := spliceFrom t 0 (ms.map fun m => (m.1, if m.2 then new m.1 else m.1.text))
    let fixes := ms.countP fun m => m.2 = true ∧ new m.1 ≠ m.1.text
    passOver render t ms = .ok (if fixes = 0 then none else some ⟨text, fixes⟩) ∧
      (fixes = 0 → text = t) := by
  intro text fixes
  have hfixes : fixes = fixesIn new ms := by
    refine List.countP_congr fun m _ => ?_
    obtain ⟨m, accepted⟩ := m
    cases accepted <;> simp [editOf]
  refine ⟨?_, fun h => ?_⟩
  · rw [hfixes]
    exact passOver_eq horder hnew
  · have hkept : ∀ e ∈ ms.map (editOf new), e.2 = e.1.text := by
      intro e he
      obtain ⟨m, hm, rfl⟩ := List.mem_map.mp he
      have hsame := List.countP_eq_zero.mp (hfixes ▸ h) m hm
      exact Decidable.not_not.mp fun hne => hsame (decide_eq_true hne)
    have hsplice := spliceFrom_of_same (isPlace_zero t) (by rwa [map_editOf])
      (fun _ _ => Nat.zero_le _) hkept
    exact hsplice.trans (dropBytes_zero t)

end Pass

/-- An empty match, one that is left alone, one that is written as it is, and two more. The
replacement looks at where a match stands, and has none for the one that is left alone. -/
theorem passOver_splices_letters :
    let t := "abcab".toList
    let ms : List (Match × Bool) :=
      [(⟨0, [], [], []⟩, true), (⟨0, ['a'], [], []⟩, false), (⟨1, ['b'], [], []⟩, true),
        (⟨2, ['c'], [], []⟩, true), (⟨3, ['a', 'b'], [], []⟩, true)]
    let new (m : Match) : Text :=
      if m.start = 0 then ['('] else if m.start = 2 then []
      else if m.start = 3 then ['x', 'y', 'z'] else m.text
    let render (m : Match) : Except RuleError Text :=
      if m.start = 0 ∧ m.stop = 1 then .error ⟨"not in front"⟩ else .ok (new m)
    InOrder t (ms.map Prod.fst) ∧ (∀ m ∈ ms, m.2 = true → render m.1 = .ok (new m.1)) ∧
      passOver render t ms = .ok (some ⟨"(abxyz".toList, 3⟩) := by
  intro t ms new render
  have horder : InOrder t (ms.map Prod.fst) := by
    refine ⟨?_, by decide⟩
    simp only [ms, List.map_cons, List.map_nil, List.forall_mem_cons]
    exact ⟨⟨[], t, rfl, rfl⟩, ⟨[], "bcab".toList, rfl, rfl⟩, ⟨['a'], "cab".toList, rfl, rfl⟩,
      ⟨['a', 'b'], ['a', 'b'], rfl, rfl⟩, ⟨['a', 'b', 'c'], [], rfl, rfl⟩, nofun⟩
  have hnew : ∀ m ∈ ms, m.2 = true → render m.1 = .ok (new m.1) := by
    simp only [ms, List.forall_mem_cons]
    exact ⟨fun _ => rfl, nofun, fun _ => rfl, fun _ => rfl, fun _ => rfl, nofun⟩
  exact ⟨horder, hnew, (passOver_splices horder hnew).1⟩

end MdxMend
