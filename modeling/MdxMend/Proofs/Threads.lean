import Mathlib.Data.List.Basic
import MdxMend.Pattern.Search

/-!
# Many threads and one

A program is run by following all threads at once, with at most one thread for each instruction at a
place. Taken by itself a thread has one ending, which depends on its instruction and its place only
(`Program.Yields`), and the preferred match is what the first thread with an ending would find if it
were followed alone. This module proves that the threads together find that match
(`Program.find?_eq`).

The argument rests on the visited instructions. A thread is dropped if its instruction has been
visited at the same place, and nothing is lost only if that instruction has been followed to its
end: one that is still being followed has put nothing among the threads so far. `Yields` counts the
instructions on the longest chain that consumes nothing, and an instruction that is being followed
has a longer chain than whatever it leads to, so what is dropped is never one of these. `Covers`
says this of the visited instructions but those in `busy`.

A thread costs one step and each instruction that is visited for the first time at most two more,
which is where the number of steps that suffice comes from (`exists_spread`).
-/

namespace MdxMend

/-- How a thread ends with a match: the slots it marks on the way, the latest first, and the number
of characters up to the end of the match. -/
abbrev Outcome := List (Nat × Nat) × Nat

namespace Outcome

/-- The outcome with one more slot, which is marked before the others. -/
def mark (slot n : Nat) (w : Outcome) : Outcome := (w.1 ++ [(slot, n)], w.2)

/-- The outcome where `d` more characters lie in front. -/
def shift (d : Nat) (w : Outcome) : Outcome := (w.1.map fun m => (m.1, m.2 + d), w.2 + d)

theorem shift_mark (d slot n : Nat) (w : Outcome) :
    (w.mark slot n).shift d = (w.shift d).mark slot (n + d) := by
  simp [shift, mark]

end Outcome

/-- Where a thread began, and what it comes to. -/
def Thread.ending (t : Thread) (w : Outcome) : Nat × Outcome := (t.skip, (w.1 ++ t.marks, w.2))

theorem Thread.ending_fresh (s n : Nat) : ending { state := s, skip := n } = (n, ·) := by
  funext w
  simp [ending]

namespace Program

/-- What a thread comes to at a place, `n` characters on, if it is followed alone and prefers the
first way of every fork that leads to a match. `k` is the number of instructions on the longest
chain that consumes nothing. -/
inductive Yields (g : Program) : Nat → Nat → Place → Nat → Option Outcome → Prop
  | accept {n p s} (hs : g.code[s]? = some .accept) : Yields g 0 n p s (some ([], n))
  | consume {k n b c t s set next r} (hs : g.code[s]? = some (.consume set next))
      (hc : set.contains c = true) (h : Yields g k (n + 1) ⟨some c, t⟩ next r) :
      Yields g 0 n ⟨b, c :: t⟩ s r
  | refuse {n p s set next} (hs : g.code[s]? = some (.consume set next))
      (hc : p.after.head?.any set.contains = false) : Yields g 0 n p s none
  | pass {k n p s a next r} (hs : g.code[s]? = some (.check a next)) (ha : p.meets a = true)
      (h : Yields g k n p next r) : Yields g (k + 1) n p s r
  | fail {n p s a next} (hs : g.code[s]? = some (.check a next)) (ha : p.meets a = false) :
      Yields g 0 n p s none
  | mark {k n p s slot next r} (hs : g.code[s]? = some (.mark slot next))
      (h : Yields g k n p next r) : Yields g (k + 1) n p s (r.map (Outcome.mark slot n))
  | fork {k k' n p s first second r r'} (hs : g.code[s]? = some (.fork first second))
      (h : Yields g k n p first r) (h' : Yields g k' n p second r') :
      Yields g (max k k' + 1) n p s (r.or r')

/-- Whether an instruction ends the chain of those that consume nothing. -/
def Rests (g : Program) (s : Nat) : Prop :=
  g.code[s]? = some .accept ∨ ∃ set next, g.code[s]? = some (.consume set next)

/-- Where the first thread with an ending began and what it comes to, among threads that all rest,
the most preferred first. -/
inductive First (g : Program) (n : Nat) (p : Place) : List Thread → Option (Nat × Outcome) → Prop
  | nil : First g n p [] none
  | cons {k t ts r b} (hs : g.Rests t.state) (h : g.Yields k n p t.state r)
      (hts : First g n p ts b) : First g n p (t :: ts) ((r.map t.ending).or b)

variable {g : Program} {k k' n d s next : Nat} {p : Place} {r r' : Option Outcome}
  {a b : Option (Nat × Outcome)} {t : Thread} {ts us found ahead : List Thread} {seen : Array Nat}
  {busy : List Nat}

namespace Yields

/-- A thread by itself has one ending. -/
theorem unique (h : g.Yields k n p s r) (h' : g.Yields k' n p s r') : k = k' ∧ r = r' := by
  induction h generalizing k' r' with
  | accept hs => cases h' <;> simp_all
  | consume hs hc _ ih =>
      cases h' with
      | consume hs' _ h' =>
          simp only [hs, Option.some.injEq, Instruction.consume.injEq] at hs'
          obtain ⟨rfl, rfl⟩ := hs'
          exact ⟨rfl, (ih h').2⟩
      | refuse hs' hc' => simp_all
      | _ hs' => simp [hs] at hs'
  | refuse hs hc =>
      cases h' with
      | consume hs' hc' => simp_all
      | refuse => exact ⟨rfl, rfl⟩
      | _ hs' => simp [hs] at hs'
  | pass hs ha _ ih =>
      cases h' with
      | pass hs' _ h' =>
          simp only [hs, Option.some.injEq, Instruction.check.injEq] at hs'
          obtain ⟨rfl, rfl⟩ := hs'
          exact ⟨congrArg (· + 1) (ih h').1, (ih h').2⟩
      | fail hs' ha' => simp_all
      | _ hs' => simp [hs] at hs'
  | fail hs ha =>
      cases h' with
      | pass hs' ha' => simp_all
      | fail => exact ⟨rfl, rfl⟩
      | _ hs' => simp [hs] at hs'
  | mark hs _ ih =>
      cases h' with
      | mark hs' h' =>
          simp only [hs, Option.some.injEq, Instruction.mark.injEq] at hs'
          obtain ⟨rfl, rfl⟩ := hs'
          obtain ⟨rfl, rfl⟩ := ih h'
          exact ⟨rfl, rfl⟩
      | _ hs' => simp [hs] at hs'
  | fork hs _ _ ih ih' =>
      cases h' with
      | fork hs' h1 h2 =>
          simp only [hs, Option.some.injEq, Instruction.fork.injEq] at hs'
          obtain ⟨rfl, rfl⟩ := hs'
          obtain ⟨rfl, rfl⟩ := ih h1
          obtain ⟨rfl, rfl⟩ := ih' h2
          exact ⟨rfl, rfl⟩
      | _ hs' => simp [hs] at hs'

/-- How many characters lie in front only moves the numbers of an ending. -/
theorem shift (d : Nat) (h : g.Yields k n p s r) :
    g.Yields k (n + d) p s (r.map (Outcome.shift d)) := by
  induction h with
  | accept hs => exact .accept hs
  | consume hs hc _ ih =>
      rw [Nat.add_right_comm] at ih
      exact .consume hs hc ih
  | refuse hs hc => exact .refuse hs hc
  | pass hs ha _ ih => exact .pass hs ha ih
  | fail hs ha => exact .fail hs ha
  | @mark _ n _ _ slot _ r hs _ ih =>
      have h := Yields.mark hs ih
      rw [Option.map_map] at h ⊢
      simpa only [Function.comp_def, Outcome.shift_mark] using h
  | fork hs _ _ ih ih' =>
      rw [Option.map_or]
      exact .fork hs ih ih'

theorem lt_size (h : g.Yields k n p s r) : s < g.code.size := by
  cases h <;> exact (Array.getElem?_eq_some_iff.mp ‹g.code[s]? = some _›).1

end Yields

/-! ## Threads in order of preference -/

namespace First

theorem append (h : g.First n p ts a) (h' : g.First n p us b) :
    g.First n p (ts ++ us) (a.or b) := by
  induction h with
  | nil => exact h'
  | cons hs h _ ih =>
      rw [Option.or_assoc]
      exact .cons hs h ih

theorem of_append (h : g.First n p (ts ++ us) b) :
    ∃ a c, g.First n p ts a ∧ g.First n p us c ∧ b = a.or c := by
  induction ts generalizing b with
  | nil => exact ⟨none, b, .nil, h, rfl⟩
  | cons t ts ih =>
      cases h with
      | cons hs h hts =>
          obtain ⟨a, c, ha, hc, rfl⟩ := ih hts
          exact ⟨_, c, .cons hs h ha, hc, (Option.or_assoc ..).symm⟩

theorem unique (h : g.First n p ts a) (h' : g.First n p ts b) : a = b := by
  induction h generalizing b with
  | nil =>
      cases h'
      rfl
  | cons _ h _ ih =>
      cases h' with
      | cons _ h' hts' => rw [(h.unique h').2, ih hts']

theorem concat (h : g.First n p ts b) (hs : g.Rests t.state) (ht : g.Yields k n p t.state r) :
    g.First n p (ts ++ [t]) (b.or (r.map t.ending)) := by
  have := h.append (.cons hs ht .nil)
  rwa [Option.or_none] at this

end First

/-! ## Visited instructions -/

/-- What may still be visited at a place that lies `n` characters on. -/
def unseen (n : Nat) (seen : Array Nat) : Nat := seen.countP (· != n + 1)

/-- What the visited instructions promise: each of them, unless it is still being followed, comes to
nothing or is not preferred to what the threads so far come to. -/
structure Covers (g : Program) (n : Nat) (p : Place) (busy : List Nat) (seen : Array Nat)
    (b : Option (Nat × Outcome)) : Prop where
  size : seen.size = g.code.size
  le : ∀ s, seen.getD s 0 ≤ n + 1
  done : ∀ s k w, seen.getD s 0 = n + 1 → s ∉ busy → g.Yields k n p s (some w) → b.isSome

theorem getD_setIfInBounds {i x : Nat} (h : i < seen.size) (s : Nat) :
    (seen.setIfInBounds i x).getD s 0 = if s = i then x else seen.getD s 0 := by
  simp only [Array.getD_eq_getD_getElem?, Array.getElem?_setIfInBounds]
  by_cases hs : i = s
  · subst hs
    simp [h]
  · simp [hs, Ne.symm hs]

/-- A visit for the first time uses up one of those that are left. -/
theorem unseen_set (hs : s < seen.size) (hnew : seen.getD s 0 ≠ n + 1) :
    unseen n (seen.setIfInBounds s (n + 1)) + 1 = unseen n seen := by
  have hold : (seen[s] != n + 1) = true := by
    simpa [Array.getD_eq_getD_getElem?, hs] using hnew
  have hpos : 0 < seen.countP (· != n + 1) :=
    Array.countP_pos_iff.mpr ⟨seen[s], Array.getElem_mem hs, hold⟩
  rw [unseen, unseen, Array.setIfInBounds, dif_pos hs, Array.countP_set hs, if_pos hold,
    bne_self_eq_false, if_neg Bool.false_ne_true]
  omega

namespace Covers

theorem visit (h : g.Covers n p busy seen b) (hs : s < g.code.size) :
    g.Covers n p (s :: busy) (seen.setIfInBounds s (n + 1)) b where
  size := by rw [Array.size_setIfInBounds, h.size]
  le i := by
    rw [getD_setIfInBounds (h.size ▸ hs)]
    split
    · exact Nat.le_refl _
    · exact h.le i
  done i k w hi hbusy hy := by
    rw [List.mem_cons, not_or] at hbusy
    rw [getD_setIfInBounds (h.size ▸ hs), if_neg hbusy.1] at hi
    exact h.done i k w hi hbusy.2 hy

/-- An instruction that has been followed to its end need not be excepted any more. -/
theorem leave (h : g.Covers n p (s :: busy) seen b) (hs : g.Yields k n p s r)
    (hr : r.isSome → b.isSome) : g.Covers n p busy seen b where
  size := h.size
  le := h.le
  done i k' w hi hbusy hy := by
    by_cases his : i = s
    · subst his
      rw [(hs.unique hy).2] at hr
      exact hr rfl
    · exact h.done i k' w hi (by simp [his, hbusy]) hy

theorem or (h : g.Covers n p busy seen a) (b : Option (Nat × Outcome)) :
    g.Covers n p busy seen (a.or b) where
  size := h.size
  le := h.le
  done i k w hi hbusy hy := by simp [h.done i k w hi hbusy hy]

/-- Nothing has been visited at the place behind. -/
theorem onward (h : g.Covers n p busy seen a) (q : Place) : g.Covers (n + 1) q [] seen none where
  size := h.size
  le i := Nat.le_succ_of_le (h.le i)
  done i k w hi := absurd (h.le i) (by omega)

theorem start (g : Program) (p : Place) :
    g.Covers 0 p [] (Array.replicate g.code.size 0) none where
  size := by simp
  le i := by simp [Array.getD_eq_getD_getElem?, Array.getElem?_replicate]; split <;> simp
  done i k w hi := by
    simp only [Array.getD_eq_getD_getElem?, Array.getElem?_replicate] at hi
    split at hi <;> simp at hi

end Covers

/-! ## One thread at a place -/

theorem spread_seen (h : seen.getD t.state 0 = n + 1) (fuel : Nat) (stack found : List Thread) :
    g.spread p n (fuel + 1) (t :: stack) seen found = g.spread p n fuel stack seen found := by
  rw [spread, if_pos (beq_iff_eq.mpr h)]

section

variable (hnew : seen.getD t.state 0 ≠ n + 1) (fuel : Nat) (stack found : List Thread)
include hnew

theorem spread_rests (hs : g.Rests t.state) :
    g.spread p n (fuel + 1) (t :: stack) seen found =
      g.spread p n fuel stack (seen.setIfInBounds t.state (n + 1)) (t :: found) := by
  rcases hs with hs | ⟨set, next, hs⟩ <;> rw [spread, if_neg (mt beq_iff_eq.mp hnew), hs]

theorem spread_check {a : Anchor} (hs : g.code[t.state]? = some (.check a next)) :
    g.spread p n (fuel + 1) (t :: stack) seen found =
      g.spread p n fuel (if p.meets a then { t with state := next } :: stack else stack)
        (seen.setIfInBounds t.state (n + 1)) found := by
  rw [spread, if_neg (mt beq_iff_eq.mp hnew), hs]
  cases ha : p.meets a <;> simp [ha]

theorem spread_mark {slot : Nat} (hs : g.code[t.state]? = some (.mark slot next)) :
    g.spread p n (fuel + 1) (t :: stack) seen found =
      g.spread p n fuel ({ t with state := next, marks := (slot, n) :: t.marks } :: stack)
        (seen.setIfInBounds t.state (n + 1)) found := by
  rw [spread, if_neg (mt beq_iff_eq.mp hnew), hs]

theorem spread_fork {first second : Nat} (hs : g.code[t.state]? = some (.fork first second)) :
    g.spread p n (fuel + 1) (t :: stack) seen found =
      g.spread p n fuel ({ t with state := first } :: { t with state := second } :: stack)
        (seen.setIfInBounds t.state (n + 1)) found := by
  rw [spread, if_neg (mt beq_iff_eq.mp hnew), hs]

end

/-- What following threads does to the visited instructions and the threads so far, whatever else is
on the stack: they join the threads so far with the ending of the first that has one, and the steps
are paid for by the instructions that have been visited. -/
def Spreads (g : Program) (n : Nat) (p : Place) (busy : List Nat) (ts : List Thread)
    (a : Option (Nat × Outcome)) : Prop :=
  ∀ seen found b, g.Covers n p busy seen b → g.First n p found.reverse b →
    ∃ cost seen' found', cost + 2 * unseen n seen' ≤ ts.length + 2 * unseen n seen ∧
      (∀ fuel stack, g.spread p n (fuel + cost) (ts ++ stack) seen found =
        g.spread p n fuel stack seen' found') ∧
      g.Covers n p busy seen' (b.or a) ∧ g.First n p found'.reverse (b.or a)

namespace Spreads

theorem nil : g.Spreads n p busy [] none := by
  intro seen found b hc hf
  refine ⟨0, seen, found, by simp, fun fuel stack => rfl, ?_, ?_⟩
  · exact hc.or none
  · rwa [Option.or_none]

theorem append (h : g.Spreads n p busy ts a) (h' : g.Spreads n p busy us b) :
    g.Spreads n p busy (ts ++ us) (a.or b) := by
  intro seen found c hc hf
  obtain ⟨cost, seen₁, found₁, hcost, hrun, hc₁, hf₁⟩ := h seen found c hc hf
  obtain ⟨cost', seen₂, found₂, hcost', hrun', hc₂, hf₂⟩ := h' seen₁ found₁ _ hc₁ hf₁
  rw [Option.or_assoc] at hc₂ hf₂
  refine ⟨cost' + cost, seen₂, found₂, ?_, fun fuel stack => ?_, hc₂, hf₂⟩
  · rw [List.length_append]
    omega
  · rw [← Nat.add_assoc, List.append_assoc, hrun, hrun']

/-- An instruction that has been visited and followed to its end brings nothing new. -/
theorem of_seen (h : g.Yields k n p t.state r) (hbusy : t.state ∉ busy)
    (hc : g.Covers n p busy seen b) (hseen : seen.getD t.state 0 = n + 1) :
    b.or (r.map t.ending) = b := by
  cases r with
  | none => exact Option.or_none
  | some w => exact Option.or_of_isSome (hc.done _ _ w hseen hbusy h)

theorem of_rests (h : g.Yields k n p t.state r) (hs : g.Rests t.state) (hbusy : t.state ∉ busy) :
    g.Spreads n p busy [t] (r.map t.ending) := by
  intro seen found b hc hf
  by_cases hseen : seen.getD t.state 0 = n + 1
  · rw [of_seen h hbusy hc hseen]
    exact ⟨1, seen, found, Nat.le_refl _, fun fuel stack => spread_seen hseen fuel stack found, hc,
      hf⟩
  · have hless := unseen_set (hc.size ▸ h.lt_size) hseen
    refine ⟨1, _, t :: found, ?_, fun fuel stack => spread_rests hseen fuel stack found hs,
      ((hc.visit h.lt_size).or _).leave h ?_, ?_⟩
    · rw [List.length_singleton]
      omega
    · intro hr
      simp [hr]
    · rw [List.reverse_cons]
      exact hf.concat hs h

/-- A visit for the first time puts other threads in place of the one that comes to an
instruction. -/
theorem of_step (ts : List Thread) (h : g.Yields k n p t.state r) (hbusy : t.state ∉ busy)
    (hts : ts.length ≤ 2)
    (hstep : ∀ seen fuel stack found, seen.getD t.state 0 ≠ n + 1 →
      g.spread p n (fuel + 1) (t :: stack) seen found =
        g.spread p n fuel (ts ++ stack) (seen.setIfInBounds t.state (n + 1)) found)
    (hspread : g.Spreads n p (t.state :: busy) ts (r.map t.ending)) :
    g.Spreads n p busy [t] (r.map t.ending) := by
  intro seen found b hc hf
  by_cases hseen : seen.getD t.state 0 = n + 1
  · rw [of_seen h hbusy hc hseen]
    exact ⟨1, seen, found, Nat.le_refl _, fun fuel stack => spread_seen hseen fuel stack found, hc,
      hf⟩
  · have hless := unseen_set (hc.size ▸ h.lt_size) hseen
    obtain ⟨cost, seen', found', hcost, hrun, hc', hf'⟩ :=
      hspread _ found b (hc.visit h.lt_size) hf
    refine ⟨cost + 1, seen', found', ?_, fun fuel stack => ?_, hc'.leave h ?_, hf'⟩
    · rw [List.length_singleton]
      omega
    · rw [← Nat.add_assoc]
      exact (hstep seen _ stack found hseen).trans (hrun fuel stack)
    · intro hr
      simp [hr]

end Spreads

/-- Whatever an instruction leads to has a shorter chain than the instruction itself, and than those
that are being followed. -/
theorem Yields.shorter (h : g.Yields k n p s r) (hk : k' < k)
    (hbusy : ∀ e ∈ busy, ∀ m c, g.Yields m n p e c → k < m) :
    ∀ e ∈ s :: busy, ∀ m c, g.Yields m n p e c → k' < m := by
  intro e he m c hm
  rcases List.mem_cons.mp he with rfl | he
  · exact (h.unique hm).1 ▸ hk
  · exact Nat.lt_trans hk (hbusy e he m c hm)

theorem Yields.not_mem_busy (h : g.Yields k n p s r)
    (hbusy : ∀ e ∈ busy, ∀ m c, g.Yields m n p e c → k < m) : s ∉ busy :=
  fun he => absurd (hbusy s he k r h) (Nat.lt_irrefl k)

/-- Every thread with an ending spreads, unless its instruction is being followed already. -/
theorem Yields.spreads (h : g.Yields k n p s r) :
    ∀ {t : Thread} {busy : List Nat}, t.state = s →
      (∀ e ∈ busy, ∀ m c, g.Yields m n p e c → k < m) →
        g.Spreads n p busy [t] (r.map t.ending) := by
  induction h with
  | accept hs =>
      rintro t busy rfl hbusy
      exact .of_rests (.accept hs) (.inl hs) ((Yields.accept hs).not_mem_busy hbusy)
  | @consume k n b _ _ _ _ _ _ hs hc h _ =>
      rintro t busy rfl hbusy
      have h := Yields.consume (b := b) hs hc h
      exact .of_rests h (.inr ⟨_, _, hs⟩) (h.not_mem_busy hbusy)
  | refuse hs hc =>
      rintro t busy rfl hbusy
      exact .of_rests (.refuse hs hc) (.inr ⟨_, _, hs⟩) ((Yields.refuse hs hc).not_mem_busy hbusy)
  | @fail n _ _ _ _ hs ha =>
      rintro t busy rfl hbusy
      have h := Yields.fail (n := n) hs ha
      refine .of_step [] h (h.not_mem_busy hbusy) (Nat.zero_le 2)
        (fun seen fuel stack found hnew => ?_) .nil
      rw [spread_check hnew _ _ _ hs, ha]
      rfl
  | @pass _ _ _ _ _ next _ hs ha h ih =>
      rintro t busy rfl hbusy
      have h := Yields.pass hs ha h
      refine .of_step [_] h (h.not_mem_busy hbusy) (Nat.le_succ 1)
        (fun seen fuel stack found hnew => ?_)
        (ih (t := { t with state := next }) rfl (h.shorter (Nat.lt_succ_self _) hbusy))
      rw [spread_check hnew _ _ _ hs, if_pos ha]
      rfl
  | @mark _ n _ _ slot next r hs h ih =>
      rintro t busy rfl hbusy
      have h := Yields.mark hs h
      have hending : (r.map (Outcome.mark slot n)).map t.ending =
          r.map (Thread.ending { t with state := next, marks := (slot, n) :: t.marks }) := by
        rw [Option.map_map]
        refine congrArg (Option.map · r) (funext fun w => ?_)
        simp [Thread.ending, Outcome.mark]
      refine .of_step [_] h (h.not_mem_busy hbusy) (Nat.le_succ 1)
        (fun seen fuel stack found hnew => spread_mark hnew _ _ _ hs) ?_
      rw [hending]
      exact ih rfl (h.shorter (Nat.lt_succ_self _) hbusy)
  | @fork k k' _ _ _ first second _ _ hs h h' ih ih' =>
      rintro t busy rfl hbusy
      have h := Yields.fork hs h h'
      have ih := ih (t := { t with state := first }) rfl
        (h.shorter (Nat.lt_succ_of_le (Nat.le_max_left ..)) hbusy)
      have ih' := ih' (t := { t with state := second }) rfl
        (h.shorter (Nat.lt_succ_of_le (Nat.le_max_right ..)) hbusy)
      refine .of_step [_, _] h (h.not_mem_busy hbusy) (Nat.le_refl 2)
        (fun seen fuel stack found hnew => spread_fork hnew _ _ _ hs) ?_
      rw [Option.map_or]
      exact ih.append ih'

/-- The number of steps suffices. -/
theorem spread_reach (h : g.Yields k n p t.state r) (hc : g.Covers n p [] seen b)
    (hf : g.First n p found.reverse b) :
    ∃ seen' found', g.spread p n g.reach [t] seen found = (seen', found') ∧
      g.Covers n p [] seen' (b.or (r.map t.ending)) ∧
      g.First n p found'.reverse (b.or (r.map t.ending)) := by
  obtain ⟨cost, seen', found', hcost, hrun, hc', hf'⟩ :=
    h.spreads rfl (fun _ he => absurd he List.not_mem_nil) seen found b hc hf
  have hle : cost ≤ g.reach := by
    have : unseen n seen ≤ g.code.size := hc.size ▸ Array.countP_le_size
    rw [List.length_singleton] at hcost
    unfold reach
    omega
  refine ⟨seen', found', ?_, hc', hf'⟩
  have := hrun (g.reach - cost) []
  rw [Nat.sub_add_cancel hle] at this
  rw [← List.append_nil [t], this]
  cases g.reach - cost <;> rfl

/-! ## From one place to the next -/

/-- Where a thread that has accepted began, and what it has come to. -/
def ended (m : Thread × Nat) : Nat × Outcome := (m.1.skip, (m.1.marks, m.2))

/-- Whether a thread has to consume a character. -/
def Waits (g : Program) (t : Thread) : Prop :=
  ∃ set next, g.code[t.state]? = some (.consume set next)

/-- At the end of the text there is no character to consume. -/
theorem First.eq_none (h : g.First n p ts b) (hp : p.after = []) (hts : ∀ t ∈ ts, g.Waits t) :
    b = none := by
  induction h with
  | nil => rfl
  | @cons _ t _ _ _ _ hy _ ih =>
      obtain ⟨set, next, ht⟩ := hts t List.mem_cons_self
      rw [ih fun u hu => hts u (List.mem_cons_of_mem _ hu)]
      have := (Yields.refuse (n := n) ht (by rw [hp]; rfl)).unique hy
      rw [← this.2]
      rfl

theorem settle_first (ahead : List Thread) (accepting : Option Thread)
    (h : g.First n p (found.reverse ++ ahead) b) (hahead : ∀ t ∈ ahead, g.Waits t) :
    ∃ c, g.First n p (g.settle ahead accepting found).1 c ∧
      (∀ t ∈ (g.settle ahead accepting found).1, g.Waits t) ∧
      c.or ((g.settle ahead accepting found).2.map fun t => ended (t, n)) =
        b.or (accepting.map fun t => ended (t, n)) := by
  induction found generalizing ahead accepting b with
  | nil => exact ⟨b, h, hahead, rfl⟩
  | cons t found ih =>
      rw [List.reverse_cons, List.append_assoc, List.singleton_append] at h
      obtain ⟨a, d, ha, hd, rfl⟩ := h.of_append
      cases hd with
      | cons hs hy hts =>
          rcases hs with hs | ⟨set, next, hs⟩
          · rw [settle, hs]
            rw [((Yields.accept hs).unique hy).2.symm]
            obtain ⟨c, hc, hwait, heq⟩ := ih [] (some t) (by rwa [List.append_nil]) (by simp)
            refine ⟨c, hc, hwait, heq.trans ?_⟩
            simp [Thread.ending, ended]
          · rw [settle, hs]
            refine ih (t :: ahead) accepting h fun u hu => ?_
            rcases List.mem_cons.mp hu with rfl | hu
            · exact ⟨set, next, hs⟩
            · exact hahead u hu

theorem settle_found (h : g.First n p found.reverse b) :
    ∃ ahead accepting c, g.settle [] none found = (ahead, accepting) ∧ g.First n p ahead c ∧
      (∀ t ∈ ahead, g.Waits t) ∧ b = c.or (accepting.map fun t => ended (t, n)) := by
  rw [← List.append_nil found.reverse] at h
  obtain ⟨c, hc, hwait, heq⟩ := settle_first [] none h (by simp)
  exact ⟨_, _, c, rfl, hc, hwait, (Option.or_none.symm.trans heq.symm)⟩

theorem consume_first {before : Option Char} {c : Char} {rest : Text} (seen : Array Nat)
    (found : List Thread) (h : g.First n ⟨before, c :: rest⟩ ts a) (hts : ∀ t ∈ ts, g.Waits t)
    (hc : g.Covers (n + 1) ⟨some c, rest⟩ [] seen b)
    (hf : g.First (n + 1) ⟨some c, rest⟩ found.reverse b) :
    ∃ seen' found', g.consume c ⟨some c, rest⟩ (n + 1) ts seen found = (seen', found') ∧
      g.Covers (n + 1) ⟨some c, rest⟩ [] seen' (b.or a) ∧
      g.First (n + 1) ⟨some c, rest⟩ found'.reverse (b.or a) := by
  induction h generalizing seen found b with
  | nil =>
      rw [Option.or_none]
      exact ⟨seen, found, rfl, hc, hf⟩
  | @cons _ t ts _ _ hs hy _ ih =>
      obtain ⟨set, next, ht⟩ := hts t List.mem_cons_self
      have ih seen found {b} := @ih b seen found fun u hu => hts u (List.mem_cons_of_mem _ hu)
      rw [consume, ht]
      cases hy with
      | consume hs' hin hnext =>
          simp only [ht, Option.some.injEq, Instruction.consume.injEq] at hs'
          obtain ⟨rfl, rfl⟩ := hs'
          obtain ⟨seen₁, found₁, hrun, hc₁, hf₁⟩ :=
            spread_reach (t := { t with state := next }) hnext hc hf
          simp only [if_pos hin, hrun]
          rw [← Option.or_assoc]
          exact ih seen₁ found₁ hc₁ hf₁
      | refuse hs' hout =>
          simp only [ht, Option.some.injEq, Instruction.consume.injEq] at hs'
          obtain ⟨rfl, rfl⟩ := hs'
          have hout : set.contains c = false := by simpa using hout
          simp only [hout, Bool.false_eq_true, if_false]
          exact ih seen found hc hf
      | _ hs' => simp [ht] at hs'

/-- The first place from which a thread of its own has an ending, where `n` characters lie in front:
how many lie in front of it, and the ending. -/
def firstStart? (f : Nat → Place → Option Outcome) (n : Nat) (before : Option Char) :
    Text → Option (Nat × Outcome)
  | [] => (f n ⟨before, []⟩).map (n, ·)
  | c :: t => ((f n ⟨before, c :: t⟩).map (n, ·)).or (firstStart? f (n + 1) (some c) t)

section

variable {f : Nat → Place → Option Outcome} (hstart : ∀ n p, ∃ k, g.Yields k n p g.start (f n p))
include hstart

theorem enter_first (best : Option (Thread × Nat)) (hc : g.Covers n p [] seen b)
    (hf : g.First n p found.reverse b) :
    ∃ seen' found' a, g.enter p n best.isSome seen found = (seen', found') ∧
      g.Covers n p [] seen' a ∧ g.First n p found'.reverse a ∧
      a.or (best.map ended) = b.or ((best.map ended).or ((f n p).map (n, ·))) := by
  cases best with
  | some m => exact ⟨seen, found, b, rfl, hc, hf, by simp⟩
  | none =>
      obtain ⟨k, hy⟩ := hstart n p
      obtain ⟨seen', found', hrun, hc', hf'⟩ :=
        spread_reach (t := { state := g.start, skip := n }) hy hc hf
      rw [Thread.ending_fresh] at hc' hf'
      exact ⟨seen', found', _, hrun, hc', hf', Option.or_none⟩

/-- A run finds what the first thread with an ending finds by itself: one that is under way, or else
the best match so far, or else one that begins here or later. -/
theorem runFrom_first (found : List Thread) (best : Option (Thread × Nat)) {before : Option Char}
    {rest : Text} (hc : g.Covers n ⟨before, rest⟩ [] seen b)
    (hf : g.First n ⟨before, rest⟩ found.reverse b) :
    (g.runFrom n seen found best before rest).map ended =
      b.or ((best.map ended).or (firstStart? f n before rest)) := by
  induction rest generalizing n seen found b best before with
  | nil =>
      obtain ⟨seen', found', a, hrun, -, hf', ha⟩ := enter_first hstart best hc hf
      obtain ⟨ahead, accepting, d, hsettle, hd, hwait, rfl⟩ := settle_found hf'
      obtain rfl := hd.eq_none rfl hwait
      simp only [runFrom, hrun, hsettle]
      rw [firstStart?, ← ha, Option.map_or, Option.map_map]
      rfl
  | cons c rest ih =>
      obtain ⟨seen', found', a, hrun, hc', hf', ha⟩ := enter_first hstart best hc hf
      obtain ⟨ahead, accepting, d, hsettle, hd, hwait, rfl⟩ := settle_found hf'
      let best' := (accepting.map (·, n)).or best
      have hbest : best'.map ended =
          (accepting.map fun t => ended (t, n)).or (best.map ended) := by
        rw [Option.map_or, Option.map_map]
        rfl
      have hall : b.or ((best.map ended).or (firstStart? f n before (c :: rest))) =
          d.or ((best'.map ended).or (firstStart? f (n + 1) (some c) rest)) := by
        simp only [Option.or_assoc] at ha
        rw [hbest, firstStart?]
        calc
          _ = (b.or ((best.map ended).or ((f n ⟨before, c :: rest⟩).map (n, ·)))).or
                (firstStart? f (n + 1) (some c) rest) := by simp only [Option.or_assoc]
          _ = _ := by rw [← ha]; simp only [Option.or_assoc]
      rw [hall]
      simp only [runFrom, hrun, hsettle]
      split
      · -- No thread is left that could be preferred to the match.
        next hstop =>
        obtain ⟨hahead, hsome⟩ := Bool.and_eq_true_iff.mp hstop
        obtain rfl := List.isEmpty_iff.mp hahead
        obtain rfl := hd.unique .nil
        rw [Option.none_or]
        exact (Option.or_of_isSome ((Option.isSome_map ..).trans hsome)).symm
      · obtain ⟨seen'', found'', hconsume, hc'', hf''⟩ :=
          consume_first seen' [] hd hwait (hc'.onward _) .nil
        rw [hconsume, ih found'' best' hc'' hf'']
        rfl

/-- How many characters lie in front makes no difference to a thread that begins here. -/
theorem start_shift (n : Nat) (p : Place) : f n p = (f 0 p).map (Outcome.shift n) := by
  obtain ⟨k, hy⟩ := hstart 0 p
  obtain ⟨k', hy'⟩ := hstart n p
  have := hy.shift n
  rw [Nat.zero_add] at this
  exact (hy'.unique this).2

end

/-! ## The match that is found -/

theorem lookup_shift (d slot : Nat) (marks : List (Nat × Nat)) :
    (marks.map fun m => (m.1, m.2 + d)).lookup slot = (marks.lookup slot).map (· + d) := by
  induction marks with
  | nil => rfl
  | cons m marks ih =>
      rw [List.map_cons, List.lookup_cons, List.lookup_cons, ih]
      split <;> rfl

theorem groupAt?_shift (t : Text) (d : Nat) (marks : List (Nat × Nat)) (i : Nat) :
    groupAt? t d (marks.map fun m => (m.1, m.2 + d)) i = groupAt? (t.drop d) 0 marks i := by
  unfold groupAt?
  rw [lookup_shift, lookup_shift]
  cases marks.lookup (2 * i) with
  | none => rfl
  | some first =>
      cases marks.lookup (2 * i + 1) with
      | none => rfl
      | some last =>
          simp [List.drop_drop, Nat.add_comm d, Nat.add_sub_add_right]

end Program

/-- What a thread that begins at the head of a text has matched of it. -/
def Outcome.sighting (groups : Nat) (t : Text) (w : Outcome) : Sighting where
  length := w.2
  groups := (List.range groups).filterMap fun i =>
    (Program.groupAt? t 0 w.1 (i + 1)).map ((i + 1, ·))

namespace Program

variable {g : Program} {f : Nat → Place → Option Outcome}

theorem firstStart?_map {look : Place → Option Sighting} {seen : Nat × Outcome → Nat × Sighting}
    {t : Text}
    (h : ∀ n q, q.after = t.drop n → (f n q).map (fun w => seen (n, w)) = (look q).map (n, ·))
    (n : Nat) (before : Option Char) (rest : Text) (hrest : rest = t.drop n) :
    (firstStart? f n before rest).map seen = Pattern.firstFrom look n before rest := by
  induction rest generalizing n before with
  | nil =>
      rw [firstStart?, Pattern.firstFrom, Option.map_map]
      exact h n ⟨before, []⟩ hrest
  | cons c rest ih =>
      have hnext : rest = t.drop (n + 1) := by rw [← List.tail_drop, ← hrest, List.tail_cons]
      have hhere := h n ⟨before, c :: rest⟩ hrest
      rw [firstStart?, Pattern.firstFrom, Option.map_or, Option.map_map, ih (n + 1) _ hnext]
      simp only [Function.comp_def, hhere]
      cases look ⟨before, c :: rest⟩ <;> rfl

/-- A program finds what a thread finds that is followed alone, from the first place from which it
finds anything. -/
theorem find?_eq (hstart : ∀ n p, ∃ k, g.Yields k n p g.start (f n p)) (p : Place) :
    g.find? p =
      Pattern.firstFrom (fun q => (f 0 q).map (Outcome.sighting g.groups q.after)) 0 p.before
        p.after := by
  let seen (m : Nat × Outcome) : Nat × Sighting := (m.1, {
    length := m.2.2 - m.1
    groups := (List.range g.groups).filterMap fun i =>
      (groupAt? p.after m.1 m.2.1 (i + 1)).map ((i + 1, ·)) })
  have hseen (n : Nat) (w : Outcome) :
      seen (n, w.shift n) = (n, w.sighting g.groups (p.after.drop n)) := by
    simp [seen, Outcome.shift, Outcome.sighting, groupAt?_shift]
  have hrun := runFrom_first hstart [] none (Covers.start g p) .nil
  calc
    g.find? p = ((g.runFrom 0 (Array.replicate g.code.size 0) [] none p.before p.after).map
        ended).map seen := by
      rw [Option.map_map]
      rfl
    _ = (firstStart? f 0 p.before p.after).map seen := by
      rw [hrun]
      rfl
    _ = _ := by
      refine firstStart?_map (fun n q hq => ?_) 0 p.before p.after rfl
      rw [start_shift hstart n, Option.map_map, Option.map_map]
      simp only [Function.comp_def, hseen, hq]

end Program

end MdxMend
