import MdxMend.Tally
import Mathlib.Algebra.GroupWithZero.Nat
import Mathlib.Data.String.Basic

/-!
# A tally is its counts

A tally keeps its counts in a list, but nothing that is said of one should depend
on how the list came about. It does not: `record` and `merge` keep the names in
strict order, leave no count of zero and keep the total in step (`Sound`), and two
such tallies with the same counts are the same tally (`Sound.ext_count`). What the
two operations do to the counts is addition, name by name. So an equation between
tallies is an equation between numbers: merging is commutative and associative because
addition is. Whatever can be recorded is of this kind (`Recorded.sound`).
-/

namespace MdxMend.Tally

/-- The names are in strict order, no count is zero, and the total is that of the
counts. -/
structure Sound (t : Tally) : Prop where
  sorted : t.byRule.Pairwise fun a b => a.1 < b.1
  pos : ∀ c ∈ t.byRule, 0 < c.2
  total_eq : t.total = (t.byRule.map Prod.snd).sum

theorem sound_empty : Sound {} := ⟨.nil, fun _ h => absurd h List.not_mem_nil, rfl⟩

/-! ## The list of counts -/

/-- The count under a name, in a list of counts. -/
def countIn (counts : List (String × Nat)) (name : String) : Nat :=
  (counts.lookup name).getD 0

theorem countIn_cons (c : String × Nat) (counts : List (String × Nat)) (name : String) :
    countIn (c :: counts) name = if name = c.1 then c.2 else countIn counts name := by
  obtain ⟨other, n⟩ := c
  by_cases h : name = other
  · simp [countIn, h]
  · simp [countIn, List.lookup_cons, h, beq_eq_false_iff_ne.mpr h]

theorem countIn_of_lt {name : String} {counts : List (String × Nat)}
    (h : ∀ c ∈ counts, name < c.1) : countIn counts name = 0 := by
  induction counts with
  | nil => rfl
  | cons c counts ih =>
      rw [countIn_cons, if_neg (h c List.mem_cons_self).ne]
      exact ih fun d hd => h d (List.mem_cons_of_mem c hd)

section AddCount

variable (name : String) (n : Nat)

theorem name_addCount {counts : List (String × Nat)} :
    ∀ c ∈ addCount name n counts, c.1 = name ∨ ∃ d ∈ counts, d.1 = c.1 := by
  induction counts with
  | nil =>
      intro c hc
      rw [List.mem_singleton.mp hc]
      exact .inl rfl
  | cons d counts ih =>
      intro c hc
      unfold addCount at hc
      split at hc
      · rcases List.mem_cons.mp hc with rfl | hc
        · exact .inl rfl
        · exact .inr ⟨c, hc, rfl⟩
      · split at hc
        · next heq =>
            rcases List.mem_cons.mp hc with rfl | hc
            · exact .inl heq.symm
            · exact .inr ⟨c, List.mem_cons_of_mem _ hc, rfl⟩
        · rcases List.mem_cons.mp hc with rfl | hc
          · exact .inr ⟨_, List.mem_cons_self, rfl⟩
          · obtain h | ⟨e, he, heq⟩ := ih c hc
            · exact .inl h
            · exact .inr ⟨e, List.mem_cons_of_mem _ he, heq⟩

theorem sorted_addCount {counts : List (String × Nat)}
    (h : counts.Pairwise fun a b => a.1 < b.1) :
    (addCount name n counts).Pairwise fun a b => a.1 < b.1 := by
  induction counts with
  | nil => exact .cons (fun _ h => absurd h List.not_mem_nil) .nil
  | cons d counts ih =>
      obtain ⟨hd, hcounts⟩ := List.pairwise_cons.mp h
      unfold addCount
      split
      · next hlt =>
          refine .cons (fun c hc => ?_) h
          rcases List.mem_cons.mp hc with rfl | hc
          · exact hlt
          · exact hlt.trans (hd c hc)
      · next hge =>
          split
          · exact .cons hd hcounts
          · next hne =>
              have hlt : d.1 < name := lt_of_le_of_ne (not_lt.mp hge) (Ne.symm hne)
              refine .cons (fun c hc => ?_) (ih hcounts)
              obtain hc | ⟨e, he, heq⟩ := name_addCount name n c hc
              · exact hc ▸ hlt
              · exact heq ▸ hd e he

theorem pos_addCount {counts : List (String × Nat)} (hn : 0 < n) (h : ∀ c ∈ counts, 0 < c.2) :
    ∀ c ∈ addCount name n counts, 0 < c.2 := by
  induction counts with
  | nil => simpa [addCount] using hn
  | cons d counts ih =>
      have hd := h d List.mem_cons_self
      have hrest := fun c hc => h c (List.mem_cons_of_mem d hc)
      unfold addCount
      split
      · exact List.forall_mem_cons.mpr ⟨hn, h⟩
      · split
        · exact List.forall_mem_cons.mpr ⟨Nat.add_pos_left hd n, hrest⟩
        · exact List.forall_mem_cons.mpr ⟨hd, ih hrest⟩

theorem sum_addCount (counts : List (String × Nat)) :
    ((addCount name n counts).map Prod.snd).sum = (counts.map Prod.snd).sum + n := by
  induction counts with
  | nil => simp [addCount]
  | cons d counts ih =>
      unfold addCount
      split
      · simp only [List.map_cons, List.sum_cons]
        omega
      · split
        · simp only [List.map_cons, List.sum_cons]
          omega
        · simp only [List.map_cons, List.sum_cons, ih]
          omega

theorem countIn_addCount {counts : List (String × Nat)}
    (h : counts.Pairwise fun a b => a.1 < b.1) (m : String) :
    countIn (addCount name n counts) m = countIn counts m + if m = name then n else 0 := by
  induction counts with
  | nil =>
      rw [addCount, countIn_cons]
      exact (Nat.zero_add _).symm
  | cons d counts ih =>
      obtain ⟨hd, hcounts⟩ := List.pairwise_cons.mp h
      unfold addCount
      split
      · next hlt =>
          rw [countIn_cons]
          by_cases hm : m = name
          · subst hm
            have hnone : countIn (d :: counts) m = 0 := by
              refine countIn_of_lt fun c hc => ?_
              rcases List.mem_cons.mp hc with rfl | hc
              · exact hlt
              · exact hlt.trans (hd c hc)
            rw [if_pos rfl, if_pos rfl, hnone, Nat.zero_add]
          · rw [if_neg hm, if_neg hm, Nat.add_zero]
      · split
        · next heq =>
            rw [countIn_cons, countIn_cons, heq]
            split <;> rfl
        · next hne =>
            rw [countIn_cons, countIn_cons, ih hcounts]
            by_cases hm : m = d.1
            · rw [if_pos hm, if_pos hm, if_neg fun heq => hne (heq.symm.trans hm), Nat.add_zero]
            · rw [if_neg hm, if_neg hm]

theorem addCount_addCount (m : Nat) (counts : List (String × Nat)) :
    addCount name n (addCount name m counts) = addCount name (m + n) counts := by
  induction counts with
  | nil => simp [addCount]
  | cons d counts ih =>
      by_cases hlt : name < d.1
      · simp [addCount, hlt]
      · by_cases heq : name = d.1
        · simp [addCount, heq, Nat.add_assoc]
        · simp [addCount, hlt, heq, ih]

end AddCount

/-- Counts in order are known from what stands under each name. -/
theorem eq_of_countIn {xs ys : List (String × Nat)} (hxs : xs.Pairwise fun a b => a.1 < b.1)
    (hys : ys.Pairwise fun a b => a.1 < b.1) (hx : ∀ c ∈ xs, 0 < c.2)
    (hy : ∀ c ∈ ys, 0 < c.2) (h : ∀ name, countIn xs name = countIn ys name) : xs = ys := by
  -- The name at the head of one list is not in a list of names that are all behind it.
  have hahead : ∀ {c d : String × Nat} {us vs : List (String × Nat)}, 0 < c.2 → c.1 < d.1 →
      (∀ e ∈ vs, d.1 < e.1) → countIn (c :: us) c.1 ≠ countIn (d :: vs) c.1 := by
    intro c d us vs hc hlt hvs heq
    have hnone : countIn (d :: vs) c.1 = 0 := by
      refine countIn_of_lt fun e he => ?_
      rcases List.mem_cons.mp he with rfl | he
      · exact hlt
      · exact hlt.trans (hvs e he)
    rw [countIn_cons, if_pos rfl, hnone] at heq
    omega
  induction xs generalizing ys with
  | nil =>
      cases ys with
      | nil => rfl
      | cons d ys =>
          have hd := hy d List.mem_cons_self
          have hcount := h d.1
          rw [countIn_cons, if_pos rfl] at hcount
          exact absurd hcount.symm (Nat.ne_of_gt hd)
  | cons c xs ih =>
      have hc := hx c List.mem_cons_self
      obtain ⟨hcxs, hxs⟩ := List.pairwise_cons.mp hxs
      cases ys with
      | nil =>
          have hcount := h c.1
          rw [countIn_cons, if_pos rfl] at hcount
          exact absurd hcount (Nat.ne_of_gt hc)
      | cons d ys =>
          have hd := hy d List.mem_cons_self
          obtain ⟨hdys, hys⟩ := List.pairwise_cons.mp hys
          have hname : c.1 = d.1 := by
            rcases lt_trichotomy c.1 d.1 with hlt | heq | hlt
            · exact absurd (h c.1) (hahead hc hlt hdys)
            · exact heq
            · exact absurd (h d.1).symm (hahead hd hlt hcxs)
          have hcount : c.2 = d.2 := by
            have := h c.1
            rwa [countIn_cons, countIn_cons, if_pos rfl, if_pos hname] at this
          have hrest : ∀ name, countIn xs name = countIn ys name := by
            intro name
            by_cases heq : name = c.1
            · subst heq
              rw [countIn_of_lt hcxs, countIn_of_lt (hname ▸ hdys)]
            · have := h name
              rwa [countIn_cons, countIn_cons, if_neg heq, if_neg (hname ▸ heq)] at this
          rw [Prod.ext hname hcount, ih hxs hys (fun e he => hx e (List.mem_cons_of_mem c he))
            (fun e he => hy e (List.mem_cons_of_mem d he)) hrest]

/-! ## Recording and merging -/

variable {t u : Tally}

/-- Fixes of one rule may be counted at once. -/
theorem record_record (t : Tally) (name : String) (m n : Nat) :
    (t.record name m).record name n = t.record name (m + n) := by
  by_cases hm : m = 0
  · simp [Tally.record, hm]
  · by_cases hn : n = 0
    · simp [Tally.record, hn]
    · simp [Tally.record, hm, hn, addCount_addCount, Nat.add_assoc]

theorem Sound.record (h : t.Sound) (name : String) (n : Nat) : (t.record name n).Sound := by
  unfold Tally.record
  split
  · exact h
  · next hn =>
      refine ⟨sorted_addCount name n h.sorted, pos_addCount name n (Nat.pos_of_ne_zero hn) h.pos,
        ?_⟩
      rw [sum_addCount, ← h.total_eq]

theorem Sound.count_record (h : t.Sound) (name : String) (n : Nat) (m : String) :
    (t.record name n).count m = t.count m + if m = name then n else 0 := by
  unfold Tally.record
  split
  · next hn =>
      rw [hn]
      split <;> rfl
  · exact countIn_addCount name n h.sorted m

theorem Sound.merge (h : t.Sound) (u : Tally) : (t.merge u).Sound := by
  unfold Tally.merge
  generalize u.byRule = counts
  induction counts generalizing t with
  | nil => exact h
  | cons c counts ih => exact ih (h.record c.1 c.2)

theorem Sound.count_merge (h : t.Sound) (hu : u.Sound) (name : String) :
    (t.merge u).count name = t.count name + u.count name := by
  have hsorted := hu.sorted
  change (u.byRule.foldl _ t).count name = t.count name + countIn u.byRule name
  generalize u.byRule = counts at hsorted
  induction counts generalizing t with
  | nil => rfl
  | cons c counts ih =>
      obtain ⟨hc, hcounts⟩ := List.pairwise_cons.mp hsorted
      rw [List.foldl_cons, ih (h.record c.1 c.2) hcounts, h.count_record, countIn_cons]
      by_cases heq : name = c.1
      · rw [if_pos heq, if_pos heq, countIn_of_lt (heq ▸ hc), Nat.add_zero]
      · rw [if_neg heq, if_neg heq, Nat.add_zero]

theorem Sound.ext_count (h : t.Sound) (hu : u.Sound)
    (hcount : ∀ name, t.count name = u.count name) : t = u := by
  have hlist := eq_of_countIn h.sorted hu.sorted h.pos hu.pos hcount
  have htotal : t.total = u.total := by rw [h.total_eq, hu.total_eq, hlist]
  cases t
  cases u
  exact congr (congrArg Tally.mk htotal) hlist

theorem Sound.isEmpty_iff (h : t.Sound) : t.isEmpty = true ↔ t.byRule = [] := by
  rw [isEmpty, beq_iff_eq, h.total_eq]
  cases hcounts : t.byRule with
  | nil => exact iff_of_true rfl rfl
  | cons c counts =>
      have hc : 0 < c.2 := h.pos c (hcounts ▸ List.mem_cons_self)
      refine iff_of_false ?_ (List.cons_ne_nil _ _)
      rw [List.map_cons, List.sum_cons]
      omega

/-! ## Merging is addition -/

variable {v : Tally}

theorem merge_empty (t : Tally) : t.merge .empty = t := rfl

theorem Sound.merge_comm (h : t.Sound) (hu : u.Sound) : t.merge u = u.merge t := by
  refine (h.merge u).ext_count (hu.merge t) fun name => ?_
  rw [h.count_merge hu, hu.count_merge h, Nat.add_comm]

theorem Sound.empty_merge (h : t.Sound) : Tally.empty.merge t = t := sound_empty.merge_comm h

theorem Sound.merge_assoc (h : t.Sound) (hu : u.Sound) (hv : v.Sound) :
    (t.merge u).merge v = t.merge (u.merge v) := by
  refine ((h.merge u).merge v).ext_count (h.merge _) fun name => ?_
  rw [(h.merge u).count_merge hv, h.count_merge hu, h.count_merge (hu.merge v), hu.count_merge hv,
    Nat.add_assoc]

theorem Sound.merge_right_comm (h : t.Sound) (hu : u.Sound) (hv : v.Sound) :
    (t.merge u).merge v = (t.merge v).merge u := by
  rw [h.merge_assoc hu hv, hu.merge_comm hv, h.merge_assoc hv hu]

/-! ## How tallies come about -/

/-- A tally that came about by recording and merging. -/
inductive Recorded : Tally → Prop where
  | empty : Recorded .empty
  | record {t : Tally} (h : Recorded t) (name : String) (n : Nat) : Recorded (t.record name n)
  | merge {t u : Tally} (h : Recorded t) (h' : Recorded u) : Recorded (t.merge u)

theorem Recorded.sound (h : Recorded t) : t.Sound := by
  induction h with
  | empty => exact sound_empty
  | record _ name n ih => exact ih.record name n
  | merge _ _ ih _ => exact ih.merge _

end MdxMend.Tally
