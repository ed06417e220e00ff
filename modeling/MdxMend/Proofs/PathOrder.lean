import MdxMend.Proofs.PathNames
import Mathlib.Data.List.Sort

/-!
# Paths in order

Paths are ordered by what they mean, so two paths of which neither comes before the other mean the
same (`compare_eq_iff`). In a sorted list such paths stand next to each other. That is why looking
at neighbours is enough to drop all repeats (`compare_of_mem_dropWhile`), and why a sorted list
without repeats is known from what its paths mean, whatever it was made of
(`components_sortDistinct_congr`).

A name that a path is joined with is one more component at its end (`components_join`), whether the
path is written with a slash or a dot at its end or not.
-/

namespace MdxMend

instance RawText.transOrd : Std.TransOrd RawText :=
  inferInstanceAs (Std.TransCmp (compareOn bytes))

instance RawText.lawfulEqOrd : Std.LawfulEqOrd RawText where
  eq_of_compare h := RawText.ext (Std.LawfulEqOrd.eq_of_compare h)

namespace Path

variable {p q : Path} {paths paths' : List Path} {cs : List Component} {t u : List UInt8}

/-! ## The order -/

instance Component.transCmp : Std.TransCmp Component.compare :=
  inferInstanceAs (Std.TransCmp (compareLex (compareOn rank) (compareOn label)))

instance Component.lawfulEqCmp : Std.LawfulEqCmp Component.compare where
  eq_of_compare {a b} h := by
    obtain ⟨hrank, hlabel⟩ := compareLex_eq_eq.mp h
    have hr : rank a = rank b := Std.LawfulEqCmp.eq_of_compare hrank
    have hl : label a = label b := Std.LawfulEqCmp.eq_of_compare hlabel
    cases a <;> cases b <;> simp_all [rank, label]

instance transCmp : Std.TransCmp compare where
  eq_swap {p q} := by
    have h : Std.OrientedCmp (List.compareLex Component.compare) := inferInstance
    exact h.eq_swap
  isLE_trans {p q r} hpq hqr := by
    have h : Std.TransCmp (List.compareLex Component.compare) := inferInstance
    exact h.isLE_trans hpq hqr

/-- Neither path comes before the other just if they have the same components. -/
theorem compare_eq_iff : compare p q = .eq ↔ p.components = q.components := by
  have h : Std.LawfulEqCmp (List.compareLex Component.compare) := inferInstance
  exact h.compare_eq_iff_eq

instance asymm_compareLex :
    Std.Asymm fun cs ds : List Component => List.compareLex Component.compare cs ds = .lt :=
  ⟨fun _ _ => Std.OrientedCmp.not_lt_of_lt⟩

theorem same_iff : p.same q = true ↔ p.components = q.components := beq_iff_eq

theorem pairwise_sort (paths : List Path) :
    (paths.mergeSort fun p q => (compare p q).isLE).Pairwise fun p q =>
      (compare p q).isLE = true := by
  refine List.pairwise_mergeSort (fun p q r => Std.TransCmp.isLE_trans) (fun p q => ?_) paths
  rw [transCmp.eq_swap]
  cases compare q p <;> rfl

/-! ## Repeats -/

/-- Of a sorted list, what is left when the paths equal to the first are dropped comes behind it. -/
theorem compare_of_mem_dropWhile
    (h : (p :: paths).Pairwise fun p q => (compare p q).isLE = true)
    (hq : q ∈ paths.dropWhile p.same) : compare p q = .lt := by
  induction paths with
  | nil => cases hq
  | cons r paths ih =>
      rw [List.pairwise_cons, List.forall_mem_cons] at h
      obtain ⟨⟨hpr, hp⟩, hr⟩ := h
      by_cases hsame : p.same r = true
      · rw [List.dropWhile_cons_of_pos hsame] at hq
        exact ih (List.pairwise_cons.mpr ⟨hp, hr.of_cons⟩) hq
      · -- Behind the first path that differs nothing can be equal again.
        rw [List.dropWhile_cons_of_neg hsame] at hq
        have hlt : compare p r = .lt := by
          cases hcmp : compare p r with
          | lt => rfl
          | eq => exact absurd (same_iff.mpr (compare_eq_iff.mp hcmp)) hsame
          | gt => rw [hcmp] at hpr; cases hpr
        rcases List.mem_cons.mp hq with rfl | hq
        · exact hlt
        · exact Std.TransCmp.lt_of_lt_of_isLE hlt ((List.pairwise_cons.mp hr).1 q hq)

theorem dropRepeats_sublist (paths : List Path) : (dropRepeats paths).Sublist paths := by
  induction paths using dropRepeats.induct with
  | case1 =>
      simp [dropRepeats]
  | case2 p paths ih =>
      rw [dropRepeats]
      exact (ih.trans (List.dropWhile_sublist _)).cons_cons p

theorem pairwise_dropRepeats
    (h : paths.Pairwise fun p q => (compare p q).isLE = true) :
    (dropRepeats paths).Pairwise fun p q => compare p q = .lt := by
  induction paths using dropRepeats.induct with
  | case1 =>
      rw [dropRepeats]
      exact .nil
  | case2 p paths ih =>
      rw [dropRepeats, List.pairwise_cons]
      exact ⟨fun q hq => compare_of_mem_dropWhile h ((dropRepeats_sublist _).subset hq),
        ih (h.of_cons.sublist (List.dropWhile_sublist _))⟩

/-- What is dropped is equal to what is kept. -/
theorem mem_components_dropRepeats :
    cs ∈ (dropRepeats paths).map components ↔ cs ∈ paths.map components := by
  induction paths using dropRepeats.induct with
  | case1 => rw [dropRepeats]
  | case2 p paths ih =>
      rw [dropRepeats, List.map_cons, List.mem_cons, ih, List.map_cons, List.mem_cons]
      refine or_congr_right' fun hp => ?_
      rw [← List.takeWhile_append_dropWhile (p := p.same) (l := paths), List.map_append,
        List.mem_append, List.takeWhile_append_dropWhile]
      refine ⟨.inr, fun h => h.resolve_left fun htake => hp ?_⟩
      obtain ⟨q, hq, rfl⟩ := List.mem_map.mp htake
      exact (same_iff.mp (List.mem_takeWhile_imp hq)).symm

theorem pairwise_sortDistinct (paths : List Path) :
    (sortDistinct paths).Pairwise fun p q => compare p q = .lt :=
  pairwise_dropRepeats (pairwise_sort paths)

theorem mem_components_sortDistinct :
    cs ∈ (sortDistinct paths).map components ↔ cs ∈ paths.map components := by
  rw [sortDistinct, mem_components_dropRepeats]
  exact ((List.mergeSort_perm paths _).map components).mem_iff

/-- Lists of paths that mean the same are the same once they are sorted, up to how the paths are
written. -/
theorem components_sortDistinct_congr
    (h : ∀ cs, cs ∈ paths.map components ↔ cs ∈ paths'.map components) :
    (sortDistinct paths).map components = (sortDistinct paths').map components := by
  have hsorted (paths : List Path) : ((sortDistinct paths).map components).Pairwise fun cs ds =>
      List.compareLex Component.compare cs ds = .lt :=
    List.pairwise_map.mpr (pairwise_sortDistinct paths)
  refine (hsorted paths).eq_of_mem_iff (hsorted paths') fun cs => ?_
  rw [mem_components_sortDistinct, mem_components_sortDistinct, h]

/-! ## A name behind a path -/

/-- The components behind the front of a path. -/
def stepsIn (t : List UInt8) : List Component := ((piecesOf t).filter isStep).map stepOf

/-- The components of the path that bytes are. -/
def componentsOf (t : List UInt8) : List Component := (front t).1.toList ++ stepsIn (front t).2.2

theorem components_eq (p : Path) : p.components = componentsOf p.raw.bytes := rfl

theorem stepsIn_append_slash (t u : List UInt8) :
    stepsIn (t ++ slash :: u) = stepsIn t ++ stepsIn u := by
  rw [stepsIn, piecesOf_append_slash, List.filter_append, List.map_append, stepsIn, stepsIn]

theorem front_append_slash (hne : t ≠ []) :
    front (t ++ slash :: u) = ((front t).1, (front t).2.1, (front t).2.2 ++ slash :: u) := by
  obtain ⟨c, t, rfl⟩ := List.exists_cons_of_ne_nil hne
  rcases front_cases (c :: t) with ⟨rest, h, -⟩ | h | ⟨rest, h, -⟩ | ⟨hhead, hfront⟩
  · obtain ⟨rfl, rfl⟩ := List.cons.inj h
    rfl
  · obtain ⟨rfl, rfl⟩ := List.cons.inj h
    rfl
  · obtain ⟨rfl, rfl⟩ := List.cons.inj h
    rfl
  · -- Bytes without a front of their own have none with more behind it either.
    rcases front_cases (c :: t ++ slash :: u) with
      ⟨rest, h, -⟩ | h | ⟨rest, h, -⟩ | ⟨-, hfront'⟩
    · obtain ⟨rfl, -⟩ := List.cons.inj h
      exact absurd rfl hhead
    · simp at h
    · obtain ⟨rfl, htail⟩ := List.cons.inj h
      cases t with
      | nil => cases hfront
      | cons d t =>
          obtain ⟨rfl, -⟩ := List.cons.inj htail
          cases hfront
    · rw [hfront', hfront]

/-- What is put behind a slash comes behind the components of what is in front. -/
theorem componentsOf_append_slash (hne : t ≠ []) :
    componentsOf (t ++ slash :: u) = componentsOf t ++ stepsIn u := by
  rw [componentsOf, front_append_slash hne, stepsIn_append_slash, componentsOf, List.append_assoc]

/-- A name that a folder can list: not empty, neither of the dots, and without a slash. -/
structure IsListed (name : RawText) : Prop where
  moves : Store.staysHere name = false
  not_up : name ≠ ".."
  no_slash : slash ∉ name.bytes

instance (name : RawText) : Decidable (IsListed name) :=
  decidable_of_iff (Store.staysHere name = false ∧ name ≠ ".." ∧ slash ∉ name.bytes)
    ⟨fun h => ⟨h.1, h.2.1, h.2.2⟩, fun h => ⟨h.moves, h.not_up, h.no_slash⟩⟩

section Join

variable {name : RawText} (h : IsListed name)

include h

theorem IsListed.stepsIn : stepsIn name.bytes = [.name name] := by
  have hdot : name.bytes ≠ [dot] := by
    intro hdot
    obtain rfl : name = "." := RawText.ext hdot
    cases h.moves
  have hup : name.bytes ≠ [dot, dot] := fun hup => h.not_up (RawText.ext hup)
  have hstep : isStep name.bytes = true := by simp [isStep, ne_nil_of_moves h.moves, hdot]
  rw [Path.stepsIn, piecesOf_of_not_mem h.no_slash, List.filter_cons_of_pos hstep]
  simp [stepOf, hup]

/-- Joining a path with a name puts the name behind its components. -/
theorem components_join (hne : p.raw.bytes ≠ []) :
    (p.join ⟨name⟩).components = p.components ++ [.name name] := by
  rw [components_eq, components_eq, bytes_join h.no_slash]
  split
  · next hslash =>
      obtain ⟨t, ht⟩ := List.getLast?_eq_some_iff.mp (hslash.resolve_left hne)
      rw [ht, List.append_assoc, List.singleton_append]
      cases t with
      | nil => exact congrArg (Component.root :: ·) h.stepsIn
      | cons c t =>
          rw [componentsOf_append_slash (List.cons_ne_nil _ _), h.stepsIn,
            componentsOf_append_slash (List.cons_ne_nil _ _)]
          exact congrArg (· ++ _) (List.append_nil _).symm
  · rw [componentsOf_append_slash hne, h.stepsIn]

end Join

/-- A path joined with one name after the other. -/
def within (p : Path) (names : List RawText) : Path :=
  names.foldl (fun q name => q.join ⟨name⟩) p

theorem components_within {names : List RawText} (h : ∀ name ∈ names, IsListed name)
    (hne : p.raw.bytes ≠ []) :
    (p.within names).components = p.components ++ names.map .name := by
  induction names generalizing p with
  | nil => exact (List.append_nil _).symm
  | cons name names ih =>
      rw [List.forall_mem_cons] at h
      have hjoin : (p.join ⟨name⟩).raw.bytes ≠ [] := by
        rw [bytes_join h.1.no_slash]
        split <;> simp [hne]
      change ((p.join ⟨name⟩).within names).components = _
      rw [ih h.2 hjoin, components_join h.1 hne, List.append_assoc, List.map_cons,
        List.singleton_append]

end Path

end MdxMend
