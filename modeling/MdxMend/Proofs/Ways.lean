import MdxMend.Store.Files

/-!
# Ways through a store

A path is walked step by step, and what a walk comes to depends on the folders and links that it
meets. `Leads` is a part of a walk, with the steps that are still to be taken: it goes from folder
to folder, down, up and over links, and counts the links. A walk that succeeds is such a part and
a last step (`exists_leads_last`).

That makes it simple to say what a change to a store does to a walk. Folders and links that stay
keep all ways (`Leads.mono`). New bytes in a file move nothing at all (`walk_put_file`). A link that
is taken away is missed by the ways that go over it and by no other (`Leads.remove`,
`walk_remove`), and a walk that ends at a file has not come to the place of a link twice, because
the second time it would go the same way again (`not_leads_back`).
-/

namespace MdxMend.Store

/-- A step that goes down: a name that is not too long. -/
structure IsName (name : RawText) : Prop where
  moves : staysHere name = false
  not_up : name ≠ ".."
  size_le : name.size ≤ maxNameSize

theorem IsName.of_not {name : RawText} (hmoves : ¬ staysHere name = true)
    (hup : ¬ (name == "..") = true) (hsize : ¬ maxNameSize < name.size) : IsName name :=
  ⟨by simpa using hmoves, by simpa using hup, Nat.not_lt.mp hsize⟩

variable {s s' : Store} {purpose : Purpose} {j k : Nat} {l m : Location} {name : RawText}
  {st st' r : List RawText} {n : Node} {spot : Spot} {target : Path}

/-! ## One step of a walk -/

theorem walk_here (h : s.get? l = some n) : s.walk purpose k l [] = .ok (.taken l n) := by
  rw [walk.eq_def, h]

theorem walk_stay (hl : s.get? l = some .folder) (h : staysHere name = true) :
    s.walk purpose k l (name :: st) = s.walk purpose k l st := by
  rw [walk.eq_def, hl]
  simp only [h, if_true]

theorem walk_up (hl : s.get? l = some .folder) :
    s.walk purpose k l (".." :: st) = s.walk purpose k l.tail st := by
  rw [walk.eq_def, hl]
  simp [staysHere, slashStep]

theorem walk_blocked (hl : s.get? l = some n) (hn : n ≠ .folder) :
    s.walk purpose k l (name :: st) = .error .notAFolder := by
  rw [walk.eq_def, hl]
  cases n <;> simp_all

section Name

variable (hl : s.get? l = some .folder) (hname : IsName name)
  (hmake : purpose = .make → st ≠ [slashStep])

include hl hname hmake

theorem walk_name :
    s.walk purpose k l (name :: st) =
      match s.get? (name :: l) with
      | none => if st.isEmpty then .ok (.free (name :: l)) else .error .notFound
      | some (.link target) =>
        if st.isEmpty && purpose == .keep then .ok (.taken (name :: l) (.link target))
        else
          match k with
          | 0 => .error .linkLoop
          | k + 1 => s.walk purpose k (startOf target l) (stepsOf target ++ st)
      | some _ => s.walk purpose k (name :: l) st := by
  have hslash : (purpose == .make && st == [slashStep]) = false := by
    rw [Bool.and_eq_false_iff, beq_eq_false_iff_ne, beq_eq_false_iff_ne]
    exact Decidable.or_iff_not_imp_left.mpr fun h => hmake (Decidable.not_not.mp h)
  have hsize := Nat.not_lt.mpr hname.size_le
  have hup := beq_eq_false_iff_ne.mpr hname.not_up
  rw [walk.eq_def, hl]
  cases hn : s.get? (name :: l) with
  | none => simp only [hname.moves, hup, hslash, hsize, Bool.false_eq_true, if_false, hn]
  | some n =>
      cases n <;> cases k <;>
        simp only [hname.moves, hup, hslash, hsize, Bool.false_eq_true, if_false, hn]

theorem walk_down (hn : s.get? (name :: l) = some n) (hlink : ∀ target, n ≠ .link target) :
    s.walk purpose k l (name :: st) = s.walk purpose k (name :: l) st := by
  rw [walk_name hl hname hmake, hn]
  cases n with
  | link target => exact absurd rfl (hlink target)
  | _ => rfl

theorem walk_link (hn : s.get? (name :: l) = some (.link target))
    (hkeep : purpose = .keep → st ≠ []) :
    s.walk purpose (k + 1) l (name :: st) =
      s.walk purpose k (startOf target l) (stepsOf target ++ st) := by
  have hfollow : (st.isEmpty && purpose == .keep) = false := by
    rw [Bool.and_eq_false_iff, List.isEmpty_eq_false_iff, beq_eq_false_iff_ne]
    exact Decidable.or_iff_not_imp_right.mpr fun h => hkeep (Decidable.not_not.mp h)
  rw [walk_name hl hname hmake, hn]
  simp only [hfollow, Bool.false_eq_true, if_false]

end Name

/-- A walk that succeeds over a link has one link less to follow behind it. -/
theorem exists_of_walk_link (hl : s.get? l = some .folder) (hname : IsName name)
    (hn : s.get? (name :: l) = some (.link target))
    (h : s.walk .follow k l (name :: st) = .ok spot) :
    ∃ k', k = k' + 1 ∧ s.walk .follow k' (startOf target l) (stepsOf target ++ st) = .ok spot := by
  cases k with
  | zero =>
      rw [walk_name hl hname (by simp), hn] at h
      simp at h
  | succ k =>
      rw [walk_link hl hname (by simp) hn (by simp)] at h
      exact ⟨k, rfl, h⟩

/-! ## Parts of a walk -/

/-- A walk leads from a location and the steps to be taken there to a folder and the steps that are
left. `j` links are followed on the way. -/
inductive Leads (s : Store) (purpose : Purpose) :
    Nat → Location → List RawText → Location → List RawText → Prop where
  | refl (l : Location) (st : List RawText) : Leads s purpose 0 l st l st
  | stay {j : Nat} {l m : Location} {name : RawText} {st r : List RawText}
      (hl : s.get? l = some .folder) (hname : staysHere name = true)
      (h : Leads s purpose j l st m r) : Leads s purpose j l (name :: st) m r
  | up {j : Nat} {l m : Location} {st r : List RawText}
      (hl : s.get? l = some .folder) (h : Leads s purpose j l.tail st m r) :
      Leads s purpose j l (".." :: st) m r
  | down {j : Nat} {l m : Location} {name : RawText} {st r : List RawText}
      (hl : s.get? l = some .folder) (hname : IsName name)
      (hmake : purpose = .make → st ≠ [slashStep]) (hn : s.get? (name :: l) = some .folder)
      (h : Leads s purpose j (name :: l) st m r) : Leads s purpose j l (name :: st) m r
  | link {j : Nat} {l m : Location} {name : RawText} {st r : List RawText} {target : Path}
      (hl : s.get? l = some .folder) (hname : IsName name)
      (hmake : purpose = .make → st ≠ [slashStep]) (hkeep : purpose = .keep → st ≠ [])
      (hn : s.get? (name :: l) = some (.link target))
      (h : Leads s purpose j (startOf target l) (stepsOf target ++ st) m r) :
      Leads s purpose (j + 1) l (name :: st) m r

/-- The last step of a walk that succeeds. -/
inductive Last (s : Store) (purpose : Purpose) : Location → List RawText → Spot → Prop where
  | here {l : Location} {n : Node} (hl : s.get? l = some n) : Last s purpose l [] (.taken l n)
  | file {l : Location} {name : RawText} {b : ByteArray} (hl : s.get? l = some .folder)
      (hname : IsName name) (hn : s.get? (name :: l) = some (.file b)) :
      Last s purpose l [name] (.taken (name :: l) (.file b))
  | free {l : Location} {name : RawText} (hl : s.get? l = some .folder) (hname : IsName name)
      (hn : s.get? (name :: l) = none) : Last s purpose l [name] (.free (name :: l))
  | link {l : Location} {name : RawText} {target : Path} (hkeep : purpose = .keep)
      (hl : s.get? l = some .folder) (hname : IsName name)
      (hn : s.get? (name :: l) = some (.link target)) :
      Last s purpose l [name] (.taken (name :: l) (.link target))

namespace Leads

theorem walk (h : Leads s purpose j l st m r) (k : Nat) :
    s.walk purpose (j + k) l st = s.walk purpose k m r := by
  induction h with
  | refl l st => rw [Nat.zero_add]
  | stay hl hname _ ih => rw [walk_stay hl hname, ih]
  | up hl _ ih => rw [walk_up hl, ih]
  | down hl hname hmake hn _ ih => rw [walk_down hl hname hmake hn (by simp), ih]
  | link hl hname hmake hkeep hn _ ih =>
      rw [Nat.add_right_comm, walk_link hl hname hmake hn hkeep, ih]

theorem trans {i : Nat} {p : Location} {q : List RawText} (h : Leads s purpose j l st m r)
    (h' : Leads s purpose i m r p q) : Leads s purpose (j + i) l st p q := by
  induction h with
  | refl l st => rwa [Nat.zero_add]
  | stay hl hname _ ih => exact .stay hl hname (ih h')
  | up hl _ ih => exact .up hl (ih h')
  | down hl hname hmake hn _ ih => exact .down hl hname hmake hn (ih h')
  | link hl hname hmake hkeep hn _ ih =>
      rw [Nat.add_right_comm]
      exact .link hl hname hmake hkeep hn (ih h')

theorem follow (h : Leads s purpose j l st m r) : Leads s .follow j l st m r := by
  induction h with
  | refl l st => exact .refl l st
  | stay hl hname _ ih => exact .stay hl hname ih
  | up hl _ ih => exact .up hl ih
  | down hl hname _ hn _ ih => exact .down hl hname (by simp) hn ih
  | link hl hname _ _ hn _ ih => exact .link hl hname (by simp) (by simp) hn ih

/-- What a walk is for shows at its end only, so in front of further steps a part is one for any
purpose. -/
theorem append (h : Leads s .follow j l st m r) {q : List RawText} (hkeep : purpose = .keep → q ≠ [])
    (hmake : purpose = .make → q ≠ [] ∧ q ≠ [slashStep]) :
    Leads s purpose j l (st ++ q) m (r ++ q) := by
  have hnext (u : List RawText) : purpose = .keep → u ++ q ≠ [] := fun h =>
    List.append_ne_nil_of_right_ne_nil u (hkeep h)
  have hopen (u : List RawText) : purpose = .make → u ++ q ≠ [slashStep] := by
    intro h
    cases u with
    | nil => exact (hmake h).2
    | cons step u =>
        exact fun heq => List.append_ne_nil_of_right_ne_nil u (hmake h).1 (List.cons.inj heq).2
  induction h with
  | refl l st => exact .refl l _
  | stay hl hname _ ih => exact .stay hl hname ih
  | up hl _ ih => exact .up hl ih
  | down hl hname _ hn _ ih => exact .down hl hname (hopen _) hn ih
  | link hl hname _ _ hn _ ih =>
      rw [List.append_assoc] at ih
      exact .link hl hname (hopen _) (hnext _) hn ih

/-- A walk that succeeds comes along wherever its steps lead, and has links left to follow. -/
theorem walk_follow (h : Leads s .follow j l st m r) (hwalk : s.walk .follow k l st = .ok spot) :
    ∃ k', k = j + k' ∧ s.walk .follow k' m r = .ok spot := by
  induction h generalizing k with
  | refl l st => exact ⟨k, by omega, hwalk⟩
  | stay hl hname _ ih => exact ih (walk_stay hl hname ▸ hwalk)
  | up hl _ ih => exact ih (walk_up hl ▸ hwalk)
  | down hl hname hmake hn _ ih =>
      rw [walk_down hl hname hmake hn (by simp)] at hwalk
      exact ih hwalk
  | link hl hname hmake hkeep hn _ ih =>
      obtain ⟨k, rfl, hbehind⟩ := exists_of_walk_link hl hname hn hwalk
      obtain ⟨k', rfl, hrest⟩ := ih hbehind
      exact ⟨k', by omega, hrest⟩

/-- Two ways to the end of the same steps are one. -/
theorem unique {i : Nat} {p : Location} {n' : Node} (h : Leads s .follow j l st m [])
    (hm : s.get? m = some n) (h' : Leads s .follow i l st p []) (hp : s.get? p = some n') :
    j = i ∧ m = p := by
  have hwalk : s.walk .follow j l st = .ok (.taken m n) := (h.walk 0).trans (walk_here hm)
  have hwalk' : s.walk .follow i l st = .ok (.taken p n') := (h'.walk 0).trans (walk_here hp)
  obtain ⟨k, hk, -⟩ := h.walk_follow hwalk'
  obtain ⟨k', hk', hend⟩ := h'.walk_follow hwalk
  rw [walk_here hp] at hend
  simp only [Except.ok.injEq, Spot.taken.injEq] at hend
  exact ⟨by omega, hend.1.symm⟩

/-- The part of a walk that takes the first of its steps. -/
theorem split {w : List RawText} (h : Leads s purpose j l w m r) (hlast : Last s purpose m r spot)
    {q : List RawText} (hw : w = st ++ q) (hq : q ≠ []) :
    ∃ i i' p, j = i + i' ∧ Leads s .follow i l st p [] ∧ Leads s purpose i' p q m r := by
  induction h generalizing st with
  | refl l w =>
      obtain rfl : st = [] := by
        have hlen : w.length ≤ 1 := by cases hlast <;> simp
        have hpos := List.length_pos_iff.mpr hq
        rw [hw, List.length_append] at hlen
        exact List.eq_nil_of_length_eq_zero (by omega)
      exact ⟨0, 0, l, rfl, .refl l [], hw ▸ .refl l _⟩
  | @stay j l m name w r hl hname hrest ih =>
      cases st with
      | nil =>
          obtain rfl : _ = q := hw
          exact ⟨0, j, l, by omega, .refl l [], .stay hl hname hrest⟩
      | cons step st =>
          obtain ⟨rfl, rfl⟩ := List.cons.inj hw
          obtain ⟨i, i', p, hj, hfirst, hthen⟩ := ih hlast rfl
          exact ⟨i, i', p, hj, .stay hl hname hfirst, hthen⟩
  | @up j l m w r hl hrest ih =>
      cases st with
      | nil =>
          obtain rfl : _ = q := hw
          exact ⟨0, j, l, by omega, .refl l [], .up hl hrest⟩
      | cons step st =>
          obtain ⟨rfl, rfl⟩ := List.cons.inj hw
          obtain ⟨i, i', p, hj, hfirst, hthen⟩ := ih hlast rfl
          exact ⟨i, i', p, hj, .up hl hfirst, hthen⟩
  | @down j l m name w r hl hname hmake hn hrest ih =>
      cases st with
      | nil =>
          obtain rfl : _ = q := hw
          exact ⟨0, j, l, by omega, .refl l [], .down hl hname hmake hn hrest⟩
      | cons step st =>
          obtain ⟨rfl, rfl⟩ := List.cons.inj hw
          obtain ⟨i, i', p, hj, hfirst, hthen⟩ := ih hlast rfl
          exact ⟨i, i', p, hj, .down hl hname (by simp) hn hfirst, hthen⟩
  | @link j l m name w r target hl hname hmake hkeep hn hrest ih =>
      cases st with
      | nil =>
          obtain rfl : _ = q := hw
          exact ⟨0, j + 1, l, by omega, .refl l [], .link hl hname hmake hkeep hn hrest⟩
      | cons step st =>
          obtain ⟨rfl, rfl⟩ := List.cons.inj hw
          obtain ⟨i, i', p, hj, hfirst, hthen⟩ := ih hlast (List.append_assoc _ _ _).symm
          exact ⟨i + 1, i', p, by omega, .link hl hname (by simp) (by simp) hn hfirst, hthen⟩

end Leads

theorem Last.walk (h : Last s purpose l st spot) (k : Nat) : s.walk purpose k l st = .ok spot := by
  cases h with
  | here hl => exact walk_here hl
  | file hl hname hn =>
      rw [walk_down hl hname (by simp) hn (by simp)]
      exact walk_here hn
  | free hl hname hn =>
      rw [walk_name hl hname (by simp), hn]
      rfl
  | link hkeep hl hname hn =>
      rw [walk_name hl hname (by simp), hn]
      simp [hkeep]

/-- A walk that succeeds leads to where a last step is left. -/
theorem exists_leads_last (h : s.walk purpose k l st = .ok spot) :
    ∃ j k' m r, k = j + k' ∧ Leads s purpose j l st m r ∧ Last s purpose m r spot := by
  fun_induction walk s purpose k l st with
  | case2 k l n hn =>
      obtain rfl := Except.ok.inj h
      exact ⟨0, k, l, [], by omega, .refl l [], .here hn⟩
  | case3 k l name st hl hname ih =>
      obtain ⟨j, k', m, r, hk, hleads, hlast⟩ := ih h
      exact ⟨j, k', m, r, hk, .stay hl hname hleads, hlast⟩
  | case4 k l name st hl _ hup ih =>
      obtain ⟨j, k', m, r, hk, hleads, hlast⟩ := ih h
      obtain rfl := eq_of_beq hup
      exact ⟨j, k', m, r, hk, .up hl hleads, hlast⟩
  | case7 k l name st hl hmoves hup _ hsize hn hend =>
      obtain rfl := Except.ok.inj h
      obtain rfl := List.isEmpty_iff.mp hend
      exact ⟨0, k, l, [name], by omega, .refl l _, .free hl (.of_not hmoves hup hsize) hn⟩
  | case9 k l name st hl hmoves hup _ hsize target hn hend =>
      obtain rfl := Except.ok.inj h
      rw [Bool.and_eq_true] at hend
      obtain rfl := List.isEmpty_iff.mp hend.1
      exact ⟨0, k, l, [name], by omega, .refl l _,
        .link (eq_of_beq hend.2) hl (.of_not hmoves hup hsize) hn⟩
  | case11 l name st hl hmoves hup hslash hsize target hn hend k ih =>
      obtain ⟨j, k', m, r, rfl, hleads, hlast⟩ := ih h
      exact ⟨j + 1, k', m, r, by omega, .link hl (.of_not hmoves hup hsize)
        (by simpa using hslash) (by rintro rfl rfl; simp at hend) hn hleads, hlast⟩
  | case12 k l name st hl hmoves hup hslash hsize n hother hn ih =>
      have hname := IsName.of_not hmoves hup hsize
      cases n with
      | link target => exact absurd rfl (hother target)
      | folder =>
          obtain ⟨j, k', m, r, hk, hleads, hlast⟩ := ih h
          exact ⟨j, k', m, r, hk, .down hl hname (by simpa using hslash) hn hleads, hlast⟩
      | file b =>
          cases st with
          | nil =>
              rw [walk_here hn] at h
              obtain rfl := Except.ok.inj h
              exact ⟨0, k, l, [name], by omega, .refl l _, .file hl hname hn⟩
          | cons step st =>
              rw [walk_blocked hn (by simp)] at h
              cases h
  | _ => cases h

/-- The first steps of a walk that succeeds lead to a folder. -/
theorem exists_leads_append {q : List RawText} (h : s.walk purpose k l (st ++ q) = .ok spot)
    (hq : q ≠ []) :
    ∃ j k' m, k = j + k' ∧ Leads s .follow j l st m [] ∧ s.get? m = some .folder ∧
      s.walk purpose k' m q = .ok spot := by
  obtain ⟨i, k', p, r, rfl, hleads, hlast⟩ := exists_leads_last h
  obtain ⟨j, i', m, rfl, hfirst, hthen⟩ := hleads.split hlast rfl hq
  refine ⟨j, i' + k', m, by omega, hfirst, ?_, (hthen.walk k').trans (hlast.walk k')⟩
  cases hthen with
  | refl => cases hlast with
    | here => exact absurd rfl hq
    | file hl => exact hl
    | free hl => exact hl
    | link _ hl => exact hl
  | stay hl => exact hl
  | up hl => exact hl
  | down hl => exact hl
  | link hl => exact hl

/-! ## What a change does to walks -/

/-- The folders and links of a store are in another one, too. -/
structure KeepsWays (s s' : Store) : Prop where
  folder : ∀ l, s.get? l = some .folder → s'.get? l = some .folder
  link : ∀ l target, s.get? l = some (.link target) → s'.get? l = some (.link target)

theorem Leads.mono (h : Leads s purpose j l st m r) (hs : s.KeepsWays s') :
    Leads s' purpose j l st m r := by
  induction h with
  | refl l st => exact .refl l st
  | stay hl hname _ ih => exact .stay (hs.folder _ hl) hname ih
  | up hl _ ih => exact .up (hs.folder _ hl) ih
  | down hl hname hmake hn _ ih => exact .down (hs.folder _ hl) hname hmake (hs.folder _ hn) ih
  | link hl hname hmake hkeep hn _ ih =>
      exact .link (hs.folder _ hl) hname hmake hkeep (hs.link _ _ hn) ih

/-- A walk ends where it ended if what it found there is still there. -/
theorem walk_taken (hs : s.KeepsWays s') (h : s.walk purpose k l st = .ok (.taken m n))
    (hn : s'.get? m = some n) : s'.walk purpose k l st = .ok (.taken m n) := by
  obtain ⟨j, k', p, r, rfl, hleads, hlast⟩ := exists_leads_last h
  rw [(hleads.mono hs).walk]
  cases hlast with
  | here => exact walk_here hn
  | file hl hname => exact (Last.file (hs.folder _ hl) hname hn).walk k'
  | link hkeep hl hname => exact (Last.link hkeep (hs.folder _ hl) hname hn).walk k'

/-- A walk ends where a file can be written: at a file, or at a name that is free. -/
def Spot.IsFor (spot : Spot) (l : Location) : Prop :=
  (∃ b, spot = .taken l (.file b)) ∨ spot = .free l

/-- Once a file is written, a walk to its place ends at it. -/
theorem walk_file (hs : s.KeepsWays s') (h : s.walk .follow k l st = .ok spot)
    (hspot : spot.IsFor m) {b : ByteArray} (hb : s'.get? m = some (.file b)) :
    s'.walk .follow k l st = .ok (.taken m (.file b)) := by
  obtain ⟨j, k', p, r, rfl, hleads, hlast⟩ := exists_leads_last h
  rw [(hleads.mono hs).walk]
  rcases hspot with ⟨a, rfl⟩ | rfl
  · cases hlast with
    | here => exact walk_here hb
    | file hl hname => exact (Last.file (hs.folder _ hl) hname hb).walk k'
  · cases hlast with
    | free hl hname => exact (Last.file (hs.folder _ hl) hname hb).walk k'

/-- What a walk ends at is there, and what is free is not. -/
theorem get?_of_walk (h : s.walk purpose k l st = .ok spot) :
    match spot with
    | .taken m n => s.get? m = some n
    | .free m => s.get? m = none ∧ m ≠ [] := by
  obtain ⟨j, k', p, r, rfl, -, hlast⟩ := exists_leads_last h
  cases hlast with
  | here hl => exact hl
  | file _ _ hn => exact hn
  | free _ _ hn => exact ⟨hn, List.cons_ne_nil _ _⟩
  | link _ _ _ hn => exact hn

/-! ### A link taken away -/

section Remove

variable {folder : Location}

theorem get?_remove_self (hm : m ≠ []) : (s.remove m).get? m = none := by
  simp only [get?, List.isEmpty_eq_false_iff.mpr hm, Bool.false_eq_true, if_false, remove,
    List.lookup_eq_none_iff, List.mem_filter, bne_iff_ne]
  exact fun entry hentry => hentry.2.symm

/-- Where a part of a walk does not come over a link, it is the same without the link. -/
theorem Leads.remove (h : Leads s purpose j l st m r)
    (hlink : s.get? (name :: folder) = some (.link target))
    (hoff : ∀ i q, ¬ Leads s purpose i l st folder (name :: q)) :
    Leads (s.remove (name :: folder)) purpose j l st m r := by
  have hfolder {p : Location} (hp : s.get? p = some .folder) :
      (s.remove (name :: folder)).get? p = some .folder := by
    rw [get?_remove_of_ne s (by rintro rfl; rw [hlink] at hp; cases hp), hp]
  induction h with
  | refl l st => exact .refl l st
  | stay hl hname _ ih =>
      exact .stay (hfolder hl) hname (ih fun i q h => hoff i q (.stay hl hname h))
  | up hl _ ih => exact .up (hfolder hl) (ih fun i q h => hoff i q (.up hl h))
  | down hl hname hmake hn _ ih =>
      exact .down (hfolder hl) hname hmake (hfolder hn)
        (ih fun i q h => hoff i q (.down hl hname hmake hn h))
  | @link j l m step st r _ hl hname hmake hkeep hn _ ih =>
      have hne : step :: l ≠ name :: folder := by
        rintro heq
        obtain ⟨rfl, rfl⟩ := List.cons.inj heq
        exact hoff 0 st (.refl l _)
      exact .link (hfolder hl) hname hmake hkeep (by rw [get?_remove_of_ne s hne, hn])
        (ih fun i q h => hoff (i + 1) q (.link hl hname hmake hkeep hn h))

theorem walk_remove (h : s.walk .follow k l st = .ok spot) (hspot : spot.IsFor m)
    (hlink : s.get? (name :: folder) = some (.link target))
    (hoff : ∀ i q, ¬ Leads s .follow i l st folder (name :: q)) :
    (s.remove (name :: folder)).walk .follow k l st = .ok spot := by
  have hget {p : Location} (hp : s.get? p ≠ some (.link target)) :
      (s.remove (name :: folder)).get? p = s.get? p := by
    exact get?_remove_of_ne s (by rintro rfl; exact hp hlink)
  obtain ⟨j, k', p, r, rfl, hleads, hlast⟩ := exists_leads_last h
  rw [(hleads.remove hlink hoff).walk]
  rcases hspot with ⟨a, rfl⟩ | rfl
  · cases hlast with
    | here hl => exact (Last.here (by rw [hget (by simp [hl]), hl])).walk k'
    | file hl hname hn =>
        exact (Last.file (by rw [hget (by simp [hl]), hl]) hname
          (by rw [hget (by simp [hn]), hn])).walk k'
  · cases hlast with
    | free hl hname hn =>
        exact (Last.free (by rw [hget (by simp [hl]), hl]) hname
          (by rw [hget (by simp [hn]), hn])).walk k'

variable (hfolder : s.get? folder = some .folder) (hname : IsName name)
  (hlink : s.get? (name :: folder) = some (.link target))

include hfolder hname hlink

/-- Where a link leads back to itself no walk over it succeeds: each time it comes there it has one
link less to follow. -/
theorem not_leads_back {q : List RawText}
    (h : Leads s .follow j (startOf target folder) (stepsOf target) folder (name :: q)) :
    ∀ (k : Nat) (r : List RawText) (spot : Spot),
      s.walk .follow k folder (name :: r) ≠ .ok spot := by
  intro k
  induction k using Nat.strongRecOn with
  | ind k ih =>
      intro r spot hwalk
      obtain ⟨k, rfl, hbehind⟩ := exists_of_walk_link hfolder hname hlink hwalk
      obtain ⟨k', rfl, hagain⟩ := (h.append (by simp) (by simp)).walk_follow hbehind
      exact ih k' (by omega) (q ++ r) spot hagain

/-- A walk that ends over a link at a file does not come over the link before. -/
theorem not_leads_twice (h : s.walk .follow k l (st ++ [name]) = .ok spot) (hspot : spot.IsFor m)
    (hleads : Leads s .follow j l st folder []) {i : Nat} {q : List RawText} :
    ¬ Leads s .follow i l st folder (name :: q) := by
  intro hover
  obtain ⟨k', -, hend⟩ := (hleads.append (q := [name]) (by simp) (by simp)).walk_follow h
  obtain ⟨k'', -, hagain⟩ := (hover.append (q := [name]) (by simp) (by simp)).walk_follow h
  rw [List.nil_append] at hend
  -- The first time more steps follow, so the link leads to a folder; the last time it is the end.
  obtain ⟨_, -, hmore⟩ := exists_of_walk_link hfolder hname hlink hagain
  obtain ⟨_, _, p, -, hfirst, hp, -⟩ := exists_leads_append hmore (by simp)
  obtain ⟨_, -, hnone⟩ := exists_of_walk_link hfolder hname hlink hend
  rw [List.append_nil] at hnone
  obtain ⟨_, -, hlast⟩ := hfirst.walk_follow hnone
  rw [walk_here hp] at hlast
  obtain rfl := Except.ok.inj hlast
  rcases hspot with ⟨b, hb⟩ | hb <;> cases hb

end Remove

/-! ### New bytes in a file -/

/-- Where a walk ends once there are other bytes in a file. -/
def Spot.renew (m : Location) (b : ByteArray) : Spot → Spot
  | .taken l n => .taken l (if l = m then .file b else n)
  | .free l => .free l

/-- New bytes in a file change no walk, but that they are found at its end. -/
theorem walk_put_file {a : ByteArray} (hfile : s.get? m = some (.file a)) (b : ByteArray) :
    (s.put m (.file b)).walk purpose k l st = (s.walk purpose k l st).map (Spot.renew m b) := by
  have hm : m ≠ [] := by rintro rfl; cases hfile
  have hsame {p : Location} (hp : ∀ b, s.get? p ≠ some (.file b)) :
      (s.put m (.file b)).get? p = s.get? p :=
    get?_put_of_ne s _ (by rintro rfl; exact hp a hfile)
  have hnode {p : Location} {n : Node} (hp : s.get? p = some n) :
      (s.put m (.file b)).get? p = some (if p = m then .file b else n) := by
    by_cases h : p = m
    · rw [h, get?_put_self s _ hm, if_pos rfl]
    · rw [get?_put_of_ne s _ h, if_neg h, hp]
  have hfolder {p : Location} (hp : s.get? p = some .folder) :
      (s.put m (.file b)).get? p = some .folder := by rw [hsame (by simp [hp]), hp]
  fun_induction walk s purpose k l st with
  | case1 k l st hn =>
      rw [walk.eq_def, hsame (by simp [hn]), hn]
      rfl
  | case2 k l n hn => exact walk_here (hnode hn)
  | case3 k l name st hl hname ih =>
      rw [walk_stay (hfolder hl) hname, ih]
  | case4 k l name st hl _ hup ih =>
      rw [eq_of_beq hup, walk_up (hfolder hl), ih]
  | case5 k l name st hl hmoves hup hslash =>
      rw [walk.eq_def, hfolder hl]
      simp only [hmoves, hup, hslash, Bool.false_eq_true, if_false, if_true, Except.map]
  | case6 k l name st hl hmoves hup hslash hsize =>
      rw [walk.eq_def, hfolder hl]
      simp only [hmoves, hup, hslash, Bool.false_eq_true, if_false, hsize, if_true, Except.map]
  | case7 k l name st hl hmoves hup hslash hsize hn hend =>
      rw [walk_name (hfolder hl) (.of_not hmoves hup hsize) (by simpa using hslash),
        hsame (by simp [hn]), hn]
      simp [hend, Except.map, Spot.renew]
  | case8 k l name st hl hmoves hup hslash hsize hn hend =>
      rw [walk_name (hfolder hl) (.of_not hmoves hup hsize) (by simpa using hslash),
        hsame (by simp [hn]), hn]
      simp [hend, Except.map]
  | case9 k l name st hl hmoves hup hslash hsize target hn hend =>
      rw [walk_name (hfolder hl) (.of_not hmoves hup hsize) (by simpa using hslash),
        hsame (by simp [hn]), hn]
      have hne : name :: l ≠ m := by rintro rfl; rw [hfile] at hn; cases hn
      simp [hend, Except.map, Spot.renew, hne]
  | case10 l name st hl hmoves hup hslash hsize target hn hend =>
      rw [walk_name (hfolder hl) (.of_not hmoves hup hsize) (by simpa using hslash),
        hsame (by simp [hn]), hn]
      simp only [hend, Bool.false_eq_true, if_false, Except.map]
  | case11 l name st hl hmoves hup hslash hsize target hn hend k ih =>
      rw [walk_link (hfolder hl) (.of_not hmoves hup hsize) (by simpa using hslash)
        (by rw [hsame (by simp [hn]), hn]) (by rintro rfl rfl; simp at hend), ih]
  | case12 k l name st hl hmoves hup hslash hsize n hother hn ih =>
      have hlink (target : Path) : (if name :: l = m then .file b else n) ≠ .link target := by
        split
        · simp
        · exact fun h => hother target h
      rw [walk_down (hfolder hl) (.of_not hmoves hup hsize) (by simpa using hslash) (hnode hn)
        hlink, ih]
  | case13 k l n step st hother hn =>
      rw [walk_blocked (hnode hn) (by split <;> simp_all)]
      rfl

end MdxMend.Store
