import MdxMend.Proofs.Moving

/-!
# What stays at a path

Before a draft is moved into place, folders are made and the draft is written. Neither takes
anything away from a path. Folders are made where nothing was (`Grown`), and a draft is written, or
a part of it, to a file or to a free name, which no way goes over (`keepsWays_put`). So a path can
only be harmed by leading to the very file that the draft is written to (`at?_put_cases`). Even to
such a path the draft can be moved (`moveFile_of_file`) unless something goes wrong, so where
nothing does and the move fails, the path leads elsewhere (`at?_write`).

What is not the same is that a path can lead somewhere once there are more folders.
-/

namespace MdxMend

open Text

namespace Store

open MdxMend.Path

variable {s s' s'' : Store} {purpose : Purpose} {p q : Path} {l m folder : Location} {n : Node}
  {name : RawText} {spot : Spot} {b : ByteArray} {k : Nat} {st : List RawText}

/-- What is at a path: a link itself if it is one. -/
def at? (s : Store) (p : Path) : Option (Location × Node) :=
  match s.resolve .keep p with
  | .ok (.taken l n) => some (l, n)
  | _ => none

/-- Whatever is in a store is in a folder. -/
def IsTree (s : Store) : Prop := ∀ name l, s.get? (name :: l) ≠ none → s.get? l = some .folder

theorem isTree_of_mem (h : ∀ entry ∈ s.nodes, s.get? entry.1.tail = some .folder) : s.IsTree := by
  intro name l hl
  cases hlookup : s.nodes.lookup (name :: l) with
  | none => exact absurd hlookup hl
  | some n =>
      obtain ⟨before, behind, hnodes, -⟩ := List.lookup_eq_some_iff.mp hlookup
      exact h (name :: l, n) (hnodes ▸ List.mem_append_right _ List.mem_cons_self)

/-- Nothing is deeper than the root. -/
theorem isTree_of_top (h : ∀ entry ∈ s.nodes, entry.1.length ≤ 1) : s.IsTree := by
  refine isTree_of_mem fun entry hentry => ?_
  have htop : entry.1.tail = [] := by
    rw [← List.length_eq_zero_iff, List.length_tail, Nat.sub_eq_zero_iff_le]
    exact h entry hentry
  rw [htop]
  rfl

theorem at?_eq_some_iff : s.at? p = some (l, n) ↔ s.resolve .keep p = .ok (.taken l n) := by
  unfold at?
  split <;> simp_all

/-! ## Folders that are made -/

/-- A store with more folders than another, where nothing was, and no other difference. -/
structure Grown (s s' : Store) : Prop where
  here_eq : s'.here = s.here
  faults_eq : s'.faults = s.faults
  get?_cases (l : Location) : s'.get? l = s.get? l ∨ s.get? l = none ∧ s'.get? l = some .folder
  isTree : s.IsTree → s'.IsTree

namespace Grown

theorem refl (s : Store) : s.Grown s := ⟨rfl, rfl, fun _ => .inl rfl, id⟩

theorem trans (h : s.Grown s') (h' : s'.Grown s'') : s.Grown s'' := by
  refine ⟨h'.here_eq.trans h.here_eq, h'.faults_eq.trans h.faults_eq, fun l => ?_,
    fun hs => h'.isTree (h.isTree hs)⟩
  rcases h.get?_cases l with heq | ⟨hnone, hfolder⟩
  · rw [← heq]
    exact h'.get?_cases l
  · refine .inr ⟨hnone, ?_⟩
    rcases h'.get?_cases l with heq | ⟨hnone', -⟩
    · rw [heq, hfolder]
    · rw [hfolder] at hnone'
      cases hnone'

theorem get?_eq_some (h : s.Grown s') (hl : s.get? l = some n) : s'.get? l = some n := by
  rcases h.get?_cases l with heq | ⟨hnone, -⟩
  · rw [heq, hl]
  · rw [hl] at hnone
    cases hnone

theorem keepsWays (h : s.Grown s') : s.KeepsWays s' := .of_kept fun _ _ hl _ => h.get?_eq_some hl

/-- What is at a path stays there. -/
theorem at?_eq_some (h : s.Grown s') (hp : s.at? p = some (l, n)) : s'.at? p = some (l, n) := by
  obtain ⟨hfault, hwalk⟩ := resolve_eq_ok_iff.mp (at?_eq_some_iff.mp hp)
  refine at?_eq_some_iff.mpr (resolve_eq_ok_iff.mpr ⟨hfault, ?_⟩)
  rw [h.here_eq]
  exact walk_taken h.keepsWays hwalk (h.get?_eq_some (get?_of_walk hwalk))

end Grown

theorem free_of_walk (h : s.walk purpose k l st = .ok (.free m)) :
    ∃ name folder, m = name :: folder ∧ s.get? folder = some .folder ∧ s.get? m = none := by
  obtain ⟨j, k', folder, r, rfl, -, hlast⟩ := exists_leads_last h
  cases hlast with
  | free hl hname hn => exact ⟨_, _, rfl, hl, hn⟩

theorem grown_put (hl : s.get? folder = some .folder) (hn : s.get? (name :: folder) = none) :
    s.Grown (s.put (name :: folder) .folder) := by
  have hne : folder ≠ name :: folder := fun h => absurd (congrArg List.length h) (by simp)
  refine ⟨rfl, rfl, fun l => ?_, fun hs other l h => ?_⟩
  · by_cases heq : l = name :: folder
    · subst heq
      exact .inr ⟨hn, get?_put_self s _ (List.cons_ne_nil _ _)⟩
    · exact .inl (get?_put_of_ne s _ heq)
  · by_cases heq : other :: l = name :: folder
    · obtain ⟨-, rfl⟩ := List.cons.inj heq
      rw [get?_put_of_ne s _ hne, hl]
    · rw [get?_put_of_ne s _ heq] at h
      have hfolder := hs other l h
      rw [get?_put_of_ne, hfolder]
      rintro rfl
      rw [hn] at hfolder
      cases hfolder

theorem grown_makeFolder (h : s.makeFolder p = .ok s') : s.Grown s' := by
  unfold makeFolder at h
  cases hspot : s.resolve .keep (withoutSlash p) with
  | error cause =>
      rw [hspot] at h
      cases h
  | ok spot =>
      rw [hspot] at h
      cases spot with
      | taken l n => cases h
      | free l =>
          simp only [bind, Except.bind] at h
          split at h
          · cases h
          · obtain rfl := Except.ok.inj h
            obtain ⟨name, folder, rfl, hfolder, hnone⟩ :=
              free_of_walk (resolve_eq_ok_iff.mp hspot).2
            exact grown_put hfolder hnone

theorem grown_ensureFolder (h : s.ensureFolder p = .ok s') : s.Grown s' := by
  unfold ensureFolder at h
  split at h
  · next hmake =>
      obtain rfl := Except.ok.inj h
      exact grown_makeFolder hmake
  · split at h
    · obtain rfl := Except.ok.inj h
      exact .refl s
    · cases h

/-- Making folders makes folders, whether it goes well or not. -/
theorem grown_ensureFoldersUpTo (s : Store) (p : Path) (fuel : Nat) :
    s.Grown (s.ensureFoldersUpTo p fuel).2 := by
  induction fuel generalizing s p with
  | zero => exact .refl s
  | succ fuel ih =>
      unfold ensureFoldersUpTo
      split
      · exact .refl s
      · split
        · next hmake => exact grown_makeFolder hmake
        · split
          · exact .refl s
          · next above _ =>
              have habove := ih s above
              split
              · next cause s' heq =>
                  rw [heq] at habove
                  exact habove
              · next s' heq =>
                  rw [heq] at habove
                  split
                  · next hensure => exact habove.trans (grown_ensureFolder hensure)
                  · exact habove
        · split <;> exact .refl s

/-! ## A move that fails -/

theorem ne_nil_of_fault (h : pathFault? p = none) : p.raw.bytes ≠ [] := by
  intro hnil
  have hempty : p.isEmpty = true := by simpa [Path.isEmpty] using hnil
  unfold pathFault? at h
  split at h <;> cases h

/-- A walk that ends at a file ends at a name. -/
theorem isName_of_walk_file (hs : s.IsTree)
    (h : s.walk .keep k folder [name] = .ok (.taken m (.file b))) :
    IsName name ∧ m = name :: folder := by
  obtain ⟨j, k', l, r, rfl, hleads, hlast⟩ := exists_leads_last h
  -- The name cannot stand for a folder, because the walk would end there.
  have hfolder {i : Nat} {l' : Location} (hrest : Leads s .keep i l' [] l r) :
      s.get? l' ≠ some .folder := by
    intro hl'
    cases hrest with
    | refl =>
        cases hlast with
        | here hl =>
            rw [hl] at hl'
            cases hl'
  cases hleads with
  | refl =>
      cases hlast with
      | file hl hname hn => exact ⟨hname, rfl⟩
  | stay hl hstay hrest => exact absurd hl (hfolder hrest)
  | up hl hrest =>
      refine absurd ?_ (hfolder hrest)
      cases folder with
      | nil => exact hl
      | cons name l => exact hs name l (by rw [hl]; exact Option.some_ne_none _)
  | down hl hname hmake hn hrest => exact absurd hn (hfolder hrest)
  | link hl hname hmake hkeep hn hrest => exact absurd rfl (hkeep rfl)

/-- A draft can be moved to a path that leads to a file, if no move is refused. -/
theorem moveFile_of_file {source : Path} (hs : s.IsTree)
    (hfaults : ∀ l m, s.faults.move l m = none)
    (hsource : s.resolve .keep source = .ok (.taken l n)) (hn : n ≠ .folder)
    (h : s.resolve .keep p = .ok (.taken m (.file b))) :
    ∃ moved, s.moveFile source p = .ok moved := by
  obtain ⟨hfault, hwalk⟩ := resolve_eq_ok_iff.mp h
  have hne := ne_nil_of_fault hfault
  have hslash : p.raw.bytes.getLast? ≠ some slash := by
    intro hslash
    rw [stepsOf_slash hslash] at hwalk
    obtain ⟨_, hfolder⟩ := folder_of_walk_slash hwalk
    cases hfolder
  obtain ⟨pieces, piece, -, -, hnames⟩ := exists_last_name hne hslash
  rw [stepsOf_eq hne hslash, hnames] at hwalk
  obtain ⟨j, k, folder, hk, hleads, hfolder, hend⟩ :=
    exists_leads_append hwalk (List.cons_ne_nil _ _)
  obtain ⟨hname, rfl⟩ := isName_of_walk_file hs hend
  have hnew : s.resolveName p = .ok (RawText.mk piece :: folder) := by
    refine resolveName_ok_iff.mpr ⟨hfault, _, _, folder, hnames, ?_, hname, rfl⟩
    rw [hk]
    exact (hleads.walk k).trans (walk_here hfolder)
  have hfile : s.get? (RawText.mk piece :: folder) = some (.file b) := get?_of_resolve h
  exact ⟨_, moveFile_eq hsource hn hnew hslash (by simp [hfile]) (hfaults _ _)⟩

/-- What was written can be moved. -/
theorem exists_kept_of_write {source : Path} (hname : IsName name)
    (hsteps : stepsOf source = st ++ [name]) (h : s.write source b = .ok s') :
    ∃ l n, s'.resolve .keep source = .ok (.taken l n) ∧ n ≠ .folder := by
  obtain ⟨m, hfile, -, rfl⟩ := write_ok_iff.mp h
  obtain ⟨spot, hspot, hfor⟩ := fileFor_ok_iff.mp hfile
  obtain ⟨hfault, hwalk⟩ := resolve_eq_ok_iff.mp hspot
  have hthere := (keepsWays_put hfor hwalk b).1
  have hm := get?_put_self s (.file b) (hfor.ne_nil hwalk)
  rw [hsteps] at hwalk
  obtain ⟨j, k, folder, hk, hleads, hfolder, hend⟩ :=
    exists_leads_append hwalk (List.cons_ne_nil _ _)
  obtain ⟨n, hn, hother⟩ :
      ∃ n, (s.put m (.file b)).get? (name :: folder) = some n ∧ n ≠ .folder := by
    by_cases heq : name :: folder = m
    · rw [heq]
      exact ⟨_, hm, by simp⟩
    · rw [walk_name hfolder hname (by simp)] at hend
      rw [get?_put_of_ne _ _ heq]
      cases hn : s.get? (name :: folder) with
      | none =>
          rw [hn] at hend
          obtain rfl := Except.ok.inj hend
          rcases hfor with ⟨a, ha⟩ | hfree
          · cases ha
          · exact absurd (Spot.free.inj hfree) heq
      | some n =>
          refine ⟨n, rfl, ?_⟩
          rintro rfl
          rw [hn] at hend
          obtain rfl := Except.ok.inj ((walk_here hn).symm.trans hend)
          rcases hfor with ⟨a, ha⟩ | hfree
          · cases ha
          · cases hfree
  refine ⟨name :: folder, n, resolve_eq_ok_iff.mpr ⟨hfault, ?_⟩, hother⟩
  have hfront : Leads (s.put m (.file b)) .keep j (startOf source s.here) (st ++ [name]) folder
      [name] := (hleads.mono hthere).append (by simp) (by simp)
  rw [hsteps, hk]
  refine (hfront.walk k).trans ?_
  rw [walk_name (hthere.folder _ hfolder) hname (by simp), hn]
  cases n with
  | folder => exact absurd rfl hother
  | file a => exact walk_here hn
  | link target => rfl

theorem isTree_write (hs : s.IsTree) (h : s.write p b = .ok s') : s'.IsTree := by
  obtain ⟨m, hfile, -, rfl⟩ := write_ok_iff.mp h
  obtain ⟨spot, hspot, hfor⟩ := fileFor_ok_iff.mp hfile
  have hwalk := (resolve_eq_ok_iff.mp hspot).2
  have hthere := (keepsWays_put hfor hwalk b).1
  intro name l hl
  refine hthere.folder _ ?_
  by_cases heq : name :: l = m
  · subst heq
    rcases hfor with ⟨a, rfl⟩ | rfl
    · have hfile : s.get? (name :: l) = some (.file a) := get?_of_walk hwalk
      exact hs name l (by rw [hfile]; exact Option.some_ne_none _)
    · obtain ⟨name', folder, hm, hfolder, -⟩ := free_of_walk hwalk
      obtain ⟨-, rfl⟩ := List.cons.inj hm
      exact hfolder
  · rw [get?_put_of_ne _ _ heq] at hl
    exact hs name l hl

section Put

variable (hfile : s.fileFor q = .ok m)

include hfile

/-- A file that is written changes what is at a path only if the path leads to it. -/
theorem at?_put_of_ne (hl : l ≠ m) :
    (s.put m (.file b)).at? p = some (l, n) ↔ s.at? p = some (l, n) := by
  obtain ⟨spot, hspot, hfor⟩ := fileFor_ok_iff.mp hfile
  obtain ⟨hthere, hback⟩ := keepsWays_put hfor (resolve_eq_ok_iff.mp hspot).2 b
  have hget := get?_put_of_ne s (.file b) hl
  rw [at?_eq_some_iff, at?_eq_some_iff]
  constructor
  · intro hp
    obtain ⟨hfault, hwalk⟩ := resolve_eq_ok_iff.mp hp
    exact resolve_eq_ok_iff.mpr ⟨hfault, walk_taken hback hwalk (hget ▸ get?_of_resolve hp)⟩
  · intro hp
    obtain ⟨hfault, hwalk⟩ := resolve_eq_ok_iff.mp hp
    exact resolve_eq_ok_iff.mpr ⟨hfault, walk_taken hthere hwalk (hget ▸ get?_of_resolve hp)⟩

theorem at?_put_cases (p : Path) (b : ByteArray) :
    (s.put m (.file b)).at? p = s.at? p ∨ (s.put m (.file b)).at? p = some (m, .file b) := by
  obtain ⟨spot, hspot, hfor⟩ := fileFor_ok_iff.mp hfile
  have hwalk := (resolve_eq_ok_iff.mp hspot).2
  cases hnew : (s.put m (.file b)).at? p with
  | some found =>
      obtain ⟨l, n⟩ := found
      by_cases hl : l = m
      · subst hl
        have hget := get?_of_resolve (at?_eq_some_iff.mp hnew)
        rw [get?_put_self s _ (hfor.ne_nil hwalk)] at hget
        exact .inr (by rw [Option.some.inj hget])
      · exact .inl ((at?_put_of_ne hfile hl).mp hnew).symm
  | none =>
      refine .inl (Option.eq_none_iff_forall_not_mem.mpr fun ⟨l, n⟩ hold => ?_).symm
      by_cases hl : l = m
      · -- The path led to the file that was there, and leads to the new one.
        subst hl
        have hold := at?_eq_some_iff.mp hold
        obtain ⟨a, rfl⟩ := hfor.file_of_get? hwalk (get?_of_resolve hold)
        have hput : (s.put l (.file b)).resolve .keep p = _ :=
          resolve_put_file (get?_of_resolve hold) b
        rw [hold, Except.map, Spot.renew, if_pos rfl] at hput
        rw [at?_eq_some_iff.mpr hput] at hnew
        cases hnew
      · rw [(at?_put_of_ne hfile hl).mpr hold] at hnew
        cases hnew

end Put

/-- A store in which no write goes wrong and no move is refused. -/
structure IsSteady (s : Store) : Prop extends s.IsWritable where
  move : ∀ l m, s.faults.move l m = none

/-- If a draft has been written and cannot be moved to a path, though no move is refused, it was not
written to what is at the path. -/
theorem at?_write {source : Path} (hs : s.IsTree) (hsteady : s.IsSteady) (hname : IsName name)
    (hsteps : stepsOf source = st ++ [name]) (h : s.write source b = .ok s')
    (hmove : ∀ moved, s'.moveFile source p ≠ .ok moved) : s'.at? p = s.at? p := by
  obtain ⟨old, n, hold, hn⟩ := exists_kept_of_write hname hsteps h
  have htree := isTree_write hs h
  obtain ⟨m, hfile, -, rfl⟩ := write_ok_iff.mp h
  rcases at?_put_cases hfile p b with hsame | hthere
  · exact hsame
  · obtain ⟨moved, hmoved⟩ :=
      moveFile_of_file htree hsteady.move hold hn (at?_eq_some_iff.mp hthere)
    exact absurd hmoved (hmove moved)

end Store

end MdxMend
