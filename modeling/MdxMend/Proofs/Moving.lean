import MdxMend.Proofs.Access
import MdxMend.Proofs.PathNames

/-!
# Moving a draft into place

A draft is written beside a path and then moved there. The two have the same steps up to their names
(`Beside`), so they are names in one folder, and the question is whether what was written is found
over the other name.

Where the draft is a file it is the file that is moved, and the path leads to it as long as its
folder is still reached. Where the draft is a link the file was written elsewhere, and it is the
link that is moved. The walk over the link comes over it once only, since a walk that comes to a
link twice goes round for good, so the rest of the way is there without the link and leads from its
new place to the same file (`walk_moved_link`). In both cases the way must not need what was at the
path before, which the move has replaced (`PassesBy`).
-/

namespace MdxMend.Store

open MdxMend.Path

variable {s s' : Store} {purpose : Purpose} {p q : Path} {l m folder : Location} {n : Node}
  {name : RawText} {init : List RawText} {spot : Spot} {b : ByteArray}

theorem ne_slashStep_of_mem {t : List UInt8} (h : name ∈ namesOf t) : name ≠ slashStep := by
  obtain ⟨piece, hpiece, rfl⟩ := List.mem_map.mp h
  have hne := (List.mem_filter.mp hpiece).2
  intro heq
  have hnil : piece = [] := congrArg RawText.bytes heq
  simp [hnil] at hne

theorem resolveName_ok_iff :
    s.resolveName p = .ok l ↔
      pathFault? p = none ∧ ∃ init name folder, namesOf p.raw.bytes = init ++ [name] ∧
        s.walk .follow maxLinks (startOf p s.here) init = .ok (.taken folder .folder) ∧
        IsName name ∧ l = name :: folder := by
  have hnames : ((piecesOf p.raw.bytes).filter (· != [])).map RawText.mk =
      namesOf p.raw.bytes := rfl
  unfold resolveName
  rw [hnames]
  constructor
  · intro h
    split at h
    · cases h
    · next hfault =>
        refine ⟨hfault, ?_⟩
        simp only [bind, Except.bind] at h
        cases hwalk :
          s.walk .follow maxLinks (startOf p s.here) (namesOf p.raw.bytes).dropLast with
        | error cause =>
            rw [hwalk] at h
            cases h
        | ok spot =>
            simp only [hwalk] at h
            split at h
            · next folder =>
                split at h
                · cases h
                · next last hlast =>
                    split at h
                    · cases h
                    · next hdots =>
                        rw [Bool.or_eq_true, beq_iff_eq, beq_iff_eq, not_or] at hdots
                        split at h
                        · cases h
                        · next hsize =>
                            obtain ⟨init, hinit⟩ := List.getLast?_eq_some_iff.mp hlast
                            have hslash : last ≠ slashStep := ne_slashStep_of_mem
                              (t := p.raw.bytes)
                              (hinit ▸ List.mem_append_right _ List.mem_cons_self)
                            have hmoves : staysHere last = false := by
                              rw [staysHere, Bool.or_eq_false_iff, beq_eq_false_iff_ne,
                                beq_eq_false_iff_ne]
                              exact ⟨hslash, hdots.1⟩
                            rw [hinit, List.dropLast_concat] at hwalk
                            exact ⟨init, last, folder, hinit, hwalk,
                              ⟨hmoves, hdots.2, Nat.not_lt.mp hsize⟩, (Except.ok.inj h).symm⟩
            · cases h
            · cases h
  · rintro ⟨hfault, init, name, folder, hinit, hwalk, hname, rfl⟩
    have hdots : ¬ (name == "." || name == "..") = true := by
      rw [Bool.or_eq_true, beq_iff_eq, beq_iff_eq, not_or]
      refine ⟨?_, hname.not_up⟩
      rintro rfl
      cases hname.moves
    simp only [hfault, hinit, List.dropLast_concat, hwalk, List.getLast?_concat, bind, Except.bind]
    rw [if_neg hdots, if_neg (Nat.not_lt.mpr hname.size_le)]

theorem resolveName_plain (h : IsPlain name) (hhere : s.get? s.here = some .folder) :
    s.resolveName ⟨name⟩ = .ok (name :: s.here) := by
  refine resolveName_ok_iff.mpr ⟨h.fault, [], name, s.here, ?_, ?_, h.toIsName, rfl⟩
  · exact namesOf_of_not_mem h.no_slash h.ne_nil
  · rw [h.start]
    exact walk_here hhere

theorem moveFile_of_kept {target : Path} (hsource : s.resolve .keep p = .ok (.taken m n))
    (hn : n ≠ .folder) :
    s.moveFile p target = (s.resolveName target).bind fun new =>
      if target.raw.bytes.getLast? == some slash then .error .notAFolder
      else if m == new then .ok s
      else if s.get? new == some .folder then .error .isAFolder
      else
        match s.faults.move m new with
        | some cause => .error cause
        | none => .ok ((s.remove m).put new n) := by
  unfold moveFile
  rw [hsource]
  cases n with
  | folder => exact absurd rfl hn
  | file b => rfl
  | link target => rfl

theorem moveFile_eq {target : Path} (hold : s.resolve .keep p = .ok (.taken m n))
    (hn : n ≠ .folder) (hnew : s.resolveName target = .ok l)
    (hslash : target.raw.bytes.getLast? ≠ some slash) (hfolder : s.get? l ≠ some .folder)
    (hfault : s.faults.move m l = none) :
    s.moveFile p target = .ok (if m = l then s else (s.remove m).put l n) := by
  rw [moveFile_of_kept hold hn, hnew]
  simp only [Except.bind, beq_eq_false_iff_ne.mpr hslash, beq_eq_false_iff_ne.mpr hfolder,
    Bool.false_eq_true, if_false, beq_iff_eq, hfault]
  split <;> rfl

/-- What a move has done that went well. -/
theorem exists_of_moveFile {target : Path} (h : s.moveFile p target = .ok s') :
    ∃ old n new, s.resolve .keep p = .ok (.taken old n) ∧ n ≠ .folder ∧
      s.resolveName target = .ok new ∧ target.raw.bytes.getLast? ≠ some slash ∧
      (old = new ∧ s' = s ∨ old ≠ new ∧ s' = (s.remove old).put new n) := by
  have hsource : ∃ old n, s.resolve .keep p = .ok (.taken old n) ∧ n ≠ .folder := by
    unfold moveFile at h
    cases hspot : s.resolve .keep p with
    | error cause =>
        rw [hspot] at h
        cases h
    | ok spot =>
        rw [hspot] at h
        cases spot with
        | free l => cases h
        | taken old n =>
            refine ⟨old, n, rfl, ?_⟩
            rintro rfl
            cases h
  obtain ⟨old, n, hold, hn⟩ := hsource
  rw [moveFile_of_kept hold hn] at h
  cases hnew : s.resolveName target with
  | error cause =>
      rw [hnew] at h
      cases h
  | ok new =>
      rw [hnew] at h
      simp only [Except.bind] at h
      split at h
      · cases h
      · next hslash =>
          refine ⟨old, n, new, hold, hn, rfl, by simpa using hslash, ?_⟩
          split at h
          · next hsame => exact .inl ⟨eq_of_beq hsame, (Except.ok.inj h).symm⟩
          · next hdiffer =>
              split at h
              · cases h
              · split at h
                · cases h
                · exact .inr ⟨by simpa using hdiffer, (Except.ok.inj h).symm⟩

/-! ## Ways -/

theorem KeepsWays.of_kept
    (h : ∀ l n, s.get? l = some n → (∀ b, n ≠ .file b) → s'.get? l = some n) : s.KeepsWays s' :=
  ⟨fun l hl => h l _ hl (by simp), fun l _ hl => h l _ hl (by simp)⟩

theorem get?_remove_eq_some (hl : l ≠ []) (h : (s.remove l).get? m = some n) :
    m ≠ l ∧ s.get? m = some n := by
  have hne : m ≠ l := by
    rintro rfl
    rw [get?_remove_self hl] at h
    cases h
  exact ⟨hne, by rw [← get?_remove_of_ne s hne, h]⟩

theorem keepsWays_remove (s : Store) (hl : l ≠ []) : (s.remove l).KeepsWays s :=
  .of_kept fun _ _ h _ => (get?_remove_eq_some hl h).2

/-- Where a file can be written there is no folder and no link. -/
theorem Spot.IsFor.file_of_get? {k : Nat} {st : List RawText} (hspot : spot.IsFor m)
    (h : s.walk purpose k l st = .ok spot) (hm : s.get? m = some n) : ∃ b, n = .file b := by
  rcases hspot with ⟨b, rfl⟩ | rfl
  · have hget : s.get? m = some (.file b) := get?_of_walk h
    rw [hm] at hget
    exact ⟨b, Option.some.inj hget⟩
  · have hget : s.get? m = none ∧ m ≠ [] := get?_of_walk h
    rw [hm] at hget
    cases hget.1

theorem Spot.IsFor.ne_nil {k : Nat} {st : List RawText} (hspot : spot.IsFor m)
    (h : s.walk purpose k l st = .ok spot) : m ≠ [] := by
  rintro rfl
  obtain ⟨b, hb⟩ := hspot.file_of_get? h (n := .folder) rfl
  cases hb

/-- A file that is written is on no way. -/
theorem keepsWays_put {k : Nat} {st : List RawText} (hspot : spot.IsFor m)
    (h : s.walk purpose k l st = .ok spot) (b : ByteArray) :
    s.KeepsWays (s.put m (.file b)) ∧ (s.put m (.file b)).KeepsWays s := by
  have hm := hspot.ne_nil h
  refine ⟨.of_kept fun x n hx hn => ?_, .of_kept fun x n hx hn => ?_⟩
  · rw [get?_put_of_ne, hx]
    rintro rfl
    obtain ⟨a, rfl⟩ := hspot.file_of_get? h hx
    exact hn a rfl
  · rw [← hx, get?_put_of_ne]
    rintro rfl
    rw [get?_put_self s _ hm] at hx
    exact hn b (Option.some.inj hx).symm

/-- Nor is it missed there. -/
theorem keepsWays_remove_file {k : Nat} {st : List RawText} (hspot : spot.IsFor m)
    (h : s.walk purpose k l st = .ok spot) : s.KeepsWays (s.remove m) := by
  refine .of_kept fun x n hx hn => ?_
  rw [get?_remove_of_ne, hx]
  rintro rfl
  obtain ⟨a, rfl⟩ := hspot.file_of_get? h hx
  exact hn a rfl

theorem walk_follow_of_make {k : Nat} {st : List RawText} (h : s.walk .make k l st = .ok spot) :
    s.walk .follow k l st = .ok spot := by
  obtain ⟨j, k', m, r, rfl, hleads, hlast⟩ := exists_leads_last h
  rw [hleads.follow.walk]
  cases hlast with
  | here hl => exact (Last.here hl).walk k'
  | file hl hname hn => exact (Last.file hl hname hn).walk k'
  | free hl hname hn => exact (Last.free hl hname hn).walk k'
  | link hkeep => cases hkeep

/-- Where a walk ends at a name that is not followed. -/
theorem exists_of_walk_keep {k : Nat} {st : List RawText} (hname : IsName name)
    (h : s.walk .keep k l (st ++ [name]) = .ok (.taken m n)) :
    ∃ j k' folder, k = j + k' ∧ Leads s .follow j l st folder [] ∧ s.get? folder = some .folder ∧
      m = name :: folder ∧ s.get? m = some n := by
  obtain ⟨j, k', folder, rfl, hleads, hfolder, hend⟩ := exists_leads_append h (List.cons_ne_nil _ _)
  refine ⟨j, k', folder, rfl, hleads, hfolder, ?_⟩
  rw [walk_name hfolder hname (by simp)] at hend
  cases hn : s.get? (name :: folder) with
  | none =>
      rw [hn] at hend
      cases hend
  | some n' =>
      rw [hn] at hend
      have hspot : Spot.taken (name :: folder) n' = .taken m n := by
        cases n' with
        | link target => exact Except.ok.inj hend
        | folder => exact Except.ok.inj ((walk_here hn).symm.trans hend)
        | file b => exact Except.ok.inj ((walk_here hn).symm.trans hend)
      obtain ⟨rfl, rfl⟩ := Spot.taken.inj hspot
      exact ⟨rfl, hn⟩

/-! ## A draft moved into place -/

theorem Leads.dots {start : Location} {st dots : List RawText} {j : Nat}
    (h : Leads s .follow j start st folder []) (hfolder : s.get? folder = some .folder)
    (hdots : ∀ dot ∈ dots, dot = ".") : Leads s .follow j start (st ++ dots) folder [] := by
  have hstay : Leads s .follow 0 folder dots folder [] := by
    induction dots with
    | nil => exact .refl folder []
    | cons dot dots ih =>
        rw [List.forall_mem_cons] at hdots
        obtain ⟨rfl, hdots⟩ := hdots
        exact .stay hfolder rfl (ih hdots)
  have hfront : Leads s .follow j start (st ++ dots) folder dots := h.append (by simp) (by simp)
  exact hfront.trans hstay

/-- A name at the end of a way. -/
theorem Leads.walk_name {start : Location} {st : List RawText} {j : Nat}
    (h : Leads s .follow j start st folder []) (k : Nat) (name : RawText) :
    s.walk .follow (j + k) start (st ++ [name]) = s.walk .follow k folder [name] := by
  have hfront : Leads s .follow j start (st ++ [name]) folder [name] :=
    h.append (by simp) (by simp)
  exact hfront.walk k

/-- Elsewhere a move changes nothing. -/
theorem get?_move {old new x : Location} (hnew : x ≠ new) (hold : x ≠ old) :
    ((s.remove old).put new n).get? x = s.get? x := by
  rw [get?_put_of_ne _ _ hnew, get?_remove_of_ne _ hold]

section Move

variable {start : Location} {st dots : List RawText} {j k : Nat} {draft : RawText}
  (hdraft : IsName draft) (hname : IsName name) (hdiffer : draft ≠ name)
  (hfolder : s.get? folder = some .folder) (hleads : Leads s .follow j start st folder [])
  (hpast : (s.remove (name :: folder)).walk .follow (j + k) start (st ++ [draft]) = .ok spot)
  (hspot : spot.IsFor m) (hfree : spot ≠ .free (name :: folder))

include hfolder hleads hpast in
/-- The draft is reached over the same folder where nothing is at the place that it is moved to. -/
theorem leads_past :
    Leads (s.remove (name :: folder)) .follow j start st folder [] ∧
      (s.remove (name :: folder)).get? folder = some .folder := by
  obtain ⟨i, k', m, hk, hfirst, hm, -⟩ := exists_leads_append hpast (List.cons_ne_nil _ _)
  have hkeeps := keepsWays_remove s (List.cons_ne_nil name folder)
  obtain ⟨rfl, rfl⟩ := hleads.unique hfolder (hfirst.mono hkeeps) (hkeeps.folder _ hm)
  exact ⟨hfirst, hm⟩

include hpast hspot in
/-- A draft that is written and moved is on no way where nothing is at either of its places. -/
theorem keepsWays_move {old : Location} (hold : old ≠ []) (n : Node) :
    ((s.remove (name :: folder)).remove old).KeepsWays
      (((s.put m (.file b)).remove old).put (name :: folder) n) := by
  refine .of_kept fun x n' hx hn' => ?_
  obtain ⟨hxold, hx⟩ := get?_remove_eq_some hold hx
  obtain ⟨hxnew, hx'⟩ := get?_remove_eq_some (List.cons_ne_nil _ _) hx
  have hxm : x ≠ m := by
    rintro rfl
    obtain ⟨a, rfl⟩ := hspot.file_of_get? hpast hx
    exact hn' a rfl
  rw [get?_move hxnew hxold, get?_put_of_ne _ _ hxm, hx']

include hpast hspot hfree in
theorem ne_of_past : m ≠ name :: folder := by
  rintro rfl
  rcases hspot with ⟨a, rfl⟩ | rfl
  · have hget : (s.remove (name :: folder)).get? (name :: folder) = some (.file a) :=
      get?_of_walk hpast
    rw [get?_remove_self (List.cons_ne_nil _ _)] at hget
    cases hget
  · exact hfree rfl

variable (hdots : ∀ dot ∈ dots, dot = ".")

include hname hfolder hleads hpast hspot hdots in
/-- A draft that is a file is moved with its contents. -/
theorem walk_moved_file :
    (((s.put m (.file b)).remove m).put (name :: folder) (.file b)).walk .follow (j + k) start
      (st ++ dots ++ [name]) = .ok (.taken (name :: folder) (.file b)) := by
  obtain ⟨hleads', hfolder'⟩ := leads_past hfolder hleads hpast
  have hfile := keepsWays_remove_file hspot hpast
  have hkeeps := keepsWays_move (b := b) hpast hspot (hspot.ne_nil hpast) (.file b)
  have hfolder'' := hkeeps.folder _ (hfile.folder _ hfolder')
  rw [(((hleads'.mono hfile).mono hkeeps).dots hfolder'' hdots).walk_name]
  exact (Last.file hfolder'' hname (get?_put_self _ _ (List.cons_ne_nil _ _))).walk k

include hdraft hname hdiffer hfolder hleads hpast hspot hfree hdots in
/-- A draft that is a link leads from its new place where it led from the old one. -/
theorem walk_moved_link {target : Path} (hlink : s.get? (draft :: folder) = some (.link target)) :
    (((s.put m (.file b)).remove (draft :: folder)).put (name :: folder) (.link target)).walk
      .follow (j + k) start (st ++ dots ++ [name]) = .ok (.taken m (.file b)) := by
  let past := s.remove (name :: folder)
  let moved := ((s.put m (.file b)).remove (draft :: folder)).put (name :: folder) (.link target)
  obtain ⟨hleads', hfolder'⟩ := leads_past hfolder hleads hpast
  have hne : draft :: folder ≠ name :: folder := fun h => hdiffer (List.cons.inj h).1
  have hlink' : past.get? (draft :: folder) = some (.link target) := by
    rw [get?_remove_of_ne _ hne, hlink]
  have hml : m ≠ name :: folder := ne_of_past hpast hspot hfree
  have hmd : m ≠ draft :: folder := by
    rintro rfl
    obtain ⟨a, ha⟩ := hspot.file_of_get? hpast hlink'
    cases ha
  -- Neither the way to the link nor the way behind it comes over the link.
  have hoff (i : Nat) (r : List RawText) : ¬ Leads past .follow i start st folder (draft :: r) :=
    not_leads_twice hfolder' hdraft hlink' hpast hspot hleads'
  have hlast : past.walk .follow k folder [draft] = .ok spot := by
    rw [← hpast, hleads'.walk_name]
  obtain ⟨k', rfl, hend⟩ := exists_of_walk_link hfolder' hdraft hlink' hlast
  rw [List.append_nil] at hend
  have hoff' (i : Nat) (r : List RawText) :
      ¬ Leads past .follow i (startOf target folder) (stepsOf target) folder (draft :: r) := by
    intro hback
    exact not_leads_back hfolder' hdraft hlink' hback (k' + 1) [] spot hlast
  have hkeeps : (past.remove (draft :: folder)).KeepsWays moved :=
    keepsWays_move hpast hspot (List.cons_ne_nil _ _) (.link target)
  have hmoved : moved.get? m = some (.file b) := by
    rw [get?_move hml hmd, get?_put_self _ _ (hspot.ne_nil hpast)]
  have hleads'' := (hleads'.remove hlink' hoff).mono hkeeps
  have hfolder'' : moved.get? folder = some .folder := by
    refine hkeeps.folder _ ?_
    rw [get?_remove_of_ne, hfolder']
    exact fun h => absurd (congrArg List.length h) (by simp)
  rw [(hleads''.dots hfolder'' hdots).walk_name, walk_link hfolder'' hname (by simp)
    (get?_put_self _ _ (List.cons_ne_nil _ _)) (by simp), List.append_nil]
  exact walk_file hkeeps (walk_remove hend hspot hlink' hoff') hspot hmoved

end Move

/-- How a draft beside a path and the path itself are reached: by the same steps, which lead to one
folder. Dots may stand in front of the name that the path ends in. -/
structure Beside (s : Store) (source target : Path) (draft name : RawText) (folder : Location)
    (st dots : List RawText) (j k : Nat) : Prop where
  fault : pathFault? target = none
  start (l : Location) : startOf source l = startOf target l
  source_steps : stepsOf source = st ++ [draft]
  target_names : namesOf target.raw.bytes = st ++ dots ++ [name]
  target_steps : stepsOf target = st ++ dots ++ [name]
  all_dots : ∀ dot ∈ dots, dot = "."
  isName : IsName name
  links : maxLinks = j + k
  leads : Leads s .follow j (startOf target s.here) st folder []
  isFolder : s.get? folder = some .folder

/-- What a move of a draft has done that went well. -/
theorem exists_beside {moved : Store} {draft : RawText} (hdraft : IsPlain draft)
    (hq : p.parent?.getD ⟨""⟩ = q) (h : s.moveFile (q.join ⟨draft⟩) p = .ok moved) :
    ∃ name folder st dots j k n, s.Beside (q.join ⟨draft⟩) p draft name folder st dots j k ∧
      s.get? (draft :: folder) = some n ∧ n ≠ .folder ∧
      (draft = name ∧ moved = s ∨
        draft ≠ name ∧ moved = (s.remove (draft :: folder)).put (name :: folder) n) := by
  obtain ⟨old, n, new, hold, hn, hnew, hslash, hcases⟩ := exists_of_moveFile h
  obtain ⟨hfault, init, name, folder', hnames, hinit, hname, rfl⟩ := resolveName_ok_iff.mp hnew
  have hdot : name ≠ "." := by
    rintro rfl
    cases hname.moves
  obtain ⟨q', dots, hparent, habs, rfl, hdots⟩ := exists_parent hnames hslash hdot
  obtain rfl : q' = q := by rw [← hq, hparent, Option.getD_some]
  have hsteps := stepsOf_join hdraft.no_slash hdraft.ne_nil (q := q')
  have hstart (l : Location) : startOf (q'.join ⟨draft⟩) l = startOf p l := by
    rw [startOf, isAbsolute_join hdraft.no_slash, habs, startOf]
  have hne : p.raw.bytes ≠ [] := by
    intro hnil
    rw [hnil] at hnames
    exact List.append_ne_nil_of_right_ne_nil _ (List.cons_ne_nil _ _) hnames.symm
  obtain ⟨-, hkeep⟩ := resolve_eq_ok_iff.mp hold
  rw [hsteps, hstart] at hkeep
  obtain ⟨j, k, folder, hk, hleads, hfolder, rfl, hget⟩ := exists_of_walk_keep hdraft.toIsName hkeep
  -- Dots do not lead away, so the name of the path is looked up in the folder of the draft.
  obtain rfl : folder' = folder := by
    have hend := (hleads.dots hfolder hdots).walk k
    rw [← hk, hinit, walk_here hfolder] at hend
    exact (Spot.taken.inj (Except.ok.inj hend)).1
  refine ⟨name, folder', _, dots, j, k, n, ⟨hfault, hstart, hsteps, hnames, ?_, hdots, hname, hk,
    hleads, hfolder⟩, hget, hn, ?_⟩
  · rw [stepsOf_eq hne hslash, hnames]
  · rcases hcases with ⟨heq, rfl⟩ | ⟨hdiffer, rfl⟩
    · exact .inl ⟨(List.cons.inj heq).1, rfl⟩
    · exact .inr ⟨fun heq => hdiffer (by rw [heq]), rfl⟩

/-- The way to a path does not come over the place of another, unless both name one place: it ends
where it ended if nothing is at the other place. -/
def PassesBy (s : Store) (p other : Path) : Prop :=
  ∀ l, s.resolveName other = .ok l → s.resolveName p = .ok l ∨
    ∃ spot, s.resolve .make p = .ok spot ∧ (s.remove l).resolve .make p = .ok spot ∧ spot ≠ .free l

/-- What is written beside a path and moved there is found at the path, if the draft is not reached
over what it replaces. -/
theorem find?_move {written moved : Store} {draft : RawText} (hdraft : IsPlain draft)
    (hq : p.parent?.getD ⟨""⟩ = q) (hwrite : s.write (q.join ⟨draft⟩) b = .ok written)
    (hmove : written.moveFile (q.join ⟨draft⟩) p = .ok moved)
    (hpast : s.PassesBy (q.join ⟨draft⟩) p) : moved.find? p = some (.file b) := by
  obtain ⟨m, hfile, -, rfl⟩ := write_ok_iff.mp hwrite
  obtain ⟨spot, hspot, hfor⟩ := fileFor_ok_iff.mp hfile
  obtain ⟨name, folder, st, dots, j, k, n, hbeside, hn, hother, hcases⟩ :=
    exists_beside hdraft hq hmove
  obtain ⟨hfault, hwalk⟩ := resolve_eq_ok_iff.mp hspot
  rw [hbeside.source_steps, hbeside.start] at hwalk
  obtain ⟨hthere, hback⟩ := keepsWays_put hfor hwalk b
  have hleads := hbeside.leads.mono hback
  have hfolder := hback.folder _ hbeside.isFolder
  have hm := get?_put_self s (.file b) (hfor.ne_nil hwalk)
  suffices hfound : ∃ l, moved.walk .follow (j + k) (startOf p s.here) (st ++ dots ++ [name]) =
      .ok (.taken l (.file b)) by
    obtain ⟨l, hl⟩ := hfound
    have hhere : moved.here = s.here := by rcases hcases with ⟨-, rfl⟩ | ⟨-, rfl⟩ <;> rfl
    rw [find?, resolve_eq_ok_iff.mpr
      ⟨hbeside.fault, by rw [hbeside.target_steps, hhere, hbeside.links, hl]⟩]
  rw [hbeside.links] at hwalk
  have hlast : (s.put m (.file b)).walk .follow k folder [draft] = .ok (.taken m (.file b)) :=
    (hbeside.leads.walk_name k draft).symm.trans
      (walk_file hthere (walk_follow_of_make hwalk) hfor hm)
  rcases hcases with ⟨rfl, rfl⟩ | ⟨hdiffer, rfl⟩
  · exact ⟨m, ((hbeside.leads.dots hbeside.isFolder hbeside.all_dots).walk_name k _).trans hlast⟩
  · have hname : s.resolveName p = .ok (name :: folder) := by
      refine resolveName_ok_iff.mpr ⟨hbeside.fault, _, name, folder, hbeside.target_names, ?_,
        hbeside.isName, rfl⟩
      rw [hbeside.links]
      exact ((hleads.dots hfolder hbeside.all_dots).walk k).trans (walk_here hfolder)
    obtain hsame | ⟨spot', hspot', hpast, hfree⟩ := hpast _ hname
    · obtain ⟨-, init, last, folder', hnames, -, -, heq⟩ := resolveName_ok_iff.mp hsame
      obtain ⟨rfl, -⟩ := List.cons.inj heq
      rw [namesOf_join hdraft.no_slash hdraft.ne_nil] at hnames
      exact absurd (List.singleton_inj.mp (List.append_inj' hnames rfl).2) hdiffer
    · obtain rfl := Except.ok.inj (hspot'.symm.trans hspot)
      obtain ⟨-, hpast⟩ := resolve_eq_ok_iff.mp hpast
      rw [hbeside.source_steps, hbeside.start, hbeside.links] at hpast
      have hpast := walk_follow_of_make hpast
      cases n with
      | folder => exact absurd rfl hother
      | file c =>
          have hfile : (s.put m (.file b)).walk .follow k folder [draft] = _ :=
            (Last.file hbeside.isFolder hdraft.toIsName hn).walk k
          rw [hfile] at hlast
          obtain ⟨rfl, heq⟩ := Spot.taken.inj (Except.ok.inj hlast)
          obtain rfl := Node.file.inj heq
          exact ⟨_, walk_moved_file hbeside.isName hfolder hleads hpast hfor hbeside.all_dots⟩
      | link target =>
          have hlink : s.get? (draft :: folder) = some (.link target) := by
            rw [← hn, get?_put_of_ne]
            rintro rfl
            rw [hm] at hn
            cases hn
          exact ⟨m, walk_moved_link hdraft.toIsName hbeside.isName hdiffer hfolder hleads hpast
            hfor hfree hbeside.all_dots hlink⟩

end MdxMend.Store
