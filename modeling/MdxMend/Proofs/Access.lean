import MdxMend.FileRepair
import MdxMend.Proofs.Ways

/-!
# Reading and writing through paths

A path leads to a place, and reading and writing are about what is there and what goes wrong there.
A path to a file that can be read leads there for writing too (`resolve_make_of_file`), because a
path that leads to a file does not ask for a folder at its end. Writing it, or a part of it, leaves
every path leading where it led (`resolve_put_file`), so the repair of a file depends on what is
read there, on the faults of the place, and on nothing else in the store (`repairFile_congr`).
-/

namespace MdxMend

open Text

theorem Text.toBytes_of_ofBytes? {b : ByteArray} {t : Text} (h : ofBytes? b = some t) :
    toBytes t = b := by
  obtain ⟨s, hs, rfl⟩ := Option.map_eq_some_iff.mp h
  unfold String.fromUTF8? at hs
  split at hs
  · obtain rfl := Option.some.inj hs
    rw [toBytes, String.ofList_toList]
    rfl
  · cases hs

namespace Store

variable {s s' : Store} {purpose : Purpose} {p q : Path} {d l m : Location} {n : Node}
  {a b : ByteArray} {spot : Spot} {t : Text} {j k : Nat} {st r : List RawText}

@[simp] theorem faults_put (s : Store) (l : Location) (n : Node) : (s.put l n).faults = s.faults :=
  rfl

theorem resolve_eq_ok_iff :
    s.resolve purpose p = .ok spot ↔
      pathFault? p = none ∧ s.walk purpose maxLinks (startOf p s.here) (stepsOf p) = .ok spot := by
  unfold resolve
  cases pathFault? p <;> simp

/-- The location of what a path leads to. -/
def target? (s : Store) (p : Path) : Option Location :=
  match s.resolve .follow p with
  | .ok (.taken l _) => some l
  | _ => none

theorem target?_eq_some_iff :
    s.target? p = some l ↔ ∃ n, s.resolve .follow p = .ok (.taken l n) := by
  unfold target?
  split <;> simp_all

/-! ## What is read -/

theorem readText_of_file (h : s.resolve .follow p = .ok (.taken l (.file b)))
    (hread : s.faults.read l = none) :
    s.readText p = (match ofBytes? b with | some t => .ok t | none => .error .notText) := by
  cases htext : ofBytes? b <;> simp [readText, h, hread, htext, bind, Except.bind]

theorem readText_ok_iff :
    s.readText p = .ok t ↔ ∃ l, s.resolve .follow p = .ok (.taken l (.file (toBytes t))) ∧
      s.faults.read l = none := by
  constructor
  · intro h
    unfold readText at h
    cases hspot : s.resolve .follow p with
    | error cause =>
        rw [hspot] at h
        cases h
    | ok spot =>
        rw [hspot] at h
        cases spot with
        | free l => cases h
        | taken l n =>
            simp only [bind, Except.bind] at h
            split at h
            · cases h
            · cases h
            · cases h
            · next hread =>
                cases htext : ofBytes? _ with
                | none =>
                    rw [htext] at h
                    cases h
                | some u =>
                    rw [htext] at h
                    obtain rfl := Except.ok.inj h
                    rw [toBytes_of_ofBytes? htext]
                    exact ⟨l, rfl, hread⟩
  · rintro ⟨l, h, hread⟩
    rw [readText_of_file h hread, ofBytes?_toBytes]

theorem readText_congr (h : s.resolve .follow p = s'.resolve .follow q)
    (hfaults : s.faults = s'.faults) : s.readText p = s'.readText q := by
  rw [readText, h, hfaults, readText]

/-! ## What is written -/

theorem fileFor_ok_iff :
    s.fileFor p = .ok m ↔ ∃ spot, s.resolve .make p = .ok spot ∧ spot.IsFor m := by
  unfold fileFor
  cases hspot : s.resolve .make p with
  | error cause => simp [bind, Except.bind]
  | ok spot =>
      cases spot with
      | free l => simp [bind, Except.bind, Spot.IsFor, eq_comm]
      | taken l n => cases n <;> simp [bind, Except.bind, Spot.IsFor, eq_comm]

theorem write_of_fileFor (h : s.fileFor p = .ok m) :
    s.write p b = match s.faults.write m b with
      | some fault => .error fault.cause
      | none => .ok (s.put m (.file b)) := by
  rw [write, h]
  rfl

theorem torn_of_fileFor (h : s.fileFor p = .ok m) :
    s.torn p b = match s.faults.write m b with
      | some fault => s.spoil m b fault
      | none => s := by
  unfold torn
  rewrite [h]
  rfl

theorem write_ok_iff :
    s.write p b = .ok s' ↔
      ∃ m, s.fileFor p = .ok m ∧ s.faults.write m b = none ∧ s' = s.put m (.file b) := by
  cases hfile : s.fileFor p with
  | error cause => simp [write, hfile, bind, Except.bind]
  | ok m =>
      rw [write_of_fileFor hfile]
      cases hfault : s.faults.write m b <;> simp [hfault, eq_comm]

/-- No write goes wrong. -/
structure IsWritable (s : Store) : Prop where
  write : ∀ l b, s.faults.write l b = none

theorem IsWritable.torn_eq (h : s.IsWritable) (p : Path) (b : ByteArray) : s.torn p b = s := by
  cases hfile : s.fileFor p with
  | error cause => rw [torn, hfile]
  | ok m => rw [torn_of_fileFor hfile, h.write]

/-- What a write leaves that fails is what was there, or a file with the beginning of what was to be
written. -/
theorem torn_cases (s : Store) (p : Path) (b : ByteArray) :
    s.torn p b = s ∨
      ∃ m size, s.fileFor p = .ok m ∧ s.torn p b = s.put m (.file (b.extract 0 size)) := by
  cases hfile : s.fileFor p with
  | error cause => exact .inl (by rw [torn, hfile])
  | ok m =>
      rw [torn_of_fileFor hfile]
      cases s.faults.write m b with
      | none => exact .inl rfl
      | some fault =>
          cases fault with
          | refused cause => exact .inl rfl
          | cut size cause => exact .inr ⟨m, size, rfl, rfl⟩

/-- A path with a slash at its end leads to a folder or nowhere. -/
theorem folder_of_walk_slash (h : s.walk purpose k l (st ++ [slashStep]) = .ok spot) :
    ∃ m, spot = .taken m .folder := by
  obtain ⟨j, k', m, rfl, -, hm, hend⟩ := exists_leads_append h (by simp)
  rw [walk_stay hm rfl, walk_here hm] at hend
  exact ⟨m, (Except.ok.inj hend).symm⟩

theorem Leads.make (h : Leads s .follow j l st m r)
    (hlast : Last s .follow m r (.taken d (.file b))) : Leads s .make j l st m r := by
  -- Only a name in front of a last slash is treated otherwise, and the end is not a folder.
  have hslash {i : Nat} {w : List RawText} {p : Location} (hw : Leads s .follow i p w m r) :
      ∀ u, w ≠ u ++ [slashStep] := by
    rintro u rfl
    have hwalk := (hw.walk 0).trans (hlast.walk 0)
    obtain ⟨_, hfolder⟩ := folder_of_walk_slash hwalk
    cases hfolder
  induction h with
  | refl l st => exact .refl l st
  | stay hl hname _ ih => exact .stay hl hname (ih hlast hslash)
  | up hl _ ih => exact .up hl (ih hlast hslash)
  | down hl hname _ hn h ih => exact .down hl hname (fun _ => hslash h []) hn (ih hlast hslash)
  | link hl hname _ _ hn h ih =>
      refine .link hl hname (fun _ hst => ?_) (by simp) hn (ih hlast hslash)
      exact hslash h _ (by rw [hst])

/-- A file that can be read can be written in its place. -/
theorem resolve_make_of_file (h : s.resolve .follow p = .ok (.taken l (.file b))) :
    s.resolve .make p = .ok (.taken l (.file b)) := by
  obtain ⟨hfault, hwalk⟩ := resolve_eq_ok_iff.mp h
  obtain ⟨j, k, m, r, hk, hleads, hlast⟩ := exists_leads_last hwalk
  have hlast' : Last s .make m r (.taken l (.file b)) := by
    cases hlast with
    | here hl => exact .here hl
    | file hl hname hn => exact .file hl hname hn
  rw [resolve_eq_ok_iff, hk, (hleads.make hlast).walk]
  exact ⟨hfault, hlast'.walk k⟩

theorem fileFor_of_file (h : s.resolve .follow p = .ok (.taken l (.file a))) :
    s.fileFor p = .ok l :=
  fileFor_ok_iff.mpr ⟨_, resolve_make_of_file h, .inl ⟨a, rfl⟩⟩

theorem resolve_put_file (hfile : s.get? m = some (.file a)) (b : ByteArray) :
    (s.put m (.file b)).resolve purpose p = (s.resolve purpose p).map (Spot.renew m b) := by
  unfold resolve
  cases pathFault? p with
  | some cause => rfl
  | none => exact walk_put_file hfile b

theorem get?_of_resolve (h : s.resolve purpose p = .ok (.taken l n)) : s.get? l = some n :=
  get?_of_walk (resolve_eq_ok_iff.mp h).2

end Store

/-! ## The repair of a file -/

variable {o : Options} {write : Bool} {store store' : Store} {p : Path} {l : Location} {t : Text}

/-- The repair of a file, by what is read: the text that is written, if any is, and what is left of
it if that goes wrong. -/
theorem repairFile_of_text (h : store.resolve .follow p = .ok (.taken l (.file (toBytes t))))
    (hread : store.faults.read l = none) :
    repairFile o write store p =
      let r := repair o t
      let bytes := toBytes r.text
      if r.text != t && write then
        match store.faults.write l bytes with
        | some fault => ⟨.error (.write p.text fault.cause), store.spoil l bytes fault, r.log⟩
        | none =>
          ⟨.ok ⟨p, r.tally, r.text != t, true⟩, store.put l (.file bytes),
            r.log ++ [.info .file ("Fixed " ++ (p.text ++ ": " ++ r.tally.summary))]⟩
      else
        ⟨.ok ⟨p, r.tally, r.text != t, false⟩, store,
          r.log ++ [.debug .file (p.text ++ ": " ++ r.tally.summary)]⟩ := by
  have hfile := Store.fileFor_of_file h
  unfold repairFile
  rw [Store.readText_ok_iff.mpr ⟨l, h, hread⟩]
  simp only [Store.write_of_fileFor hfile, Store.torn_of_fileFor hfile]
  split
  · cases store.faults.write l (toBytes (repair o t).text) <;> rfl
  · rfl

theorem repairFile_of_error {cause : IoCause} (h : store.readText p = .error cause) :
    repairFile o write store p = ⟨.error (.read p.text cause), store, []⟩ := by
  rw [repairFile, h]

/-- What a file comes to depends on what is read there, wherever else two stores differ that have
the same faults. -/
theorem repairFile_congr (h : store.resolve .follow p = store'.resolve .follow p)
    (hfaults : store.faults = store'.faults) :
    (repairFile o write store p).result = (repairFile o write store' p).result ∧
      (repairFile o write store p).log = (repairFile o write store' p).log := by
  have hread := Store.readText_congr h hfaults
  cases htext : store.readText p with
  | error cause =>
      rw [repairFile_of_error htext, repairFile_of_error (hread ▸ htext)]
      exact ⟨rfl, rfl⟩
  | ok t =>
      obtain ⟨l, hl, hfault⟩ := Store.readText_ok_iff.mp htext
      rw [repairFile_of_text hl hfault, repairFile_of_text (h ▸ hl) (hfaults ▸ hfault), hfaults]
      dsimp only
      split
      · split <;> exact ⟨rfl, rfl⟩
      · exact ⟨rfl, rfl⟩

/-- Where no write goes wrong, the repair of a file that can be read goes well. -/
theorem Store.IsWritable.repairFile_ok (hwritable : store.IsWritable) (o : Options) (write : Bool)
    (htext : store.readText p = .ok t) :
    (repairFile o write store p).result =
      .ok ⟨p, (repair o t).tally, (repair o t).text != t, (repair o t).text != t && write⟩ := by
  obtain ⟨l, hl, hread⟩ := Store.readText_ok_iff.mp htext
  rw [repairFile_of_text hl hread]
  dsimp only
  split
  · next hchange => rw [hwritable.write, hchange]
  · next hsame => rw [Bool.eq_false_iff.mpr hsame]

/-- A repair that goes well has read a text, and finds out what the repair of the text comes to. -/
theorem exists_of_repairFile_ok {f : FileRepaired}
    (h : (repairFile o write store p).result = .ok f) :
    ∃ t, store.readText p = .ok t ∧
      f = ⟨p, (repair o t).tally, (repair o t).text != t, (repair o t).text != t && write⟩ := by
  cases htext : store.readText p with
  | error cause =>
      rw [repairFile_of_error htext] at h
      cases h
  | ok t =>
      obtain ⟨l, hl, hread⟩ := Store.readText_ok_iff.mp htext
      refine ⟨t, rfl, ?_⟩
      rw [repairFile_of_text hl hread] at h
      dsimp only at h
      split at h
      · next hchange =>
          split at h
          · cases h
          · rw [hchange]
            exact (Except.ok.inj h).symm
      · next hsame =>
          rw [Bool.eq_false_iff.mpr hsame]
          exact (Except.ok.inj h).symm

end MdxMend
