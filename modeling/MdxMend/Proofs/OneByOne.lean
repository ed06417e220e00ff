import MdxMend.CommandLine.Run
import MdxMend.Proofs.Access
import MdxMend.Proofs.PathNames

/-!
# Files, one by one

A run over files repairs one after the other, in a store that the files before have changed. What
they change are the bytes at the places they lead to, and that moves no path: every path leads
where it led (`target?_foldl`), and to the same bytes unless it leads to a file that was written
(`resolve_foldl`). So files that lead to different places know nothing of each other. Each of them,
when its turn comes, is what it was at the start, and the run is put together from what each comes
to alone.

A file that cannot be read is no exception, because it writes nothing. Nor is a file that cannot be
written, or not to its end: what is left of the new text is in that file and nowhere else. It counts
as a failure, and what would have been fixed in it is in no total.
-/

namespace MdxMend

open Text

namespace Store

/-- The texts of those of the files that can be read. -/
def texts (s : Store) (files : List Path) : List Text :=
  files.filterMap fun p => (s.readText p).toOption

/-- What has been done to those of the files whose repair goes well, if each is repaired alone. -/
def repaired (o : Options) (write : Bool) (s : Store) (files : List Path) : List FileRepaired :=
  files.filterMap fun p => (repairFile o write s p).result.toOption

variable {s s' : Store} {p q : Path} {l : Location} {n : Node} {t : Text}

theorem repaired_cons_ok {o : Options} {write : Bool} {files : List Path} {f : FileRepaired}
    (h : (repairFile o write s p).result = .ok f) :
    s.repaired o write (p :: files) = f :: s.repaired o write files := by
  rw [repaired, List.filterMap_cons, h]
  rfl

theorem repaired_cons_error {o : Options} {write : Bool} {files : List Path} {e : Failure}
    (h : (repairFile o write s p).result = .error e) :
    s.repaired o write (p :: files) = s.repaired o write files := by
  rw [repaired, List.filterMap_cons, h]
  rfl

theorem resolve_put_of_ne {a b : ByteArray} (hfile : s.get? l = some (.file a))
    (hq : s.target? q ≠ some l) : (s.put l (.file b)).resolve .follow q = s.resolve .follow q := by
  rw [resolve_put_file hfile]
  cases h : s.resolve .follow q with
  | error cause => rfl
  | ok spot =>
      cases spot with
      | free m => rfl
      | taken m n =>
          have hne : m ≠ l := fun heq => hq (target?_eq_some_iff.mpr ⟨n, heq ▸ h⟩)
          simp [Except.map, Spot.renew, hne]

theorem target?_put {a b : ByteArray} (hfile : s.get? l = some (.file a)) :
    (s.put l (.file b)).target? q = s.target? q := by
  unfold target?
  rw [resolve_put_file hfile]
  cases s.resolve .follow q with
  | error cause => rfl
  | ok spot => cases spot <;> rfl

end Store

variable {o : Options} {write : Bool} {store store' : Store} {p q : Path} {l : Location}

/-! ## The repair of one of the files -/

/-- The repair of a file leaves the store as it is, or puts other bytes into the file: the repaired
text, or the beginning of it. -/
theorem repairFile_store (o : Options) (write : Bool) (store : Store) (p : Path) :
    (repairFile o write store p).store = store ∨
      ∃ l t size, store.resolve .follow p = .ok (.taken l (.file (toBytes t))) ∧
        (repairFile o write store p).store =
          store.put l (.file ((toBytes (repair o t).text).extract 0 size)) := by
  cases htext : store.readText p with
  | error cause =>
      rw [repairFile_of_error htext]
      exact .inl rfl
  | ok t =>
      obtain ⟨l, hl, hread⟩ := Store.readText_ok_iff.mp htext
      rw [repairFile_of_text hl hread]
      dsimp only
      split
      · split
        · next fault _ =>
            cases fault with
            | refused cause => exact .inl rfl
            | cut size cause => exact .inr ⟨l, t, size, hl, rfl⟩
        · exact .inr ⟨l, t, (toBytes (repair o t).text).size, hl, by
            rw [ByteArray.extract_zero_size]⟩
      · exact .inl rfl

@[simp] theorem faults_repairFile (o : Options) (write : Bool) (store : Store) (p : Path) :
    (repairFile o write store p).store.faults = store.faults := by
  rcases repairFile_store o write store p with hsame | ⟨l, t, size, -, hput⟩
  · rw [hsame]
  · rw [hput, Store.faults_put]

theorem get?_repairFile_of_ne (h : store.target? p ≠ some l) :
    (repairFile o write store p).store.get? l = store.get? l := by
  rcases repairFile_store o write store p with hsame | ⟨m, t, size, hm, hput⟩
  · rw [hsame]
  · rw [hput, Store.get?_put_of_ne]
    rintro rfl
    exact h (Store.target?_eq_some_iff.mpr ⟨_, hm⟩)

/-- What is in a file once it is repaired. -/
theorem get?_repairFile_write {t : Text} (hwritable : store.IsWritable)
    (h : store.resolve .follow p = .ok (.taken l (.file (toBytes t))))
    (hread : store.faults.read l = none) :
    (repairFile o true store p).store.get? l = some (.file (toBytes (repair o t).text)) := by
  have hfile := Store.get?_of_resolve h
  have hne : l ≠ [] := by rintro rfl; cases hfile
  rw [repairFile_of_text h hread]
  by_cases hsame : (repair o t).text = t
  · simp [hsame, hfile]
  · simp [hsame, hwritable.write, Store.get?_put_self _ _ hne]

/-- What a repair that fails leaves in the file: what was there, or the beginning of the repaired
text if the write was cut. -/
theorem get?_repairFile_of_error {e : Failure}
    (h : (repairFile o write store p).result = .error e) (l : Location) :
    (repairFile o write store p).store.get? l = store.get? l ∨
      ∃ t size cause, store.readText p = .ok t ∧
        store.faults.write l (toBytes (repair o t).text) = some (.cut size cause) ∧
        (repairFile o write store p).store.get? l =
          some (.file ((toBytes (repair o t).text).extract 0 size)) := by
  cases htext : store.readText p with
  | error cause => exact .inl (by rw [repairFile_of_error htext])
  | ok t =>
      obtain ⟨m, hm, hread⟩ := Store.readText_ok_iff.mp htext
      have hfile := Store.get?_of_resolve hm
      have hne : m ≠ [] := by rintro rfl; cases hfile
      rw [repairFile_of_text hm hread] at h ⊢
      dsimp only at h ⊢
      by_cases hwrite : ((repair o t).text != t && write) = true
      · rw [if_pos hwrite] at h ⊢
        cases hfault : store.faults.write m (toBytes (repair o t).text) with
        | none => rw [hfault] at h; cases h
        | some fault =>
            cases fault with
            | refused cause => exact .inl rfl
            | cut size cause =>
                by_cases hl : l = m
                · subst hl
                  exact .inr ⟨t, size, cause, rfl, hfault, Store.get?_put_self _ _ hne⟩
                · exact .inl (Store.get?_put_of_ne _ _ hl)
      · rw [if_neg hwrite] at h
        cases h

theorem get?_repairFile_congr (h : store.resolve .follow p = store'.resolve .follow p)
    (hfaults : store.faults = store'.faults) (hl : store.target? p = some l) :
    (repairFile o write store p).store.get? l = (repairFile o write store' p).store.get? l := by
  obtain ⟨n, hn⟩ := Store.target?_eq_some_iff.mp hl
  have hget : store.get? l = store'.get? l := by
    rw [Store.get?_of_resolve hn, Store.get?_of_resolve (h ▸ hn)]
  have hread := Store.readText_congr h hfaults
  cases htext : store.readText p with
  | error cause => rw [repairFile_of_error htext, repairFile_of_error (hread ▸ htext), hget]
  | ok t =>
      obtain ⟨m, hm, hfault⟩ := Store.readText_ok_iff.mp htext
      have hfile := Store.get?_of_resolve hm
      have hne : m ≠ [] := by rintro rfl; cases hfile
      obtain rfl : l = m := by
        rw [hm] at hn
        simp only [Except.ok.injEq, Store.Spot.taken.injEq] at hn
        exact hn.1.symm
      have hput (b : ByteArray) :
          (store.put l (.file b)).get? l = (store'.put l (.file b)).get? l := by
        rw [Store.get?_put_self _ _ hne, Store.get?_put_self _ _ hne]
      rw [repairFile_of_text hm hfault, repairFile_of_text (h ▸ hm) (hfaults ▸ hfault), hfaults]
      dsimp only
      split
      · split
        · next fault _ =>
            cases fault with
            | refused cause => exact hget
            | cut size cause => exact hput _
        · exact hput _
      · exact hget

theorem resolve_repairFile (h : ∀ l, store.target? p = some l → store.target? q ≠ some l) :
    (repairFile o write store p).store.resolve .follow q = store.resolve .follow q := by
  rcases repairFile_store o write store p with hsame | ⟨l, t, size, hl, hput⟩
  · rw [hsame]
  · rw [hput, Store.resolve_put_of_ne (Store.get?_of_resolve hl)]
    exact h l (Store.target?_eq_some_iff.mpr ⟨_, hl⟩)

theorem target?_repairFile : (repairFile o write store p).store.target? q = store.target? q := by
  rcases repairFile_store o write store p with hsame | ⟨l, t, size, hl, hput⟩
  · rw [hsame]
  · rw [hput, Store.target?_put (Store.get?_of_resolve hl)]

/-- Where no write goes wrong, what can be read can be repaired. -/
theorem repairFile_error_iff (hwritable : store.IsWritable) :
    (∃ e, (repairFile o write store p).result = .error e) ↔
      ∃ cause, store.readText p = .error cause := by
  cases htext : store.readText p with
  | error cause => simp [repairFile_of_error htext]
  | ok t =>
      rw [hwritable.repairFile_ok o write htext]
      simp

theorem tallies_repaired (hwritable : store.IsWritable) (o : Options) (write : Bool)
    (files : List Path) :
    (store.repaired o write files).map FileRepaired.tally =
      (store.texts files).map fun t => (repair o t).tally := by
  rw [Store.repaired, Store.texts, List.map_filterMap, List.map_filterMap]
  congr 1
  funext p
  cases htext : store.readText p with
  | error cause =>
      rw [repairFile_of_error htext]
      rfl
  | ok t =>
      rw [hwritable.repairFile_ok o write htext]
      rfl

/-! ## The run -/

namespace CommandLine

open FilesRun

variable {r : FilesRun} {files : List Path}

@[simp] theorem FilesRun.store_next (r : FilesRun) (p : Path) :
    (next o write r p).store = (repairFile o write r.store p).store := by
  unfold next
  dsimp only
  split <;> rfl

@[simp] theorem faults_foldl (files : List Path) (r : FilesRun) :
    (files.foldl (next o write) r).store.faults = r.store.faults := by
  induction files generalizing r with
  | nil => rfl
  | cons p files ih => rw [List.foldl_cons, ih, store_next, faults_repairFile]

theorem target?_foldl (files : List Path) (r : FilesRun) :
    (files.foldl (next o write) r).store.target? q = r.store.target? q := by
  induction files generalizing r with
  | nil => rfl
  | cons p files ih => rw [List.foldl_cons, ih, store_next, target?_repairFile]

/-- Where a path leads is as it was while files at other places are repaired. -/
theorem resolve_foldl {r : FilesRun}
    (h : ∀ p ∈ files, ∀ l, r.store.target? p = some l → r.store.target? q ≠ some l) :
    (files.foldl (next o write) r).store.resolve .follow q = r.store.resolve .follow q := by
  induction files generalizing r with
  | nil => rfl
  | cons p files ih =>
      have hnext : (next o write r p).store.resolve .follow q = r.store.resolve .follow q := by
        rw [store_next]
        exact resolve_repairFile (h p List.mem_cons_self)
      -- The files behind `p` still lead to other places, since the repair of `p` moves no path.
      rw [List.foldl_cons, ih, hnext]
      intro p' hp'
      simp only [store_next, target?_repairFile]
      exact h p' (List.mem_cons_of_mem p hp')

theorem get?_foldl {r : FilesRun} (h : ∀ p ∈ files, r.store.target? p ≠ some l) :
    (files.foldl (next o write) r).store.get? l = r.store.get? l := by
  induction files generalizing r with
  | nil => rfl
  | cons p files ih =>
      rw [List.foldl_cons, ih, store_next, get?_repairFile_of_ne (h p List.mem_cons_self)]
      intro p' hp'
      rw [store_next, target?_repairFile]
      exact h p' (List.mem_cons_of_mem p hp')

/-- Files that lead to different places. -/
theorem ne_target_of_nodup {before after : List Path}
    (h : ((before ++ p :: after).filterMap store.target?).Nodup) (hl : store.target? p = some l) :
    (∀ q ∈ before, store.target? q ≠ some l) ∧ ∀ q ∈ after, store.target? q ≠ some l := by
  rw [List.filterMap_append, List.filterMap_cons_some hl, List.nodup_append] at h
  obtain ⟨-, hafter, hdisjoint⟩ := h
  refine ⟨fun q hq heq => ?_, fun q hq heq => ?_⟩
  · exact hdisjoint l (List.mem_filterMap.mpr ⟨q, hq, heq⟩) l List.mem_cons_self rfl
  · exact (List.nodup_cons.mp hafter).1 (List.mem_filterMap.mpr ⟨q, hq, heq⟩)

/-- What is counted for one more file. -/
theorem FilesRun.counts_next (o : Options) (write : Bool) (r : FilesRun) (p : Path) :
    (∀ f, (repairFile o write r.store p).result = .ok f →
      (next o write r p).totals = r.totals.merge f.tally ∧
      (next o write r p).changed = r.changed + (if f.changed then 1 else 0) ∧
      (next o write r p).failures = r.failures) ∧
    ∀ e, (repairFile o write r.store p).result = .error e →
      (next o write r p).totals = r.totals ∧ (next o write r p).changed = r.changed ∧
      (next o write r p).failures = r.failures + 1 := by
  refine ⟨fun f hf => ?_, fun e he => ?_⟩
  · unfold next
    dsimp only
    rw [hf]
    cases hc : f.changed <;> simp [hc]
  · unfold next
    dsimp only
    rw [he]
    exact ⟨rfl, rfl, rfl⟩

/-- What is counted in a run in which each file comes to what it comes to in `store`. -/
theorem counts_foldl {files : List Path} {r : FilesRun}
    (hmet : ∀ before p after, files = before ++ p :: after →
      (repairFile o write (before.foldl (next o write) r).store p).result =
        (repairFile o write store p).result) :
    (files.foldl (next o write) r).totals =
        (store.repaired o write files).foldl (fun tally f => tally.merge f.tally) r.totals ∧
      (files.foldl (next o write) r).changed =
        r.changed + (store.repaired o write files).countP (·.changed) ∧
      (files.foldl (next o write) r).failures =
        r.failures +
          files.countP (fun p => (repairFile o write store p).result.toOption.isNone) := by
  induction files generalizing r with
  | nil => exact ⟨rfl, rfl, rfl⟩
  | cons p files ih =>
      -- What is known of the files behind `p` is known for the run as it is behind `p`.
      have hhead : (repairFile o write r.store p).result = (repairFile o write store p).result :=
        hmet [] p files rfl
      obtain ⟨htotals, hchanged, hfailures⟩ := ih (r := next o write r p)
        fun before q after h => hmet (p :: before) q after (by rw [h]; rfl)
      rw [List.foldl_cons, htotals, hchanged, hfailures, List.countP_cons]
      cases hresult : (repairFile o write store p).result with
      | ok f =>
          obtain ⟨ht, hc, hf⟩ := (counts_next o write r p).1 f (hhead.trans hresult)
          rw [ht, hc, hf, Store.repaired_cons_ok hresult, List.foldl_cons, List.countP_cons]
          refine ⟨rfl, by omega, by simp [Except.toOption]⟩
      | error e =>
          obtain ⟨ht, hc, hf⟩ := (counts_next o write r p).2 e (hhead.trans hresult)
          rw [ht, hc, hf, Store.repaired_cons_error hresult]
          refine ⟨rfl, rfl, ?_⟩
          simp only [Except.toOption, Option.isNone_none, if_true]
          omega

/-- Each of the files comes to what it would come to alone. -/
structure FilesRun.EachAlone (o : Options) (write : Bool) (store : Store) (files : List Path)
    (r : FilesRun) : Prop where
  /-- When a file's turn comes, what is found out about it and what is logged is what it would be
  if the run were about this file only. -/
  turn : ∀ before p after, files = before ++ p :: after →
    (repairFile o write (repairFiles o write store before).store p).result =
        (repairFile o write store p).result ∧
      (repairFile o write (repairFiles o write store before).store p).log =
        (repairFile o write store p).log
  /-- In the end its contents are what they would be then. -/
  contents : ∀ p ∈ files, ∀ l, store.target? p = some l →
    r.store.get? l = (repairFile o write store p).store.get? l
  /-- A file that fails is left as it is, unless it was read and then only a part of the repaired
  text could be written. -/
  failing : ∀ p ∈ files, ∀ e, (repairFile o write store p).result = .error e →
    ∀ l, store.target? p = some l → r.store.get? l = store.get? l ∨
      ∃ t size cause, store.readText p = .ok t ∧
        store.faults.write l (toBytes (repair o t).text) = some (.cut size cause) ∧
        r.store.get? l = some (.file ((toBytes (repair o t).text).extract 0 size))
  /-- Nothing else is touched. -/
  elsewhere : ∀ l, (∀ p ∈ files, store.target? p ≠ some l) → r.store.get? l = store.get? l
  /-- The totals are those of the files that do not fail. -/
  totals : r.totals =
    (store.repaired o write files).foldl (fun tally f => tally.merge f.tally) .empty

section Apart

variable (o : Options) (write : Bool) {files : List Path}
  (h : (files.filterMap store.target?).Nodup)

include h

/-- A file is met as it was at the start. -/
theorem resolve_met {before after : List Path} {p : Path} (hfiles : files = before ++ p :: after) :
    (repairFiles o write store before).store.resolve .follow p = store.resolve .follow p := by
  subst hfiles
  exact resolve_foldl fun q hq l hl heq => (ne_target_of_nodup h heq).1 q hq hl

omit h in
theorem faults_repairFiles (files : List Path) :
    (repairFiles o write store files).store.faults = store.faults := faults_foldl files _

theorem contents_repairFiles {p : Path} (hp : p ∈ files) {l : Location}
    (hl : store.target? p = some l) :
    (repairFiles o write store files).store.get? l =
      (repairFile o write store p).store.get? l := by
  obtain ⟨before, after, hfiles⟩ := List.append_of_mem hp
  have hmet := resolve_met o write h hfiles
  subst hfiles
  have hafter := (ne_target_of_nodup h hl).2
  rw [repairFiles, List.foldl_append, List.foldl_cons, get?_foldl, store_next]
  · exact (get?_repairFile_congr hmet.symm (faults_repairFiles o write before).symm hl).symm
  · intro q hq
    rw [store_next, target?_repairFile, target?_foldl]
    exact hafter q hq

theorem counts_repairFiles :
    (repairFiles o write store files).totals =
        (store.repaired o write files).foldl (fun tally f => tally.merge f.tally) .empty ∧
      (repairFiles o write store files).changed =
        (store.repaired o write files).countP (·.changed) ∧
      (repairFiles o write store files).failures =
        files.countP (fun p => (repairFile o write store p).result.toOption.isNone) := by
  have hcounts := counts_foldl (r := { store }) fun before p after hfiles =>
    (repairFile_congr (resolve_met o write h hfiles) (faults_repairFiles o write before)).1
  simp only [Nat.zero_add] at hcounts
  exact hcounts

theorem failing_repairFiles {p : Path} (hp : p ∈ files) {e : Failure}
    (he : (repairFile o write store p).result = .error e) {l : Location}
    (hl : store.target? p = some l) :
    (repairFiles o write store files).store.get? l = store.get? l ∨
      ∃ t size cause, store.readText p = .ok t ∧
        store.faults.write l (toBytes (repair o t).text) = some (.cut size cause) ∧
        (repairFiles o write store files).store.get? l =
          some (.file ((toBytes (repair o t).text).extract 0 size)) := by
  rw [contents_repairFiles o write h hp hl]
  exact get?_repairFile_of_error he l

theorem eachAlone_repairFiles :
    (repairFiles o write store files).EachAlone o write store files where
  turn before _ _ hfiles :=
    repairFile_congr (resolve_met o write h hfiles) (faults_repairFiles o write before)
  contents _ hp _ hl := contents_repairFiles o write h hp hl
  failing _ hp _ he _ hl := failing_repairFiles o write h hp he hl
  elsewhere _ hl := get?_foldl hl
  totals := (counts_repairFiles o write h).1

end Apart

/-- The exit code tells apart what happened, failures first. -/
theorem FilesRun.exit_iff (check : Bool) (r : FilesRun) :
    (r.exit check = failed ↔ 0 < r.failures) ∧
      (r.exit check = needsFixes ↔ r.failures = 0 ∧ check = true ∧ 0 < r.changed) ∧
      (r.exit check = success ↔ r.failures = 0 ∧ ¬ (check = true ∧ 0 < r.changed)) := by
  unfold exit failed needsFixes success
  by_cases hfail : r.failures > 0
  · simp [hfail, Nat.ne_of_gt hfail]
  · have hnone : r.failures = 0 := by omega
    by_cases hcheck : check = true ∧ 0 < r.changed
    · simp [hnone, hcheck]
    · simp only [hnone, gt_iff_lt, Nat.lt_irrefl, if_false, Bool.and_eq_true, decide_eq_true_eq,
        hcheck]
      simp

theorem failures_eq_zero_iff {files : List Path} :
    files.countP (fun p => (repairFile o write store p).result.toOption.isNone) = 0 ↔
      ∀ p ∈ files, ∃ f, (repairFile o write store p).result = .ok f := by
  rw [List.countP_eq_zero]
  refine forall₂_congr fun p _ => ?_
  cases (repairFile o write store p).result <;> simp [Except.toOption]

theorem pos_failures_iff {files : List Path} :
    0 < files.countP (fun p => (repairFile o write store p).result.toOption.isNone) ↔
      ∃ p ∈ files, ∃ e, (repairFile o write store p).result = .error e := by
  rw [List.countP_pos_iff]
  refine exists_congr fun p => and_congr_right fun _ => ?_
  cases (repairFile o write store p).result <;> simp [Except.toOption]

/-- Files of which none fails are changed if the text of one of them is. -/
theorem pos_changed_iff {files : List Path}
    (h : ∀ p ∈ files, ∃ f, (repairFile o write store p).result = .ok f) :
    0 < (store.repaired o write files).countP (·.changed) ↔
      ∃ p ∈ files, ∃ t, store.readText p = .ok t ∧ (repair o t).text ≠ t := by
  simp only [List.countP_pos_iff, Store.repaired, List.mem_filterMap]
  constructor
  · rintro ⟨f, ⟨p, hp, hf⟩, hchanged⟩
    obtain ⟨f', hf'⟩ := h p hp
    rw [hf'] at hf
    obtain rfl := Option.some.inj hf
    obtain ⟨t, ht, rfl⟩ := exists_of_repairFile_ok hf'
    exact ⟨p, hp, t, ht, by simpa using hchanged⟩
  · rintro ⟨p, hp, t, ht, hne⟩
    obtain ⟨f, hf⟩ := h p hp
    obtain ⟨t', ht', rfl⟩ := exists_of_repairFile_ok hf
    obtain rfl := Except.ok.inj (ht.symm.trans ht')
    exact ⟨_, ⟨p, hp, by rw [hf]; rfl⟩, by simpa using hne⟩

/-- The names of two files that lie here. -/
theorem isPlain_ab : Path.IsPlain "a.md" ∧ Path.IsPlain "b.md" :=
  ⟨⟨⟨by decide, by decide, by decide⟩, by decide, by decide⟩,
    ⟨⟨by decide, by decide, by decide⟩, by decide, by decide⟩⟩

end CommandLine

end MdxMend
