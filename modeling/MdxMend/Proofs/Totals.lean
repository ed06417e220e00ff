import MdxMend.Proofs.Counting
import MdxMend.Proofs.OneByOne

/-!
# Totals of a run

The tally of a repair names active rules only (`repair_names`), and like all that is recorded it is
known by its counts, so it does not matter in which order tallies are merged.

That the totals of a run over files do not depend on the order of the files takes more, because a
run that writes changes what the files behind will find. Two files that lead to different places do
not see each other. Two names of one file do; but they are read alike and written alike, so
whichever comes first is the first repair of the file, and the other one the second. Changing places
with the next file therefore leaves totals and all that can be read as they are (`next_next`), and
every order comes about by such changes.
-/

namespace MdxMend

open Text

/-! ## The tally of a repair -/

theorem Tally.Recorded.repair (o : Options) (t : Text) : (repair o t).tally.Recorded := by
  refine (Progress.stepwise_tally Recorded).repair (fun r _ p h => ?_) t .empty
  rw [r.apply_tally]
  exact h.record _ _

/-- Only active rules are named in the tally of a repair. -/
theorem repair_names (o : Options) (t : Text) :
    ∀ c ∈ (repair o t).tally.byRule, ∃ r ∈ o.activeRules, r.name = c.1 := by
  refine (Progress.stepwise_tally fun tally =>
    ∀ c ∈ tally.byRule, ∃ r ∈ o.activeRules, r.name = c.1).repair (fun r hr p h => ?_) t
      fun c hc => absurd hc List.not_mem_nil
  rw [r.apply_tally]
  intro c hc
  unfold Tally.record at hc
  split at hc
  · exact h c hc
  · rcases Tally.name_addCount r.name _ c hc with hname | ⟨d, hd, hname⟩
    · exact ⟨r, hr, hname.symm⟩
    · rw [← hname]
      exact h d hd

/-! ## The repair of one file -/

section File

variable {o : Options} {write : Bool} {store store' : Store} {p q x : Path} {l : Location}

/-- What is fixed in the file at a path; nothing if its repair fails. -/
def Store.fixesAt (o : Options) (write : Bool) (store : Store) (p : Path) : Tally :=
  match (repairFile o write store p).result with
  | .ok f => f.tally
  | .error _ => .empty

theorem Store.sound_fixesAt (o : Options) (write : Bool) (store : Store) (p : Path) :
    (fixesAt o write store p).Sound := by
  unfold fixesAt
  split
  · next h =>
      obtain ⟨t, -, rfl⟩ := exists_of_repairFile_ok h
      exact Tally.Sound.repair o t
  · exact Tally.sound_empty

theorem Store.fixesAt_congr (h : store.resolve .follow p = store'.resolve .follow q)
    (hfaults : store.faults = store'.faults) :
    fixesAt o write store p = fixesAt o write store' q := by
  have hread := readText_congr h hfaults
  unfold fixesAt
  cases htext : store.readText p with
  | error cause => rw [repairFile_of_error htext, repairFile_of_error (hread ▸ htext)]
  | ok t =>
      obtain ⟨l, hl, hfault⟩ := readText_ok_iff.mp htext
      rw [repairFile_of_text hl hfault, repairFile_of_text (h ▸ hl) (hfaults ▸ hfault), hfaults]
      dsimp only
      by_cases hwrite : ((repair o t).text != t && write) = true
      · rw [if_pos hwrite, if_pos hwrite]
        cases store'.faults.write l (toBytes (repair o t).text) <;> rfl
      · rw [if_neg hwrite, if_neg hwrite]

theorem Store.resolve_of_target? (hp : store.target? p = some l) (hq : store.target? q = some l) :
    store.resolve .follow p = store.resolve .follow q := by
  obtain ⟨m, hm⟩ := target?_eq_some_iff.mp hp
  obtain ⟨n, hn⟩ := target?_eq_some_iff.mp hq
  have hsame : m = n := Option.some.inj ((get?_of_resolve hm).symm.trans (get?_of_resolve hn))
  rw [hm, hn, hsame]

/-- Two names of one file are repaired to the same store. -/
theorem repairFile_store_congr (h : store.resolve .follow p = store.resolve .follow q) :
    (repairFile o write store p).store = (repairFile o write store q).store := by
  have hread := Store.readText_congr h rfl
  cases htext : store.readText p with
  | error cause => rw [repairFile_of_error htext, repairFile_of_error (hread ▸ htext)]
  | ok t =>
      obtain ⟨l, hl, hfault⟩ := Store.readText_ok_iff.mp htext
      rw [repairFile_of_text hl hfault, repairFile_of_text (h ▸ hl) hfault]
      dsimp only
      split
      · cases store.faults.write l (toBytes (repair o t).text) <;> rfl
      · rfl

/-- Where a path leads once a file is repaired is known from where it leads and what the file is. -/
theorem resolve_repairFile_congr (hp : store.resolve .follow p = store'.resolve .follow p)
    (hx : store.resolve .follow x = store'.resolve .follow x)
    (hfaults : store.faults = store'.faults) :
    (repairFile o write store p).store.resolve .follow x =
      (repairFile o write store' p).store.resolve .follow x := by
  have hread := Store.readText_congr hp hfaults
  cases htext : store.readText p with
  | error cause => rw [repairFile_of_error htext, repairFile_of_error (hread ▸ htext), hx]
  | ok t =>
      obtain ⟨l, hl, hfault⟩ := Store.readText_ok_iff.mp htext
      have hl' := hp ▸ hl
      have hput (b : ByteArray) : (store.put l (.file b)).resolve .follow x =
          (store'.put l (.file b)).resolve .follow x := by
        rw [Store.resolve_put_file (Store.get?_of_resolve hl),
          Store.resolve_put_file (Store.get?_of_resolve hl'), hx]
      rw [repairFile_of_text hl hfault, repairFile_of_text hl' (hfaults ▸ hfault), hfaults]
      dsimp only
      split
      · split
        · next fault _ =>
            cases fault with
            | refused cause => exact hx
            | cut size cause => exact hput _
        · exact hput _
      · exact hx

/-- The paths do not lead to the same place. -/
def Store.Apart (store : Store) (p q : Path) : Prop :=
  ∀ l, store.target? p = some l → store.target? q ≠ some l

theorem Store.not_apart_iff :
    ¬ store.Apart p q ↔ ∃ l, store.target? p = some l ∧ store.target? q = some l := by
  simp [Apart]

theorem Store.Apart.symm (h : store.Apart p q) : store.Apart q p :=
  fun l hq hp => h l hp hq

/-- Of two files apart, one that a third path does not lead to makes no difference to that path,
before the other or behind it. -/
theorem resolve_apart (o : Options) (write : Bool) (hpq : store.Apart p q)
    (hx : store.Apart q x) :
    (repairFile o write (repairFile o write store p).store q).store.resolve .follow x =
        (repairFile o write store p).store.resolve .follow x ∧
      (repairFile o write (repairFile o write store q).store p).store.resolve .follow x =
        (repairFile o write store p).store.resolve .follow x := by
  constructor
  · refine resolve_repairFile fun l hq => ?_
    rw [target?_repairFile] at hq ⊢
    exact hx l hq
  · exact resolve_repairFile_congr (resolve_repairFile hpq.symm) (resolve_repairFile hx)
      (faults_repairFile o write store q)

/-- Files apart may be repaired in either order. -/
theorem resolve_repairFile_comm (hpq : store.Apart p q) (x : Path) :
    (repairFile o write (repairFile o write store p).store q).store.resolve .follow x =
      (repairFile o write (repairFile o write store q).store p).store.resolve .follow x := by
  by_cases hx : store.Apart q x
  · obtain ⟨hforth, hback⟩ := resolve_apart o write hpq hx
    rw [hforth, hback]
  · -- The path leads to the second file, and so not to the first.
    have hx' : store.Apart p x := by
      obtain ⟨l, hq, hxl⟩ := Store.not_apart_iff.mp hx
      intro m hp hxm
      obtain rfl : l = m := Option.some.inj (hxl.symm.trans hxm)
      exact hpq l hp hq
    obtain ⟨hforth, hback⟩ := resolve_apart o write hpq.symm hx'
    rw [hforth, hback]

end File

/-! ## The run -/

namespace CommandLine

open FilesRun

variable {o : Options} {write : Bool} {r r' r'' : FilesRun} {p q : Path} {files files' : List Path}

theorem totals_next (o : Options) (write : Bool) (r : FilesRun) (p : Path) :
    (next o write r p).totals = r.totals.merge (Store.fixesAt o write r.store p) := by
  unfold Store.fixesAt
  cases h : (repairFile o write r.store p).result with
  | ok f => exact ((counts_next o write r p).1 f h).1
  | error e => exact ((counts_next o write r p).2 e h).1

theorem sound_totals_next (h : r.totals.Sound) : (next o write r p).totals.Sound := by
  rw [totals_next]
  exact h.merge _

/-- The same totals, and stores with the same faults in which every path leads to the same. -/
structure FilesRun.Abreast (r r' : FilesRun) : Prop where
  totals_eq : r.totals = r'.totals
  resolve_eq : ∀ q, r.store.resolve .follow q = r'.store.resolve .follow q
  faults_eq : r.store.faults = r'.store.faults

theorem FilesRun.Abreast.trans (h : r.Abreast r') (h' : r'.Abreast r'') : r.Abreast r'' :=
  ⟨h.totals_eq.trans h'.totals_eq, fun q => (h.resolve_eq q).trans (h'.resolve_eq q),
    h.faults_eq.trans h'.faults_eq⟩

theorem FilesRun.Abreast.next (h : r.Abreast r') (p : Path) :
    (next o write r p).Abreast (next o write r' p) := by
  refine ⟨?_, fun q => ?_, ?_⟩
  · rw [totals_next, totals_next, h.totals_eq, Store.fixesAt_congr (h.resolve_eq p) h.faults_eq]
  · rw [store_next, store_next]
    exact resolve_repairFile_congr (h.resolve_eq p) (h.resolve_eq q) h.faults_eq
  · rw [store_next, store_next, faults_repairFile, faults_repairFile, h.faults_eq]

theorem FilesRun.Abreast.foldl (h : r.Abreast r') (files : List Path) :
    (files.foldl (FilesRun.next o write) r).Abreast
      (files.foldl (FilesRun.next o write) r') := by
  induction files generalizing r r' with
  | nil => exact h
  | cons p files ih => exact ih (h.next p)

/-- Two files may change places: if they are one file it is repaired twice all the same. -/
theorem next_next (h : r.totals.Sound) :
    (next o write (next o write r p) q).Abreast (next o write (next o write r q) p) := by
  have hfaults : (next o write (next o write r p) q).store.faults =
      (next o write (next o write r q) p).store.faults := by
    simp only [store_next, faults_repairFile]
  by_cases hpq : r.store.Apart p q
  · refine ⟨?_, fun x => ?_, hfaults⟩
    · have hq : (repairFile o write r.store p).store.resolve .follow q = _ :=
        resolve_repairFile hpq
      have hp : (repairFile o write r.store q).store.resolve .follow p = _ :=
        resolve_repairFile hpq.symm
      simp only [totals_next, store_next]
      rw [Store.fixesAt_congr hq (faults_repairFile o write r.store p),
        Store.fixesAt_congr hp (faults_repairFile o write r.store q)]
      exact h.merge_right_comm (Store.sound_fixesAt _ _ _ _) (Store.sound_fixesAt _ _ _ _)
    · simp only [store_next]
      exact resolve_repairFile_comm hpq x
  · obtain ⟨l, hp, hq⟩ := Store.not_apart_iff.mp hpq
    have hfirst := Store.resolve_of_target? hp hq
    have hstore : (repairFile o write r.store p).store = (repairFile o write r.store q).store :=
      repairFile_store_congr hfirst
    have hsecond : (repairFile o write r.store q).store.resolve .follow p =
        (repairFile o write r.store q).store.resolve .follow q := by
      refine Store.resolve_of_target? (l := l) ?_ ?_ <;> rwa [target?_repairFile]
    refine ⟨?_, fun x => ?_, hfaults⟩
    · simp only [totals_next, store_next]
      rw [hstore, Store.fixesAt_congr hfirst rfl, Store.fixesAt_congr hsecond rfl]
    · simp only [store_next]
      rw [hstore, repairFile_store_congr hsecond]

theorem foldl_abreast (h : files.Perm files') {r : FilesRun} (hr : r.totals.Sound) :
    (files.foldl (next o write) r).Abreast (files'.foldl (next o write) r) := by
  induction h generalizing r with
  | nil => exact ⟨rfl, fun _ => rfl, rfl⟩
  | cons p _ ih => exact ih (sound_totals_next hr)
  | swap p q files => exact (next_next hr).foldl files
  | trans _ _ ih ih' => exact (ih hr).trans (ih' hr)

theorem totals_perm (h : files.Perm files') (o : Options) (write : Bool) (store : Store) :
    (repairFiles o write store files).totals = (repairFiles o write store files').totals :=
  (foldl_abreast h Tally.sound_empty).totals_eq

/-- What is recorded is consistent, and merging it is addition, name by name: so it is commutative
and associative, nothing is added by the empty tally, and the totals of a run are the same in
whatever order the files come. Each repair records fixes under the names of active rules only. -/
theorem recorded_sums {t u v : Tally} (ht : t.Recorded) (hu : u.Recorded) (hv : v.Recorded) :
    t.Sound ∧ (t.isEmpty = true ↔ t.byRule = []) ∧
      (∀ name, (t.merge u).count name = t.count name + u.count name) ∧
      t.merge u = u.merge t ∧ (t.merge u).merge v = t.merge (u.merge v) ∧
      t.merge .empty = t ∧ Tally.empty.merge t = t ∧
      (∀ (o : Options) (text : Text),
        let w := (repair o text).tally
        w.Recorded ∧ w.Sound ∧ (w.isEmpty = true ↔ w.byRule = []) ∧
          ∀ c ∈ w.byRule, ∃ r ∈ o.activeRules, r.name = c.1) ∧
      ∀ (o : Options) (write : Bool) (store : Store) (files files' : List Path),
        files.Perm files' →
          (repairFiles o write store files).totals = (repairFiles o write store files').totals := by
  have hsound := ht.sound
  refine ⟨hsound, hsound.isEmpty_iff, hsound.count_merge hu.sound, hsound.merge_comm hu.sound,
    hsound.merge_assoc hu.sound hv.sound, Tally.merge_empty t, hsound.empty_merge,
    fun o text => ?_, fun o write store files files' h => totals_perm h o write store⟩
  have hrecorded := Tally.Recorded.repair o text
  exact ⟨hrecorded, hrecorded.sound, hrecorded.sound.isEmpty_iff, repair_names o text⟩

/-- A tally merged with itself, a count of zero, and two files in either order. -/
theorem recorded_sums_twice :
    let t := Tally.empty.record "b" 2
    let u := (t.merge t).record "a" 0
    let v := u.record "a" 1
    let store : Store :=
      { nodes := [(["a.md"], .file (toBytes "<5".toList)),
          (["b.md"], .file (toBytes "< 5 >6".toList))] }
    (t.Recorded ∧ u.Recorded ∧ v.Recorded) ∧ u.byRule = [("b", 4)] ∧
      t.merge u = u.merge t ∧ (t.merge u).merge v = t.merge (u.merge v) ∧
      (t.merge (u.merge v)).byRule = [("a", 1), ("b", 10)] ∧
      (repairFiles {} true store [⟨"a.md"⟩, ⟨"b.md"⟩]).totals =
        (repairFiles {} true store [⟨"b.md"⟩, ⟨"a.md"⟩]).totals := by
  intro t u v store
  have ht : t.Recorded := .record .empty "b" 2
  have hu : u.Recorded := .record (.merge ht ht) "a" 0
  have hv : v.Recorded := .record hu "a" 1
  obtain ⟨-, -, -, hcomm, hassoc, -, -, -, htotals⟩ := recorded_sums ht hu hv
  exact ⟨⟨ht, hu, hv⟩, by decide, hcomm, hassoc, by decide,
    htotals {} true store _ _ (.swap _ _ [])⟩

end CommandLine

end MdxMend
