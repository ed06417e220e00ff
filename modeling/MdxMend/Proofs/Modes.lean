import MdxMend.Proofs.Again
import MdxMend.Proofs.OneByOne
import MdxMend.Proofs.RealChange
import Mathlib.Logic.Function.Iterate

/-!
# Checking, writing and filtering

A run can tell which files it would change, change them, or repair its input. The first two go over
the same files with the same repair, and yet they do not see the same: a file that is listed under
several names is checked each time as it was, and written each time as the time before has left it.

That does not come apart, because a repair never leads back. What the first repair has left, every
later one only escapes further (`escaped_iterate`), so a text that has once changed does not become
again what it was (`iterate_repair_ne`), and a file that is written at all is different in the end.
-/

namespace MdxMend

open Text

/-! ## A repair never leads back -/

section Repeated

variable {o : Options} (ho : o.ruleList = Builtin.rules)

include ho

/-- The first phase has nothing to do in a text that was repaired. -/
theorem repairFences_again (t : Text) :
    repairFences o (repair o t).text = { text := (repair o t).text } := by
  have hescaped : Escaped (repairFences o t).text (repair o t).text :=
    (repairProse_grows ho (repairFences o t)).escaped
  rw [repairFences, Options.fenceRules_builtin ho] at hescaped ⊢
  split
  · next hactive =>
      rw [if_pos hactive] at hescaped
      change Escaped (Builtin.normalizeLanguage.apply { text := t }).text _ at hescaped
      rw [apply_normalizeLanguage] at hescaped
      show Builtin.normalizeLanguage.apply _ = _
      rw [apply_normalizeLanguage]
      simp only [retagLines_again t hescaped, (changed_eq_zero rfl).mpr rfl, flatten_lines]
      rfl
  · rfl

theorem escaped_again (t : Text) :
    Escaped (repair o t).text (repair o (repair o t).text).text := by
  have hgrows := (repairProse_grows ho (repairFences o (repair o t).text)).escaped
  rw [repairFences_again ho] at hgrows
  show Escaped _ (repairProse o (repairFences o (repair o t).text)).text
  rw [repairFences_again ho]
  exact hgrows

/-- Whatever is repaired again and again is escaped further and nothing else. -/
theorem escaped_iterate (t : Text) (n : Nat) :
    Escaped (repair o t).text ((fun t => (repair o t).text)^[n + 1] t) := by
  induction n with
  | zero => exact .refl _
  | succ n ih =>
      rw [Function.iterate_succ_apply'] at ih ⊢
      rw [Function.iterate_succ_apply']
      exact ih.trans (escaped_again ho _)

/-- A text that a repair changes does not come back. -/
theorem iterate_repair_ne {t : Text} (h : (repair o t).text ≠ t) {n : Nat} (hn : 0 < n) :
    (fun t => (repair o t).text)^[n] t ≠ t := by
  intro hback
  obtain ⟨n, rfl⟩ : ∃ m, n = m + 1 := ⟨n - 1, by omega⟩
  have hforth : Escaped (repairFences o t).text (repair o t).text :=
    (repairProse_grows ho (repairFences o t)).escaped
  have hescaped := escaped_iterate ho t n
  rw [hback] at hescaped
  -- Only escaping leads from the first phase back to the text, so this phase has done nothing.
  rw [repairFences_of_escaped ho (hforth.trans hescaped)] at hforth
  exact h (hforth.eq_of_length_le hescaped.length_le)

end Repeated

/-! ## A file that is listed -/

variable {o : Options} {store : Store} {p q : Path} {l : Location} {t : Text}

/-- Looking at a file changes nothing. -/
theorem repairFile_check (o : Options) (store : Store) (p : Path) :
    (repairFile o false store p).store = store := by
  cases htext : store.readText p with
  | error cause => rw [repairFile_of_error htext]
  | ok t =>
      obtain ⟨l, hl, hread⟩ := Store.readText_ok_iff.mp htext
      rw [repairFile_of_text hl hread]
      simp

/-- A file that can be read can still be read when another has been repaired and written. -/
theorem readText_repairFile {write : Bool} (hwritable : store.IsWritable)
    (h : ∃ t, store.readText q = .ok t) :
    ∃ t, (repairFile o write store p).store.readText q = .ok t := by
  cases htext : store.readText p with
  | error cause => rwa [repairFile_of_error htext]
  | ok t =>
      obtain ⟨l, hl, hread⟩ := Store.readText_ok_iff.mp htext
      rw [repairFile_of_text hl hread]
      dsimp only
      split
      · rw [hwritable.write]
        obtain ⟨v, hv⟩ := h
        obtain ⟨m, hm, hread'⟩ := Store.readText_ok_iff.mp hv
        have hresolve :
            (store.put l (.file (toBytes (repair o t).text))).resolve .follow q = _ :=
          Store.resolve_put_file (Store.get?_of_resolve hl) _
        rw [hm, Except.map, Store.Spot.renew] at hresolve
        by_cases hml : m = l
        · rw [if_pos hml] at hresolve
          exact ⟨_, Store.readText_ok_iff.mpr ⟨m, hresolve, hread'⟩⟩
        · rw [if_neg hml] at hresolve
          exact ⟨v, Store.readText_ok_iff.mpr ⟨m, hresolve, hread'⟩⟩
      · exact h

namespace CommandLine

open FilesRun

theorem store_foldl_check (files : List Path) (r : FilesRun) :
    (files.foldl (next o false) r).store = r.store := by
  induction files generalizing r with
  | nil => rfl
  | cons p files ih => rw [List.foldl_cons, ih, store_next, repairFile_check]

theorem isWritable_next {write : Bool} {r : FilesRun} (h : r.store.IsWritable) (p : Path) :
    (next o write r p).store.IsWritable :=
  ⟨by simp [h.write]⟩

theorem failures_foldl_write {files : List Path} {write : Bool} {r : FilesRun}
    (hwritable : r.store.IsWritable) (h : ∀ p ∈ files, ∃ t, r.store.readText p = .ok t) :
    (files.foldl (next o write) r).failures = r.failures := by
  induction files generalizing r with
  | nil => rfl
  | cons p files ih =>
      obtain ⟨t, ht⟩ := h p List.mem_cons_self
      have hresult := hwritable.repairFile_ok o write ht
      rw [List.foldl_cons, ih (isWritable_next hwritable p),
        ((counts_next o write r p).1 _ hresult).2.2]
      intro q hq
      rw [store_next]
      exact readText_repairFile hwritable (h q (List.mem_cons_of_mem p hq))

/-- A file is repaired as often as it is listed, under whatever names. -/
theorem get?_foldl_write (files : List Path) {r : FilesRun} (hwritable : r.store.IsWritable)
    (hread : r.store.faults.read l = none) (h : r.store.get? l = some (.file (toBytes t))) :
    (files.foldl (next o true) r).store.get? l = some (.file (toBytes
      ((fun t => (repair o t).text)^[(files.filterMap r.store.target?).count l] t))) := by
  induction files generalizing r t with
  | nil => exact h
  | cons p files ih =>
      have htargets : (next o true r p).store.target? = r.store.target? := by
        funext q
        rw [store_next, target?_repairFile]
      have hwritable' : (next o true r p).store.IsWritable := isWritable_next hwritable p
      have hread' : (next o true r p).store.faults.read l = none := by
        rwa [store_next, faults_repairFile]
      rw [List.foldl_cons]
      -- Another name of the file repairs it once more; other files leave it alone.
      by_cases hp : r.store.target? p = some l
      · obtain ⟨n, hn⟩ := Store.target?_eq_some_iff.mp hp
        obtain rfl : n = .file (toBytes t) := by
          rw [Store.get?_of_resolve hn] at h
          exact Option.some.inj h
        have hnext : (next o true r p).store.get? l = some (.file (toBytes (repair o t).text)) := by
          rw [store_next, get?_repairFile_write hwritable hn hread]
        rw [ih hwritable' hread' hnext, htargets, List.filterMap_cons_some hp, List.count_cons_self,
          Function.iterate_succ_apply]
      · have hnext : (next o true r p).store.get? l = some (.file (toBytes t)) := by
          rw [store_next, get?_repairFile_of_ne hp, h]
        have hcount : ((p :: files).filterMap r.store.target?).count l =
            (files.filterMap r.store.target?).count l := by
          cases htarget : r.store.target? p with
          | none => rw [List.filterMap_cons_none htarget]
          | some m =>
              have hne : m ≠ l := fun heq => hp (by rw [htarget, heq])
              rw [List.filterMap_cons_some htarget, List.count_cons_of_ne hne]
        rw [ih hwritable' hread' hnext, htargets, hcount]

/-! ## The modes -/

theorem counts_check (files : List Path) :
    (repairFiles o false store files).changed =
        (store.repaired o false files).countP (·.changed) ∧
      (repairFiles o false store files).failures =
        files.countP (fun p => (repairFile o false store p).result.toOption.isNone) := by
  let start : FilesRun := { store }
  have hmet (before : List Path) (p : Path) (after : List Path)
      (_ : files = before ++ p :: after) :
      (repairFile o false (before.foldl (next o false) start).store p).result =
        (repairFile o false store p).result := by
    rw [store_foldl_check]
  obtain ⟨-, hchanged, hfailures⟩ := counts_foldl hmet
  rw [Nat.zero_add] at hchanged hfailures
  exact ⟨hchanged, hfailures⟩

/-- What is written is what a check would report. -/
theorem written_iff (ho : o.ruleList = Builtin.rules) {files : List Path}
    (hwritable : store.IsWritable) (h : ∀ p ∈ files, ∃ t, store.readText p = .ok t) :
    (∃ l, (repairFiles o true store files).store.get? l ≠ store.get? l) ↔
      ∃ p ∈ files, ∃ t, store.readText p = .ok t ∧ (repair o t).text ≠ t := by
  constructor
  · rintro ⟨l, hl⟩
    obtain ⟨p, hp, htarget⟩ : ∃ p ∈ files, store.target? p = some l := by
      by_contra hnone
      exact hl (get?_foldl fun p hp htarget => hnone ⟨p, hp, htarget⟩)
    obtain ⟨t, ht⟩ := h p hp
    obtain ⟨m, hm, hread⟩ := Store.readText_ok_iff.mp ht
    obtain rfl : m = l := by
      rw [Store.target?_eq_some_iff.mpr ⟨_, hm⟩] at htarget
      exact Option.some.inj htarget
    have hfile := Store.get?_of_resolve hm
    refine ⟨p, hp, t, ht, fun hsame => hl ?_⟩
    rw [repairFiles, get?_foldl_write files hwritable hread hfile,
      Function.iterate_fixed hsame, hfile]
  · rintro ⟨p, hp, t, ht, hne⟩
    obtain ⟨l, hl, hread⟩ := Store.readText_ok_iff.mp ht
    have hfile := Store.get?_of_resolve hl
    have hcount : 0 < (files.filterMap store.target?).count l := List.count_pos_iff.mpr
      (List.mem_filterMap.mpr ⟨p, hp, Store.target?_eq_some_iff.mpr ⟨_, hl⟩⟩)
    refine ⟨l, fun heq => iterate_repair_ne ho hne hcount ?_⟩
    rw [repairFiles, get?_foldl_write files hwritable hread hfile, hfile] at heq
    have hbytes := Store.Node.file.inj (Option.some.inj heq)
    have htext := congrArg ofBytes? hbytes
    rw [ofBytes?_toBytes, ofBytes?_toBytes] at htext
    exact Option.some.inj htext

section Loaded

variable {f : Flags} {env : Environment} {loaded : Settings} {log : Log}
  (hlist : f.listRules = false) (hsave : f.saveSettings = false)
  (hloaded : startingSettings f env store = (.ok loaded, log))

include hlist hsave hloaded

/-- A run that loads its settings and saves none. -/
theorem runFlags_eq (input : ByteArray) :
    ∃ notes, runFlags f env input store =
      { runWith f (f.applyTo loaded) input store with notes } := by
  unfold runFlags
  rw [hlist, if_neg (by decide), hloaded]
  simp only [hsave, Bool.false_eq_true, if_false]
  exact ⟨_, rfl⟩

theorem runFlags_files (hpaths : f.paths ≠ []) (input : ByteArray) :
    let r := repairFiles (f.applyTo loaded).toOptions f.write store
      (collectFiles (f.applyTo loaded) store f.paths).1
    (runFlags f env input store).exit = r.exit f.check ∧
      (runFlags f env input store).store = r.store := by
  obtain ⟨notes, h⟩ := runFlags_eq hlist hsave hloaded input
  rw [runWith, if_neg (by simpa using hpaths)] at h
  rw [h]
  exact ⟨rfl, rfl⟩

theorem runFlags_filter (hpaths : f.paths = []) (t : Text) :
    (runFlags f env (toBytes t) store).output = (repair (f.applyTo loaded).toOptions t).text := by
  obtain ⟨notes, h⟩ := runFlags_eq hlist hsave hloaded (toBytes t)
  rw [runWith, if_pos (by simpa using hpaths), runFilter, ofBytes?_toBytes] at h
  rw [h]

end Loaded

/-- A check changes nothing and tells whether a run that writes would leave any file different; and
what that leaves in a file that is listed once is what comes out if its contents are the input. The
files can be read, and no write goes wrong. -/
theorem modes_agree (f : Flags) (env : Environment) (input : ByteArray) (store : Store)
    (loaded : Settings) (log : Log) (hpaths : f.paths ≠ []) (hlist : f.listRules = false)
    (hsave : f.saveSettings = false) (hloaded : startingSettings f env store = (.ok loaded, log))
    (hwritable : store.IsWritable)
    (hreadable : ∀ p ∈ (collectFiles (f.applyTo loaded) store f.paths).1,
      ∃ t, store.readText p = .ok t) :
    let files := (collectFiles (f.applyTo loaded) store f.paths).1
    let check := runFlags { f with check := true, write := false } env input store
    let write := runFlags { f with check := false, write := true } env input store
    check.store = store ∧ write.exit = success ∧
      (check.exit = needsFixes ↔ ∃ l, write.store.get? l ≠ store.get? l) ∧
      (check.exit = success ↔ ∀ l, write.store.get? l = store.get? l) ∧
      ∀ p ∈ files, ∀ l bytes, store.resolve .follow p = .ok (.taken l (.file bytes)) →
        (files.filterMap store.target?).count l = 1 →
        write.store.get? l = some (.file (toBytes
          (runFlags { f with paths := [] } env bytes store).output)) := by
  intro files check write
  let o := (f.applyTo loaded).toOptions
  let looked := repairFiles o false store files
  let written := repairFiles o true store files
  have ho : o.ruleList = Builtin.rules := Settings.ruleList_toOptions _
  have hcheck : check.exit = looked.exit true ∧ check.store = looked.store :=
    runFlags_files (f := { f with check := true, write := false }) hlist hsave hloaded hpaths input
  have hwrite : write.exit = written.exit false ∧ write.store = written.store :=
    runFlags_files (f := { f with check := false, write := true }) hlist hsave hloaded hpaths input
  have hgoes : ∀ p ∈ files, ∃ x, (repairFile o false store p).result = .ok x := fun p hp =>
    have ⟨_, ht⟩ := hreadable p hp
    ⟨_, hwritable.repairFile_ok o false ht⟩
  have hlooked : looked.failures = 0 := (counts_check files).2.trans
    (failures_eq_zero_iff.mpr hgoes)
  have hwritten : written.failures = 0 := failures_foldl_write hwritable hreadable
  have hchanged : 0 < looked.changed ↔ ∃ l, written.store.get? l ≠ store.get? l := by
    rw [written_iff ho hwritable hreadable, (counts_check files).1, pos_changed_iff hgoes]
  rw [hcheck.1, hcheck.2, hwrite.1, hwrite.2]
  obtain ⟨-, hneeds, hsuccess⟩ := looked.exit_iff true
  refine ⟨store_foldl_check files _, (written.exit_iff false).2.2.mpr ⟨hwritten, by simp⟩, ?_, ?_,
    fun p hp l bytes hl honce => ?_⟩
  · rw [hneeds, ← hchanged]
    simp [hlooked]
  · rw [hsuccess, hchanged]
    simp [hlooked]
  · obtain ⟨t, ht⟩ := hreadable p hp
    obtain ⟨m, hm, hread⟩ := Store.readText_ok_iff.mp ht
    rw [hl] at hm
    simp only [Except.ok.injEq, Store.Spot.taken.injEq, Store.Node.file.injEq] at hm
    obtain ⟨rfl, rfl⟩ := hm
    have hcontents := get?_foldl_write (o := o) files (r := { store }) hwritable hread
      (Store.get?_of_resolve hl)
    rw [honce, Function.iterate_one] at hcontents
    rw [runFlags_filter (f := { f with paths := [] }) hlist hsave hloaded rfl t]
    exact hcontents

/-- One file, with one bracket to be escaped. -/
theorem modes_agree_bracket :
    let store : Store := { nodes := [(["a.md"], .file (toBytes "<5".toList))] }
    let f : Flags := { paths := [⟨"a.md"⟩] }
    let check := runFlags { f with check := true, write := false } {} ⟨#[]⟩ store
    let write := runFlags { f with check := false, write := true } {} ⟨#[]⟩ store
    check.store = store ∧ check.exit = needsFixes ∧ write.exit = success ∧
      write.store.get? ["a.md"] = some (.file (toBytes "&lt;5".toList)) := by
  intro store f check write
  have hplain := isPlain_ab.1
  have hfile : store.resolve .follow ⟨"a.md"⟩ =
      .ok (.taken ["a.md"] (.file (toBytes "<5".toList))) := by
    rw [hplain.resolve_eq]
    exact (Store.Last.file rfl hplain.toIsName rfl).walk _
  have hfiles : (collectFiles (f.applyTo {}) store f.paths).1 = f.paths := by
    have hfound : (f.paths.map (filesAt (f.applyTo {}) store)).flatMap (·.1) = f.paths := by
      simp [f, filesAt, hfile]
    rw [collectFiles, together, hfound]
    exact Path.sortDistinct_of_pairwise (List.pairwise_singleton _ _)
  obtain ⟨hstore, hwrite, hneeds, -, hcontents⟩ :=
    modes_agree f {} ⟨#[]⟩ store {} _ (List.cons_ne_nil _ _) rfl rfl rfl ⟨fun _ _ => rfl⟩ (by
      rw [hfiles]
      intro p hp
      obtain rfl := List.mem_singleton.mp hp
      exact ⟨_, Store.readText_ok_iff.mpr ⟨_, hfile, rfl⟩⟩)
  rw [hfiles] at hcontents
  have hnew : write.store.get? ["a.md"] = some (.file (toBytes "&lt;5".toList)) := by
    have h := hcontents _ List.mem_cons_self _ _ hfile (by simp [f, Store.target?, hfile])
    have hfilter : (runFlags { f with paths := [] } {} (toBytes "<5".toList) store).output = _ :=
      runFlags_filter rfl rfl rfl rfl "<5".toList
    rw [hfilter, show (repair (Flags.applyTo { f with paths := [] } {}).toOptions
      "<5".toList).text = "&lt;5".toList by decide +kernel] at h
    exact h
  have hother : write.store.get? ["a.md"] ≠ store.get? ["a.md"] := by
    rw [hnew]
    decide +kernel
  exact ⟨hstore, hneeds.mpr ⟨_, hother⟩, hwrite, hnew⟩

end CommandLine

end MdxMend
