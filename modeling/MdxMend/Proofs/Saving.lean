import MdxMend.Settings.Keep
import MdxMend.Proofs.KeptPlaces
import MdxMend.Proofs.SavedSettings
import MdxMend.Proofs.Tags

/-!
# Saving settings

Settings are written to a draft beside their file, and the draft is moved into its place. If that
fails, what was at the path is still there, and nothing else is touched but the draft. If it goes
well, the settings are there.

That leaves four things open. A path like `a/b/..` leads nowhere until the folders in it are made,
and is no name that a file can be moved to: what is left of a save there is a folder
(`save_makesFolders`). A path to a folder is no such name either, but the draft has then been
written into the folder (`save_inFolder`). A path can have the name of the draft itself, and a write
that is cut leaves a part of it (`save_cutShort`). And a draft can be there already as a link. It is
written through and moved as it is, which goes well as long as the file that it leads to is reached
without what it replaces. A draft that is a link to the settings themselves ends as a link to itself
(`save_draftLink`).
-/

namespace MdxMend

open Text

namespace Settings

variable {s : Settings} {store : Store} {p : Path}

theorem print_ne_blank (s : Settings) : (Text.trim s.print).isEmpty = false := by
  have hprint : ∃ t, s.print = '\x7b' :: t := by
    rw [print, toJson_eq]
    exact ⟨_, rfl⟩
  obtain ⟨t, ht⟩ := hprint
  rw [isEmpty_trim, ht]
  rfl

/-- Settings are loaded from what is printed of them. -/
theorem load_of_readText (h : store.readText p = .ok s.print) :
    (load store p).1 = .ok s.sanitize := by
  have hthere : store.isThere p = true := by
    obtain ⟨l, hl, -⟩ := Store.readText_ok_iff.mp h
    rw [Store.isThere, Store.find?, hl]
    rfl
  rw [load, hthere]
  simp only [Bool.not_true, Bool.false_eq_true, if_false, h, print_ne_blank, parseSanitized,
    parse_print]
  rfl

theorem readText_of_find? {t : Text} (h : store.find? p = some (.file (toBytes t)))
    (hread : ∀ l, store.target? p = some l → store.faults.read l = none) :
    store.readText p = .ok t := by
  unfold Store.find? at h
  split at h
  · next l n hl =>
      obtain rfl := Option.some.inj h
      exact Store.readText_ok_iff.mpr ⟨l, hl, hread l (Store.target?_eq_some_iff.mpr ⟨_, hl⟩)⟩
  · cases h

theorem grown_prepareFolder (store : Store) (dir : Path) :
    store.Grown (prepareFolder store dir).store := by
  unfold prepareFolder
  split
  · exact .refl store
  · exact Store.grown_ensureFoldersUpTo store dir _

theorem isPlain_draftName : Path.IsPlain draftName.raw :=
  ⟨⟨by decide, by decide, by decide⟩, by decide, by decide⟩

/-- How a save goes: it makes folders, writes a draft and moves it, and ends where one of these
fails. -/
theorem save_cases (s : Settings) (store : Store) (p : Path) :
    let ended := s.save store p
    let prepared := prepareFolder store (p.parent?.getD ⟨""⟩)
    let b := toBytes s.print
    (∃ e, ended.result = .error e) ∧ ended.store = prepared.store ∧
        (∃ e, prepared.result = .error e) ∨
      (∃ e, ended.result = .error e) ∧ ended.store = prepared.store.torn (draftFor p) b ∧
        (∃ cause, prepared.store.write (draftFor p) b = .error cause) ∨
      ∃ written, prepared.store.write (draftFor p) b = .ok written ∧
        ((∃ e, ended.result = .error e) ∧ ended.store = written ∧
            (∀ moved, written.moveFile (draftFor p) p ≠ .ok moved) ∨
          ended.result = .ok () ∧ written.moveFile (draftFor p) p = .ok ended.store) := by
  intro ended prepared b
  unfold ended prepared save
  cases prepareFolder store (p.parent?.getD ⟨""⟩) with
  | mk result ready log =>
      cases result with
      | error e => exact .inl ⟨⟨e, rfl⟩, rfl, e, rfl⟩
      | ok u =>
          simp only [replaceFile]
          cases hwrite : ready.write (draftFor p) b with
          | error cause => exact .inr (.inl ⟨⟨_, rfl⟩, rfl, cause, rfl⟩)
          | ok written =>
              refine .inr (.inr ⟨written, rfl, ?_⟩)
              simp only []
              cases hmove : written.moveFile (draftFor p) p with
              | error cause => exact .inl ⟨⟨_, rfl⟩, rfl, by simp⟩
              | ok moved => exact .inr ⟨rfl, rfl⟩

/-- A save goes well if each of its steps does. -/
theorem save_of_moved {s : Settings} {store written moved : Store} {p : Path}
    (hdir : (prepareFolder store (p.parent?.getD ⟨""⟩)).result = .ok ())
    (hwrite : (prepareFolder store (p.parent?.getD ⟨""⟩)).store.write (draftFor p)
      (toBytes s.print) = .ok written)
    (hmove : written.moveFile (draftFor p) p = .ok moved) :
    (s.save store p).result = .ok () ∧ (s.save store p).store = moved := by
  rcases save_cases s store p with
    ⟨-, -, e, he⟩ | ⟨-, -, cause, hcause⟩ | ⟨written', hwrite', ⟨-, -, hnot⟩ | ⟨hok, hmoved⟩⟩
  · rw [hdir] at he
    cases he
  · rw [hwrite] at hcause
    cases hcause
  · obtain rfl := Except.ok.inj (hwrite.symm.trans hwrite')
    exact absurd hmove (hnot moved)
  · obtain rfl := Except.ok.inj (hwrite.symm.trans hwrite')
    exact ⟨hok, Except.ok.inj (hmoved.symm.trans hmove)⟩

/-! ## A save that fails -/

section Error

variable {e : Failure} (h : (s.save store p).result = .error e)

include h

/-- Behind the folders that it made, a save that fails has written the draft at most, or a part of
it. -/
theorem save_drafted :
    let ready := (prepareFolder store (p.parent?.getD ⟨""⟩)).store
    (s.save store p).store = ready ∨ ∃ m size, ready.fileFor (draftFor p) = .ok m ∧
      (s.save store p).store = ready.put m (.file ((toBytes s.print).extract 0 size)) := by
  intro ready
  rcases save_cases s store p with
    ⟨-, hstore, -⟩ | ⟨-, hstore, -⟩ | ⟨written, hwrite, ⟨-, hstore, -⟩ | ⟨hok, -⟩⟩
  · exact .inl hstore
  · rw [hstore]
    exact Store.torn_cases ready (draftFor p) _
  · obtain ⟨m, hfile, -, rfl⟩ := Store.write_ok_iff.mp hwrite
    refine .inr ⟨m, (toBytes s.print).size, hfile, ?_⟩
    rw [hstore, ByteArray.extract_zero_size]
  · rw [h] at hok
    cases hok

/-- Where nothing goes wrong but that the path is none that a file can be moved to, what is at the
path is what is there once its folders have been made. -/
theorem at?_save (hstore : store.IsTree) (hsteady : store.IsSteady) :
    (s.save store p).store.at? p = (prepareFolder store (p.parent?.getD ⟨""⟩)).store.at? p := by
  have hgrown := grown_prepareFolder store (p.parent?.getD ⟨""⟩)
  have hsteady' : (prepareFolder store (p.parent?.getD ⟨""⟩)).store.IsSteady :=
    ⟨⟨by rw [hgrown.faults_eq]; exact hsteady.write⟩, by rw [hgrown.faults_eq]; exact hsteady.move⟩
  have hsteps := Path.stepsOf_join isPlain_draftName.no_slash isPlain_draftName.ne_nil
    (q := p.parent?.getD ⟨""⟩)
  rcases save_cases s store p with
    ⟨-, hready, -⟩ | ⟨-, hready, -⟩ | ⟨written, hwrite, ⟨-, hready, hmove⟩ | ⟨hok, -⟩⟩
  · rw [hready]
  · rw [hready, hsteady'.torn_eq]
  · rw [hready]
    exact Store.at?_write (hgrown.isTree hstore) hsteady' isPlain_draftName.toIsName hsteps hwrite
      hmove
  · rw [h] at hok
    cases hok

/-- What a save that fails has done to a place. -/
theorem get?_save (l : Location) :
    let ready := (prepareFolder store (p.parent?.getD ⟨""⟩)).store
    (s.save store p).store.get? l = store.get? l ∨
      store.get? l = none ∧ (s.save store p).store.get? l = some .folder ∨
      ready.fileFor (draftFor p) = .ok l ∧ ∃ size,
        (s.save store p).store.get? l = some (.file ((toBytes s.print).extract 0 size)) := by
  intro ready
  have hgrown := grown_prepareFolder store (p.parent?.getD ⟨""⟩)
  rcases save_drafted h with hready | ⟨m, size, hfile, hput⟩
  · rw [hready]
    exact (hgrown.get?_cases l).imp_right .inl
  · rw [hput]
    by_cases hl : l = m
    · subst hl
      obtain ⟨spot, hspot, hfor⟩ := Store.fileFor_ok_iff.mp hfile
      exact .inr (.inr ⟨hfile, size, Store.get?_put_self _ _
        (hfor.ne_nil (Store.resolve_eq_ok_iff.mp hspot).2)⟩)
    · rw [Store.get?_put_of_ne _ _ hl]
      exact (hgrown.get?_cases l).imp_right .inl

/-- A path leads where it led, unless it leads to the draft. -/
theorem at?_save_cases :
    let ready := (prepareFolder store (p.parent?.getD ⟨""⟩)).store
    (s.save store p).store.at? p = ready.at? p ∨
      ∃ l n, ready.fileFor (draftFor p) = .ok l ∧ (s.save store p).store.at? p = some (l, n) := by
  intro ready
  rcases save_drafted h with hready | ⟨m, size, hfile, hput⟩
  · exact .inl (by rw [hready])
  · rw [hput]
    exact (Store.at?_put_cases hfile p _).imp_right fun hthere => ⟨m, _, hfile, hthere⟩

theorem at?_save_of_ne {l : Location} {n : Store.Node} (hfound : store.at? p = some (l, n))
    (hne : (prepareFolder store (p.parent?.getD ⟨""⟩)).store.fileFor (draftFor p) ≠ .ok l) :
    (s.save store p).store.at? p = some (l, n) := by
  have hready := (grown_prepareFolder store (p.parent?.getD ⟨""⟩)).at?_eq_some hfound
  rcases save_drafted h with hsame | ⟨m, size, hfile, hput⟩
  · rw [hsame, hready]
  · rw [hput, Store.at?_put_of_ne hfile (by rintro rfl; exact hne hfile), hready]

end Error

theorem isPlain_fileName : Path.IsPlain "config.json" :=
  ⟨⟨by decide, by decide, by decide⟩, by decide, by decide⟩

theorem draftFor_fileName :
    (Path.ofRaw "config.json").parent?.getD ⟨""⟩ = ⟨""⟩ ∧
      draftFor ⟨"config.json"⟩ = ⟨"config.json.bak"⟩ := by
  decide

/-- Nothing is to be made where a path has no folder. -/
theorem prepareFolder_here (store : Store) : prepareFolder store ⟨""⟩ = ⟨.ok (), store, []⟩ :=
  if_pos rfl

/-- What a save at the usual name comes to, step by step. -/
theorem save_fileName {s : Settings} {store written : Store} {l : Location} {n : Store.Node}
    (hhere : written.get? written.here = some .folder)
    (hwrite : store.write ⟨"config.json.bak"⟩ (toBytes s.print) = .ok written)
    (hold : written.resolve .keep ⟨"config.json.bak"⟩ = .ok (.taken l n)) (hn : n ≠ .folder)
    (hfolder : written.get? (("config.json" : RawText) :: written.here) ≠ some .folder)
    (hmoves : ∀ l m, written.faults.move l m = none) :
    let ended := s.save store ⟨"config.json"⟩
    let new : Location := "config.json" :: written.here
    ended.result = .ok () ∧
      ended.store = if l = new then written else (written.remove l).put new n := by
  have hmove := Store.moveFile_eq hold hn (Store.resolveName_plain isPlain_fileName hhere)
    (by decide) hfolder (hmoves _ _)
  rw [← draftFor_fileName.2] at hwrite hmove
  refine save_of_moved ?_ ?_ hmove
  · rw [draftFor_fileName.1, prepareFolder_here]
  · rw [draftFor_fileName.1, prepareFolder_here, hwrite]

section Promises

open Store

theorem isName_ab : IsName "a" ∧ IsName "b" :=
  ⟨⟨by decide, by decide, by decide⟩, ⟨by decide, by decide, by decide⟩⟩

theorem resolve_nested (s : Store) (purpose : Purpose) :
    s.resolve purpose ⟨"a"⟩ = s.walk purpose maxLinks s.here ["a"] ∧
      s.resolve purpose ⟨"a/b"⟩ = s.walk purpose maxLinks s.here ["a", "b"] ∧
      s.resolve purpose ⟨"a/b/.."⟩ = s.walk purpose maxLinks s.here ["a", "b", ".."] := by
  have hsteps : stepsOf ⟨"a"⟩ = (["a"] : List RawText) ∧
      stepsOf ⟨"a/b"⟩ = (["a", "b"] : List RawText) ∧
      stepsOf ⟨"a/b/.."⟩ = (["a", "b", ".."] : List RawText) := by decide
  have hstart : (Path.ofRaw "a").isAbsolute = false ∧ (Path.ofRaw "a/b").isAbsolute = false ∧
      (Path.ofRaw "a/b/..").isAbsolute = false := by decide
  have hfault : pathFault? ⟨"a"⟩ = none ∧ pathFault? ⟨"a/b"⟩ = none ∧
      pathFault? ⟨"a/b/.."⟩ = none := by decide
  simp only [resolve, hfault, hsteps, startOf, hstart, Bool.false_eq_true, if_false, and_self]

/-- Two folders are made where there was nothing. -/
theorem prepareFolder_nested :
    (prepareFolder {} ⟨"a/b"⟩).store =
      { nodes := [(["b", "a"], .folder), (["a"], .folder)] } := by
  let store : Store := {}
  let made : Store := { nodes := [(["a"], .folder)] }
  let ready : Store := { nodes := [(["b", "a"], .folder), (["a"], .folder)] }
  obtain ⟨ha, hb⟩ := isName_ab
  have hslash : withoutSlash ⟨"a"⟩ = ⟨"a"⟩ ∧ withoutSlash ⟨"a/b"⟩ = ⟨"a/b"⟩ := by decide
  have hnone : store.makeFolder ⟨"a/b"⟩ = .error .notFound := by
    rw [makeFolder, hslash.2, (resolve_nested store .keep).2.1, walk_name rfl ha (by simp)]
    rfl
  have hfirst : store.makeFolder ⟨"a"⟩ = .ok made := by
    rw [makeFolder, hslash.1, (resolve_nested store .keep).1, walk_name rfl ha (by simp)]
    rfl
  have hsecond : made.makeFolder ⟨"a/b"⟩ = .ok ready := by
    rw [makeFolder, hslash.2, (resolve_nested made .keep).2.1,
      walk_down rfl ha (by simp) rfl (by simp), walk_name rfl hb (by simp)]
    rfl
  have hthere : store.isThere ⟨"a/b"⟩ = false := by
    rw [isThere, find?, (resolve_nested store .follow).2.1, walk_name rfl ha (by simp)]
    rfl
  have hparents : (Path.ofRaw "a/b").parent? = some ⟨"a"⟩ ∧
      (Path.ofRaw "a/b").components.isEmpty = false ∧
      (Path.ofRaw "a").components.isEmpty = false := by
    decide
  have hensure : store.ensureFolders ⟨"a/b"⟩ = (.ok (), ready) := by
    rw [ensureFolders, show (Path.ofRaw "a/b").raw.size + 1 = 1 + 1 + 1 + 1 from rfl]
    simp only [ensureFoldersUpTo, hparents, hnone, hfirst, ensureFolder, hsecond,
      Bool.false_eq_true, if_false]
  rw [prepareFolder, hthere, hensure, if_neg (by decide)]

theorem isSteady_of_faultless (h : store.faults = {}) : store.IsSteady :=
  ⟨⟨by rw [h]; exact fun _ _ => rfl⟩, by rw [h]; exact fun _ _ => rfl⟩

/-- A path that ends in a dot or in two is none that a file can be moved to. -/
theorem save_error_of_dots {name : RawText}
    (hp : (Path.namesOf p.raw.bytes).getLast? = some name) (hname : ¬ IsName name) :
    ∃ e, (s.save store p).result = .error e := by
  rcases save_cases s store p with ⟨he, -⟩ | ⟨he, -⟩ | ⟨written, -, ⟨he, -⟩ | ⟨-, hmove⟩⟩
  · exact he
  · exact he
  · exact he
  · obtain ⟨-, -, new, -, -, hnew, -⟩ := exists_of_moveFile hmove
    obtain ⟨-, init', last, folder, hnames, -, hlast, -⟩ := resolveName_ok_iff.mp hnew
    rw [hnames, List.getLast?_concat] at hp
    obtain rfl := Option.some.inj hp
    exact absurd hlast hname

/-- A path that ends in two dots leads nowhere before its folders are made, and that is all that a
save at it does. -/
theorem save_makesFolders :
    let store : Store := {}
    let p : Path := ⟨"a/b/.."⟩
    let ended := Settings.save {} store p
    store.IsTree ∧ (∃ e, ended.result = .error e) ∧ store.at? p = none ∧
      ended.store.at? p = some ((["a"] : Location), .folder) := by
  intro store p ended
  have htree : store.IsTree := fun _ _ h => absurd rfl h
  obtain ⟨ha, hb⟩ := isName_ab
  have hlast : (Path.namesOf p.raw.bytes).getLast? = some (".." : RawText) := by decide
  obtain ⟨e, he⟩ : ∃ e, ended.result = .error e :=
    save_error_of_dots hlast fun h => h.not_up rfl
  refine ⟨htree, ⟨e, he⟩, ?_, ?_⟩
  · rw [at?, (resolve_nested store .keep).2.2, walk_name rfl ha (by simp)]
    rfl
  · have hparent : p.parent?.getD ⟨""⟩ = ⟨"a/b"⟩ := by decide
    rw [at?_save he htree (isSteady_of_faultless rfl), hparent, prepareFolder_nested,
      at?_eq_some_iff, (resolve_nested _ .keep).2.2, walk_down rfl ha (by simp) rfl (by simp),
      walk_down rfl hb (by simp) rfl (by simp), walk_up rfl]
    exact walk_here rfl

/-- A draft that is a link to the file is moved in place of the file, and then leads to itself. -/
theorem save_draftLink :
    let store : Store := { nodes :=
      [(["config.json"], .file ⟨#[]⟩), (["config.json.bak"], .link ⟨"config.json"⟩)] }
    let p : Path := ⟨"config.json"⟩
    let ended := Settings.save {} store p
    store.IsTree ∧ ended.result = .ok () ∧ ended.store.find? p = none := by
  intro store p ended
  have htree : store.IsTree := isTree_of_top (by simp [store])
  let b := toBytes (Settings.print {})
  let written := store.put ["config.json"] (.file b)
  have hplain := isPlain_fileName
  have hdraft : Path.IsPlain "config.json.bak" := isPlain_draftName
  -- The bytes go through the link into the file, which the link then replaces.
  have hfile : store.fileFor ⟨"config.json.bak"⟩ = .ok ["config.json"] := by
    refine fileFor_ok_iff.mpr ⟨.taken ["config.json"] (.file ⟨#[]⟩), ?_, .inl ⟨_, rfl⟩⟩
    rw [hdraft.resolve_eq]
    show store.walk .make (39 + 1) [] _ = _
    rw [walk_link rfl hdraft.toIsName (by simp) rfl (by simp), hplain.steps, hplain.start]
    exact (Last.file rfl hplain.toIsName rfl).walk _
  have hwrite : store.write ⟨"config.json.bak"⟩ b = .ok written :=
    write_ok_iff.mpr ⟨_, hfile, rfl, rfl⟩
  have hold : written.resolve .keep ⟨"config.json.bak"⟩ =
      .ok (.taken ["config.json.bak"] (.link p)) := by
    rw [hdraft.resolve_eq]
    exact (Last.link rfl rfl hdraft.toIsName rfl).walk _
  obtain ⟨hok, hstore⟩ := save_fileName rfl hwrite hold (by simp) (by decide) (fun _ _ => rfl)
  rw [if_neg (by decide)] at hstore
  have hlink : ended.store.get? ["config.json"] = some (.link p) := by
    rw [hstore]
    rfl
  have hhere : ended.store.here = [] := by
    rw [hstore]
    rfl
  have hback : Leads ended.store .follow 0 (startOf p []) (stepsOf p) [] ["config.json"] := by
    rw [hplain.start, hplain.steps]
    exact .refl _ _
  refine ⟨htree, hok, ?_⟩
  rw [find?, hplain.resolve_eq, hhere]
  cases hwalk : ended.store.walk .follow maxLinks [] ["config.json"] with
  | error cause => rfl
  | ok spot => exact absurd hwalk (not_leads_back rfl hplain.toIsName hlink hback _ _ _)

theorem fileFor_draft (a : ByteArray) (faults : Faults) :
    let store : Store := { nodes := [(["config.json.bak"], .file a)], faults }
    store.resolve .keep ⟨"config.json.bak"⟩ = .ok (.taken ["config.json.bak"] (.file a)) ∧
      store.fileFor ⟨"config.json.bak"⟩ = .ok ["config.json.bak"] := by
  intro store
  have hdraft : Path.IsPlain "config.json.bak" := isPlain_draftName
  have hresolve (purpose : Purpose) : store.resolve purpose ⟨"config.json.bak"⟩ =
      .ok (.taken ["config.json.bak"] (.file a)) := by
    rw [hdraft.resolve_eq]
    exact (Last.file rfl hdraft.toIsName rfl).walk _
  exact ⟨hresolve .keep, fileFor_ok_iff.mpr ⟨_, hresolve .make, .inl ⟨a, rfl⟩⟩⟩

/-- A path with the name of the draft is written in place, so a write that is cut at once leaves an
empty file. -/
theorem save_cutShort :
    let store : Store :=
      { nodes := [(["config.json.bak"], .file ⟨#[0]⟩)]
        faults := { write := fun _ _ => some (.cut 0 .noRoom) } }
    let p : Path := ⟨"config.json.bak"⟩
    let ended := Settings.save {} store p
    store.IsTree ∧ (∃ e, ended.result = .error e) ∧
      store.at? p = some ((["config.json.bak"] : Location), .file ⟨#[0]⟩) ∧
      ended.store.get? ["config.json.bak"] = some (.file ⟨#[]⟩) := by
  intro store p ended
  obtain ⟨hkeep, hfile⟩ := fileFor_draft ⟨#[0]⟩ store.faults
  have hparent : p.parent?.getD ⟨""⟩ = ⟨""⟩ ∧ draftFor p = p := by decide
  have hwrite : store.write p (toBytes (Settings.print {})) = .error .noRoom :=
    write_of_fileFor hfile
  have htorn : store.torn p (toBytes (Settings.print {})) =
      store.put ["config.json.bak"] (.file ((toBytes (Settings.print {})).extract 0 0)) :=
    torn_of_fileFor hfile
  have hcases := save_cases {} store p
  rw [hparent.1, hparent.2, prepareFolder_here] at hcases
  refine ⟨isTree_of_top (by simp [store]), ?_, at?_eq_some_iff.mpr hkeep, ?_⟩
  · rcases hcases with ⟨-, -, e, he⟩ | ⟨he, -⟩ | ⟨written, hwritten, -⟩
    · cases he
    · exact he
    · rw [hwrite] at hwritten
      cases hwritten
  · rcases hcases with ⟨-, -, e, he⟩ | ⟨-, hstore, -⟩ | ⟨written, hwritten, -⟩
    · cases he
    · rw [show ended.store = _ from hstore, htorn, get?_put_self _ _ (List.cons_ne_nil _ _),
        ByteArray.extract_eq_empty_iff.mpr (Nat.min_le_left _ _)]
      rfl
    · rw [hwrite] at hwritten
      cases hwritten

/-- A save at a folder fails, but the draft in it is written. -/
theorem save_inFolder :
    let store : Store := { nodes := [(["config.json.bak"], .file ⟨#[]⟩)] }
    let p : Path := ⟨"."⟩
    let ended := Settings.save {} store p
    store.IsTree ∧ (∃ e, ended.result = .error e) ∧ store.at? p = some ([], .folder) ∧
      ended.store.get? ["config.json.bak"] ≠ store.get? ["config.json.bak"] := by
  intro store p ended
  obtain ⟨-, hfile⟩ := fileFor_draft ⟨#[]⟩ {}
  have hparent : p.parent?.getD ⟨""⟩ = ⟨""⟩ ∧ draftFor p = ⟨"config.json.bak"⟩ := by decide
  have hlast : (Path.namesOf p.raw.bytes).getLast? = some ("." : RawText) := by decide
  obtain ⟨e, he⟩ : ∃ e, ended.result = .error e :=
    save_error_of_dots hlast fun h => absurd h.moves (by decide)
  refine ⟨isTree_of_top (by simp [store]), ⟨e, he⟩, ?_, ?_⟩
  · have hsteps : stepsOf p = (["."] : List RawText) := by decide
    rw [at?_eq_some_iff, resolve_eq_ok_iff, hsteps, walk_stay rfl (by decide)]
    exact ⟨by decide, walk_here rfl⟩
  · have hcases := save_cases {} store p
    rw [hparent.1, hparent.2, prepareFolder_here] at hcases
    rcases hcases with ⟨-, -, e, he⟩ | ⟨-, -, cause, hcause⟩ | ⟨written, hwritten, hends⟩
    · cases he
    · rw [write_of_fileFor hfile] at hcause
      cases hcause
    · obtain ⟨m, hm, -, rfl⟩ := write_ok_iff.mp hwritten
      obtain rfl := Except.ok.inj (hm.symm.trans hfile)
      rcases hends with ⟨-, hstore, -⟩ | ⟨hok, -⟩
      · rw [show ended.store = _ from hstore, get?_put_self _ _ (List.cons_ne_nil _ _)]
        intro heq
        have hblank := print_ne_blank {}
        have hbytes : toBytes (Settings.print {}) = toBytes [] :=
          Node.file.inj (Option.some.inj heq)
        have htext := congrArg ofBytes? hbytes
        rw [ofBytes?_toBytes, ofBytes?_toBytes] at htext
        rw [Option.some.inj htext] at hblank
        cases hblank
      · rw [he] at hok
        cases hok

end Promises

end Settings

end MdxMend
