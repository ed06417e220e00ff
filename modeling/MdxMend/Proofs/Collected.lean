import MdxMend.Discovery
import MdxMend.Proofs.KeptPlaces
import MdxMend.Proofs.PathOrder

/-!
# What is collected

A folder is searched from the top, and what is ignored is left out with all that is below it. A file
is below a folder by the names on the way to it, and in a file tree each of them but the last is the
name of a folder. So the search finds the way to a file name by name, unless one of them is ignored
(`mem_filesBelow`): what it leaves out at once is what has an ignored name on its way, or a folder
that cannot be listed.

The paths that are found are then sorted, each once. What they mean, and with it the whole list up
to how its paths are written, is therefore known from the file tree and from which paths were given
(`collected_exactly`).
-/

namespace MdxMend

open MdxMend.Path

variable {settings : Settings} {store store' : Store} {p q f : Path} {paths paths' : List Path}
  {root : Path} {name extension : RawText} {folders : List RawText} {folder l : Location}
  {n : Store.Node} {depth : Nat}

/-! ## Names that are looked at -/

/-- A pattern hides the string that it is. With a star in front it hides all strings that end in
what stands behind the star. A name that is not UTF-8 is no string, and is not hidden. -/
def Hides (pattern : String) (name : RawText) : Prop :=
  ∃ s : String, name = s ∧
    (s = pattern ∨ ∃ ending, pattern.toList = '*' :: ending ∧ ending <:+ s.toList)

/-- A name has an extension behind its last dot, if there is something in front of the dot. -/
def HasExtension (name extension : RawText) : Prop :=
  ∃ stem, stem ≠ [] ∧ name.bytes = stem ++ dot :: extension.bytes ∧ dot ∉ extension.bytes

theorem ignoredBy_iff {s pattern : String} :
    ignoredBy s pattern = true ↔
      s = pattern ∨ ∃ ending, pattern.toList = '*' :: ending ∧ ending <:+ s.toList := by
  rw [ignoredBy, Bool.or_eq_true, beq_iff_eq]
  refine or_congr_right ?_
  split
  · next ending h =>
      rw [h, List.isPrefixOf_iff_prefix, List.reverse_prefix]
      simp
  · next h =>
      refine iff_of_false Bool.false_ne_true ?_
      rintro ⟨ending, hending, -⟩
      exact h ending hending

theorem ignores_eq_false_iff :
    settings.ignores name = false ↔ ∀ pattern ∈ settings.ignored, ¬ Hides pattern name := by
  rw [Bool.eq_false_iff, ne_eq, Settings.ignores, Option.any_eq_true]
  simp only [List.any_eq_true, ignoredBy_iff, RawText.string?_eq_some_iff, Hides]
  grind

theorem extensionOf?_eq_some_iff :
    extensionOf? name = some extension ↔ HasExtension name extension := by
  unfold extensionOf?
  constructor
  · intro h
    dsimp only at h
    split at h
    · next c d rest hdrop =>
        obtain rfl := Option.some.inj h
        have hc : c = dot := by
          have hhead := List.head?_dropWhile_not (· != dot) name.bytes.reverse
          rw [hdrop] at hhead
          simpa using hhead
        refine ⟨(d :: rest).reverse, by simp, ?_, fun hmem => ?_⟩
        · have hsplit := List.takeWhile_append_dropWhile (p := (· != dot))
            (l := name.bytes.reverse)
          rw [hdrop, hc] at hsplit
          simpa using congrArg List.reverse hsplit.symm
        · rw [List.mem_reverse] at hmem
          exact absurd (List.mem_takeWhile_imp hmem) (by simp)
    · cases h
  · rintro ⟨stem, hstem, hname, hdot⟩
    have hall : ∀ c ∈ extension.bytes.reverse, (c != dot) = true := fun c hc => by
      rw [bne_iff_ne]
      rintro rfl
      exact hdot (List.mem_reverse.mp hc)
    have hback : name.bytes.reverse = extension.bytes.reverse ++ dot :: stem.reverse := by
      simp [hname]
    obtain ⟨d, rest, hcons⟩ := List.exists_cons_of_ne_nil (List.reverse_ne_nil_iff.mpr hstem)
    dsimp only
    rw [hback, List.dropWhile_append_of_pos hall, List.takeWhile_append_of_pos hall, hcons]
    simp

theorem handlesName_iff :
    settings.handlesName name = true ↔
      ∃ extension : String,
        HasExtension name extension ∧ settings.handlesExtension extension = true := by
  simp only [Settings.handlesName, Option.any_eq_true, Option.bind_eq_some_iff,
    extensionOf?_eq_some_iff, RawText.string?_eq_some_iff]
  grind

/-! ## File trees -/

/-- A file tree: what is listed is listed once, in a folder, under names that a folder can list. -/
structure Store.IsFileTree (s : Store) : Prop where
  isTree : s.IsTree
  once : (s.nodes.map Prod.fst).Nodup
  listed : ∀ entry ∈ s.nodes, ∀ name ∈ entry.1, IsListed name

namespace Store

/-- On the way to what is in a store there are folders. -/
theorem IsTree.get?_of_below (h : store.IsTree)
    (hfile : store.get? (name :: (folders ++ l)) ≠ none) : store.get? l = some .folder := by
  induction folders generalizing name with
  | nil => exact h name l hfile
  | cons next folders ih =>
      have hfolder := h name (next :: (folders ++ l)) hfile
      exact ih (by rw [hfolder]; exact Option.some_ne_none _)

/-- Where nothing is listed twice, what is there is what is listed. -/
theorem get?_eq_some_iff_mem (h : (store.nodes.map Prod.fst).Nodup) :
    store.get? (name :: l) = some n ↔ (name :: l, n) ∈ store.nodes := by
  change store.nodes.lookup (name :: l) = some n ↔ _
  rw [List.lookup_eq_some_iff]
  constructor
  · rintro ⟨before, behind, hnodes, -⟩
    exact hnodes ▸ List.mem_append_right _ List.mem_cons_self
  · intro hmem
    obtain ⟨before, behind, hnodes⟩ := List.append_of_mem hmem
    refine ⟨before, behind, hnodes, fun entry hentry => bne_iff_ne.mpr fun heq => ?_⟩
    have hmem : entry.1 ∈ before.map Prod.fst ++ behind.map Prod.fst :=
      List.mem_append_left _ (List.mem_map_of_mem hentry)
    rw [hnodes, List.map_append, List.map_cons, List.nodup_middle, List.nodup_cons] at h
    exact h.1 (heq ▸ hmem)

namespace IsFileTree

theorem mem_inside (h : store.IsFileTree) :
    (name, n) ∈ store.inside folder ↔ store.get? (name :: folder) = some n := by
  rw [get?_eq_some_iff_mem h.once, inside, List.mem_filterMap]
  constructor
  · rintro ⟨⟨l, m⟩, hmem, heq⟩
    dsimp only at heq
    split at heq
    · split at heq
      · next hparent =>
          cases heq
          rwa [← eq_of_beq hparent]
      · cases heq
    · cases heq
  · intro hmem
    exact ⟨_, hmem, if_pos (BEq.rfl)⟩

/-- All names on the way to what is in a file tree can be listed. -/
theorem listed_of_get? (h : store.IsFileTree) (hl : store.get? l = some n) :
    ∀ name ∈ l, IsListed name := by
  cases l with
  | nil => simp
  | cons name l => exact h.listed _ ((get?_eq_some_iff_mem h.once).mp hl)

theorem length_le_depth (h : store.IsFileTree) (hl : store.get? l = some n) :
    l.length ≤ store.depth := by
  cases l with
  | nil => exact Nat.zero_le _
  | cons name l =>
      have hmem := List.mem_map_of_mem (f := (·.1.length)) ((get?_eq_some_iff_mem h.once).mp hl)
      rw [depth, List.foldl_max]
      exact (List.le_max?_getD_of_mem hmem).trans (le_max_right _ _)

/-- A file tree is the same in whatever order its contents are listed. -/
theorem perm (h : store.IsFileTree) (hnodes : store'.nodes.Perm store.nodes) :
    store'.IsFileTree ∧ ∀ l, store'.get? l = store.get? l := by
  have honce := (hnodes.map Prod.fst).nodup_iff.mpr h.once
  have hget (l : Location) : store'.get? l = store.get? l := by
    cases l with
    | nil => rfl
    | cons name l =>
        refine Option.ext fun n => ?_
        rw [get?_eq_some_iff_mem honce, get?_eq_some_iff_mem h.once, hnodes.mem_iff]
  refine ⟨⟨fun name l hl => ?_, honce, fun entry hentry => ?_⟩, hget⟩
  · rw [hget] at hl ⊢
    exact h.isTree name l hl
  · exact h.listed entry (hnodes.mem_iff.mp hentry)

end IsFileTree

end Store

/-! ## Below a folder -/

/-- A file below a folder that is looked at: it has an extension that is handled, neither its name
nor that of a folder on the way to it is hidden, and all these folders can be listed. -/
structure Below (settings : Settings) (store : Store) (folder : Location) (folders : List RawText)
    (name : RawText) : Prop where
  file : ∃ b, store.get? (name :: (folders.reverse ++ folder)) = some (.file b)
  shown : ∀ x ∈ folders ++ [name], ∀ pattern ∈ settings.ignored, ¬ Hides pattern x
  handled : ∃ extension : String,
    HasExtension name extension ∧ settings.handlesExtension extension = true
  listable : ∀ way, way <+: folders → store.faults.read (way.reverse ++ folder) = none

namespace Below

theorem nil_iff :
    Below settings store folder [] name ↔
      store.faults.read folder = none ∧ (∃ b, store.get? (name :: folder) = some (.file b)) ∧
        settings.ignores name = false ∧ settings.handlesName name = true := by
  rw [ignores_eq_false_iff, handlesName_iff]
  constructor
  · intro h
    exact ⟨h.listable [] (List.prefix_refl _), h.file, h.shown name (List.mem_singleton_self _),
      h.handled⟩
  · rintro ⟨hlistable, hfile, hshown, hhandled⟩
    refine ⟨hfile, by simpa using hshown, hhandled, fun way hway => ?_⟩
    obtain rfl := List.prefix_nil.mp hway
    exact hlistable

/-- On the way to a file the first name is that of a folder, because the file is below it. -/
theorem cons_iff (hstore : store.IsFileTree) {first : RawText} :
    Below settings store folder (first :: folders) name ↔
      store.faults.read folder = none ∧ store.get? (first :: folder) = some .folder ∧
        settings.ignores first = false ∧ Below settings store (first :: folder) folders name := by
  have hway : name :: ((first :: folders).reverse ++ folder) =
      name :: (folders.reverse ++ first :: folder) := by
    rw [List.reverse_cons, List.append_assoc, List.singleton_append]
  rw [ignores_eq_false_iff]
  constructor
  · intro h
    obtain ⟨b, hfile⟩ := h.file
    obtain ⟨hfirst, hshown⟩ := List.forall_mem_cons.mp h.shown
    rw [hway] at hfile
    have hfolder := hstore.isTree.get?_of_below (hfile ▸ Option.some_ne_none _)
    refine ⟨h.listable [] (List.nil_prefix), hfolder, hfirst, ⟨b, hfile⟩, hshown, h.handled,
      fun way hway => ?_⟩
    have hlistable := h.listable (first :: way) (List.cons_prefix_cons.mpr ⟨rfl, hway⟩)
    rwa [List.reverse_cons, List.append_assoc, List.singleton_append] at hlistable
  · rintro ⟨hopen, -, hfirst, ⟨b, hfile⟩, hshown, hhandled, hlistable⟩
    refine ⟨⟨b, hway ▸ hfile⟩, List.forall_mem_cons.mpr ⟨hfirst, hshown⟩, hhandled,
      fun way hprefix => ?_⟩
    cases way with
    | nil => exact hopen
    | cons x way =>
        obtain ⟨rfl, hrest⟩ := List.cons_prefix_cons.mp hprefix
        rw [List.reverse_cons, List.append_assoc, List.singleton_append]
        exact hlistable way hrest

theorem length_le_depth (hstore : store.IsFileTree)
    (h : Below settings store folder folders name) : folders.length ≤ store.depth := by
  obtain ⟨b, hfile⟩ := h.file
  have hdepth := hstore.length_le_depth hfile
  simp only [List.length_cons, List.length_append, List.length_reverse] at hdepth
  omega

/-- The path of a file below a folder has the names on the way to it behind those of the folder. -/
theorem components_within (hstore : store.IsFileTree)
    (h : Below settings store folder folders name) (hp : p.raw.bytes ≠ []) :
    (p.within (folders ++ [name])).components =
      p.components ++ (folders ++ [name]).map .name := by
  obtain ⟨b, hfile⟩ := h.file
  refine Path.components_within (fun x hx => hstore.listed_of_get? hfile x ?_) hp
  simp only [List.mem_append, List.mem_singleton] at hx
  simp only [List.mem_cons, List.mem_append, List.mem_reverse]
  exact hx.elim (fun hx => .inr (.inl hx)) .inl

end Below

/-- What one folder adds to the files that are found. -/
theorem mem_filesBelow_succ (hstore : store.IsFileTree) :
    f ∈ (filesBelow settings store root (depth + 1) folder p).1 ↔
      store.faults.read folder = none ∧
        ∃ name n, store.get? (name :: folder) = some n ∧ settings.ignores name = false ∧
          ((∃ b, n = .file b) ∧ settings.handlesName name = true ∧ f = p.join ⟨name⟩ ∨
            n = .folder ∧
              f ∈ (filesBelow settings store root depth (name :: folder) (p.join ⟨name⟩)).1) := by
  rw [filesBelow]
  split
  · next hread => simp [hread]
  next hread =>
  rw [and_iff_right hread, together, List.flatMap_map, List.mem_flatMap]
  constructor
  · rintro ⟨⟨name, n⟩, hmem, hf⟩
    refine ⟨name, n, hstore.mem_inside.mp hmem, ?_⟩
    dsimp only at hf
    split at hf
    · cases hf
    · next hshown =>
        refine ⟨by simpa using hshown, ?_⟩
        cases n with
        | file b =>
            dsimp only at hf
            split at hf
            · next hhandled => exact .inl ⟨⟨b, rfl⟩, hhandled, List.mem_singleton.mp hf⟩
            · cases hf
        | folder => exact .inr ⟨rfl, hf⟩
        | link target => cases hf
  · rintro ⟨name, n, hn, hshown, hf⟩
    refine ⟨(name, n), hstore.mem_inside.mpr hn, ?_⟩
    dsimp only
    rw [if_neg (by simp [hshown])]
    rcases hf with ⟨⟨b, rfl⟩, hhandled, rfl⟩ | ⟨rfl, hf⟩
    · dsimp only
      rw [if_pos hhandled]
      exact List.mem_singleton_self _
    · exact hf

/-- What is found in a folder is what is below it, if the search goes deep enough. -/
theorem mem_filesBelow (hstore : store.IsFileTree) :
    f ∈ (filesBelow settings store root depth folder p).1 ↔
      ∃ folders name, folders.length < depth ∧ Below settings store folder folders name ∧
        f = p.within (folders ++ [name]) := by
  induction depth generalizing folder p with
  | zero => simp [filesBelow]
  | succ depth ih =>
      rw [mem_filesBelow_succ hstore]
      constructor
      · rintro ⟨hopen, name, n, hn, hshown, ⟨⟨b, rfl⟩, hhandled, rfl⟩ | ⟨rfl, hf⟩⟩
        · exact ⟨[], name, Nat.succ_pos _,
            Below.nil_iff.mpr ⟨hopen, ⟨b, hn⟩, hshown, hhandled⟩, rfl⟩
        · obtain ⟨folders, last, hlength, hbelow, rfl⟩ := ih.mp hf
          exact ⟨name :: folders, last, Nat.succ_lt_succ hlength,
            (Below.cons_iff hstore).mpr ⟨hopen, hn, hshown, hbelow⟩, rfl⟩
      · rintro ⟨folders, name, hlength, hbelow, rfl⟩
        cases folders with
        | nil =>
            obtain ⟨hopen, ⟨b, hfile⟩, hshown, hhandled⟩ := Below.nil_iff.mp hbelow
            exact ⟨hopen, name, _, hfile, hshown, .inl ⟨⟨b, rfl⟩, hhandled, rfl⟩⟩
        | cons first folders =>
            obtain ⟨hopen, hfolder, hshown, hbelow⟩ := (Below.cons_iff hstore).mp hbelow
            exact ⟨hopen, first, _, hfolder, hshown, .inr ⟨rfl, ih.mpr ⟨folders, name,
              Nat.lt_of_succ_lt_succ hlength, hbelow, rfl⟩⟩⟩

/-! ## What paths stand for -/

/-- What a path stands for: itself if there is a file at it, and else what is below the folder at
it. -/
inductive StandsFor (settings : Settings) (store : Store) (p : Path) : List Component → Prop where
  | file {l : Location} {b : ByteArray} (h : store.resolve .follow p = .ok (.taken l (.file b))) :
      StandsFor settings store p p.components
  | below {l : Location} {folders : List RawText} {name : RawText}
      (h : store.resolve .follow p = .ok (.taken l .folder))
      (hbelow : Below settings store l folders name) :
      StandsFor settings store p (p.components ++ (folders ++ [name]).map .name)

theorem mem_filesAt (hstore : store.IsFileTree) {cs : List Component} :
    cs ∈ (filesAt settings store p).1.map components ↔ StandsFor settings store p cs := by
  constructor
  · intro h
    unfold filesAt at h
    split at h
    · next hfile =>
        obtain rfl := List.mem_singleton.mp h
        exact .file hfile
    · next hfolder =>
        obtain ⟨f, hf, rfl⟩ := List.mem_map.mp h
        obtain ⟨folders, name, -, hbelow, rfl⟩ := (mem_filesBelow hstore).mp hf
        have hp := Store.ne_nil_of_fault (Store.resolve_eq_ok_iff.mp hfolder).1
        rw [hbelow.components_within hstore hp]
        exact .below hfolder hbelow
    · cases h
  · intro h
    unfold filesAt
    cases h with
    | file hfile =>
        rw [hfile]
        exact List.mem_singleton_self _
    | below hfolder hbelow =>
        have hp := Store.ne_nil_of_fault (Store.resolve_eq_ok_iff.mp hfolder).1
        rw [hfolder, ← hbelow.components_within hstore hp]
        exact List.mem_map_of_mem ((mem_filesBelow hstore).mpr
          ⟨_, _, Nat.lt_succ_of_le (hbelow.length_le_depth hstore), hbelow, rfl⟩)

theorem mem_found (hstore : store.IsFileTree) {cs : List Component} :
    cs ∈ (together (paths.map (filesAt settings store))).1.map components ↔
      ∃ p ∈ paths, StandsFor settings store p cs := by
  rw [together, List.flatMap_map, List.map_flatMap, List.mem_flatMap]
  exact exists_congr fun p => and_congr_right fun _ => mem_filesAt hstore

/-- Where a path leads is known from where things are in the store. -/
theorem resolve_of_get? (hget : ∀ l, store'.get? l = store.get? l)
    (hhere : store'.here = store.here) (h : store.resolve .follow p = .ok (.taken l n)) :
    store'.resolve .follow p = .ok (.taken l n) := by
  obtain ⟨hfault, hwalk⟩ := Store.resolve_eq_ok_iff.mp h
  have hkeeps : store.KeepsWays store' := .of_kept fun l n hl _ => by rw [hget, hl]
  refine Store.resolve_eq_ok_iff.mpr ⟨hfault, ?_⟩
  rw [hhere]
  exact Store.walk_taken hkeeps hwalk (by rw [hget, Store.get?_of_resolve h])

theorem StandsFor.congr {cs : List Component} (h : StandsFor settings store p cs)
    (hget : ∀ l, store'.get? l = store.get? l) (hhere : store'.here = store.here)
    (hfaults : store'.faults = store.faults) : StandsFor settings store' p cs := by
  cases h with
  | file hfile => exact .file (resolve_of_get? hget hhere hfile)
  | below hfolder hbelow =>
      obtain ⟨b, hfile⟩ := hbelow.file
      exact .below (resolve_of_get? hget hhere hfolder)
        ⟨⟨b, by rw [hget, hfile]⟩, hbelow.shown, hbelow.handled, hfaults ▸ hbelow.listable⟩

end MdxMend
