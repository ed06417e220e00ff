import MdxMend.Failure
import MdxMend.Path

/-!
# A store of files

The files that a run works on are a value. A store gives what there is at each location: a file, a
folder, or a link to a path. A location is the way from the root, and is written from its end: a
name in front of the location of its folder. The root is always a folder.

Not everything that is there can be used. The faults of a store say what goes wrong at which
location: a file that cannot be read, a write that is refused or stops half way, a folder that
cannot be made, a move that is refused. They belong to the locations, whatever is put there.
-/

namespace MdxMend

/-- A place in a store: the names on the way from it up to the root. -/
abbrev Location := List RawText

/-- What there is at a location. -/
inductive Store.Node where
  | file (bytes : ByteArray)
  | folder
  | link (target : Path)

instance Store.decideNode : DecidableEq Store.Node
  | .file a, .file b =>
    match ByteArray.instDecidableEq a b with
    | isTrue h => isTrue (congrArg _ h)
    | isFalse h => isFalse fun heq => h (Store.Node.file.inj heq)
  | .link p, .link q =>
    match decEq p q with
    | isTrue h => isTrue (congrArg _ h)
    | isFalse h => isFalse fun heq => h (Store.Node.link.inj heq)
  | .folder, .folder => isTrue rfl
  | .file _, .folder | .file _, .link _ | .folder, .file _ | .folder, .link _ | .link _, .file _
  | .link _, .folder => isFalse nofun

/-- How a write goes wrong: it is refused before anything happens, or it stops when so many bytes
have been written. -/
inductive Store.WriteFault where
  | refused (cause : IoCause)
  | cut (size : Nat) (cause : IoCause)
deriving DecidableEq, Repr

/-- Why a write went wrong. -/
def Store.WriteFault.cause : Store.WriteFault → IoCause
  | refused cause | cut _ cause => cause

/-- What goes wrong in a store: why a file cannot be read or a folder listed, how a write of bytes
goes wrong, why a folder cannot be made, and why something cannot be moved from one location to
another. -/
structure Store.Faults where
  read : Location → Option IoCause := fun _ => none
  write : Location → ByteArray → Option Store.WriteFault := fun _ _ => none
  make : Location → Option IoCause := fun _ => none
  move : Location → Location → Option IoCause := fun _ _ => none

/-- A store: what there is at which location, the folder that relative paths start from, and what
goes wrong. -/
structure Store where
  nodes : List (Location × Store.Node) := []
  here : Location := []
  faults : Store.Faults := {}

namespace Store

/-- What there is at a location. -/
def get? (s : Store) (l : Location) : Option Node :=
  if l.isEmpty then some .folder else s.nodes.lookup l

/-- Takes away what there is at a location. -/
def remove (s : Store) (l : Location) : Store :=
  { s with nodes := s.nodes.filter (·.1 != l) }

/-- Puts something at a location, in place of what there was. -/
def put (s : Store) (l : Location) (n : Node) : Store :=
  { s with nodes := (l, n) :: (s.remove l).nodes }

theorem lookup_filter_ne {l m : Location} (h : l ≠ m) (nodes : List (Location × Node)) :
    (nodes.filter (·.1 != m)).lookup l = nodes.lookup l := by
  induction nodes with
  | nil => rfl
  | cons entry nodes ih =>
    obtain ⟨k, n⟩ := entry
    by_cases hk : k = m
    · have hl : (l == k) = false := by rw [hk]; exact beq_false_of_ne h
      simp [hk, List.lookup_cons, ih, hk ▸ hl]
    · simp [hk, List.lookup_cons, ih]

/-- What is put at a location is there. -/
theorem get?_put_self (s : Store) {l : Location} (n : Node) (h : l ≠ []) :
    (s.put l n).get? l = some n := by
  simp [get?, put, h]

/-- What is put at a location changes nothing elsewhere. -/
theorem get?_put_of_ne (s : Store) {l m : Location} (n : Node) (h : l ≠ m) :
    (s.put m n).get? l = s.get? l := by
  have hl : (l == m) = false := beq_false_of_ne h
  simp [get?, put, remove, List.lookup_cons, hl, lookup_filter_ne h]

/-- What is taken away from a location is missing nowhere else. -/
theorem get?_remove_of_ne (s : Store) {l m : Location} (h : l ≠ m) :
    (s.remove m).get? l = s.get? l := by
  simp [get?, remove, lookup_filter_ne h]

/-- The names in a folder and what there is at each. -/
def inside (s : Store) (folder : Location) : List (RawText × Node) :=
  s.nodes.filterMap fun (l, n) =>
    match l with
    | name :: parent => if parent == folder then some (name, n) else none
    | [] => none

/-- The length of the longest location of a store. -/
def depth (s : Store) : Nat := (s.nodes.map (·.1.length)).foldl max 0

/-- All that is below a folder: the names that lead to it as they are shown, and what it is. A
folder comes before its contents, and names in the order of their bytes. -/
def below (s : Store) (folder : Location) : List (List String × Node) :=
  let found := s.nodes.filterMap fun (l, n) =>
    if l.length > folder.length && l.drop (l.length - folder.length) == folder then
      some ((l.take (l.length - folder.length)).reverse, n)
    else none
  (found.mergeSort fun a b => (compare a.1 b.1).isLE).map fun (names, n) =>
    (names.map RawText.shown, n)

end Store

end MdxMend
