import MdxMend.Text.Raw

/-!
# Paths

A path is kept as it was written, because that is how it is shown, and is bytes like the names in
it. What it means is its components: a slash at the front is the root, a dot at the front is the
folder one is in, and every other piece between slashes is a step up or a name. Empty pieces, and
dots behind the front, mean nothing.

Paths are compared by their components, so paths that are written differently can be equal, and a
folder's contents stand together in the order: `a/z.md` comes before `a b.md`.
-/

namespace MdxMend

/-- A path as it was written. -/
structure Path where
  ofRaw ::
  raw : RawText
deriving DecidableEq, Repr, Inhabited

/-- A component of a path. -/
inductive Path.Component where
  | root
  | here
  | up
  | name (r : RawText)
deriving DecidableEq, Repr

namespace Path

/-- The path that a string is. -/
def mk (s : String) : Path := ⟨s⟩

/-- A path as it is shown. -/
def text (p : Path) : String := p.raw.shown

/-- Whether there is nothing in a path. -/
def isEmpty (p : Path) : Bool := p.raw.bytes.isEmpty

/-! ## Components -/

/-- The byte that separates names. -/
@[match_pattern] abbrev slash : UInt8 := 0x2f

/-- The byte of a dot. -/
@[match_pattern] abbrev dot : UInt8 := 0x2e

/-- The pieces of bytes between slashes. -/
def piecesOf (bytes : List UInt8) : List (List UInt8) := Text.split slash bytes

/-- Pieces put together again, with slashes between them. -/
def joinPieces (pieces : List (List UInt8)) : List UInt8 := [slash].intercalate pieces

/-- Whether a piece behind the front of a path means anything. -/
def isStep (piece : List UInt8) : Bool := piece != [] && piece != [dot]

/-- The front of a path, if it means anything by itself: as a component, as it is written, and what
is written behind it. -/
def front (bytes : List UInt8) : Option Component × List UInt8 × List UInt8 :=
  match bytes with
  | slash :: rest => (some .root, [slash], rest)
  | [dot] => (some .here, [dot], [])
  | dot :: slash :: rest => (some .here, [dot], slash :: rest)
  | _ => (none, [], bytes)

/-- What a piece behind the front of a path means. -/
def stepOf (piece : List UInt8) : Component := if piece == [dot, dot] then .up else .name ⟨piece⟩

/-- What a path means. -/
def components (p : Path) : List Component :=
  let (first, _, rest) := front p.raw.bytes
  first.toList ++ ((piecesOf rest).filter isStep).map stepOf

/-! ## Order -/

namespace Component

/-- The kinds of components in their order. -/
def rank : Component → Nat
  | root => 0
  | here => 1
  | up => 2
  | name _ => 3

/-- The name of a component, if it has one. -/
def label : Component → RawText
  | name r => r
  | _ => ""

/-- Components are ordered by their kind and names by their bytes. -/
def compare : Component → Component → Ordering := compareLex (compareOn rank) (compareOn label)

end Component

/-- Paths are ordered by their components. -/
def compare (p q : Path) : Ordering := List.compareLex Component.compare p.components q.components

/-- Whether two paths have the same components. -/
def same (p q : Path) : Bool := p.components == q.components

/-- Paths in order, without those that are equal to the one before them. -/
def dropRepeats : List Path → List Path
  | [] => []
  | p :: paths => p :: dropRepeats (paths.dropWhile (same p))
termination_by paths => paths.length
decreasing_by
  have := (List.dropWhile_sublist (same p) (l := paths)).length_le
  simp only [List.length_cons]
  omega

/-- The paths of a list in their order, each once. Of equal paths the first is kept. -/
def sortDistinct (paths : List Path) : List Path :=
  dropRepeats (paths.mergeSort fun p q => (compare p q).isLE)

/-! ## Folders and names -/

/-- Whether a path starts at the root. -/
def isAbsolute (p : Path) : Bool := p.raw.bytes.head? == some slash

/-- A path read from another. A slash is put between them if there is none. -/
def join (p q : Path) : Path :=
  if q.isAbsolute then q
  else if p.isEmpty || p.raw.bytes.getLast? == some slash then ⟨p.raw ++ q.raw⟩
  else ⟨p.raw ++ "/" ++ q.raw⟩

/-- Pieces without those at the end that mean nothing. -/
def trimPieces (pieces : List (List UInt8)) : List (List UInt8) :=
  (pieces.reverse.dropWhile fun piece => !isStep piece).reverse

/-- The path without its last component. Of the root and of the empty path there is none. -/
def parent? (p : Path) : Option Path :=
  let (first, written, rest) := front p.raw.bytes
  match trimPieces (piecesOf rest), first with
  | [], some .here => some ⟨""⟩
  | [], _ => none
  | pieces, _ => some ⟨⟨written ++ joinPieces (trimPieces pieces.dropLast)⟩⟩

/-- The extension of a file name: what stands behind its last dot, unless the dot comes first or
there is none. -/
def extensionOf? (name : RawText) : Option RawText :=
  let backward := name.bytes.reverse
  match backward.dropWhile (· != dot) with
  | _ :: _ :: _ => some ⟨(backward.takeWhile (· != dot)).reverse⟩
  | _ => none

end Path

end MdxMend
