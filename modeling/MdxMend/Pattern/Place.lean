import MdxMend.Text.Letters

/-!
# Places in a text

A pattern is matched at a place: between what has been read and what is still to come. Of what has
been read only the last character matters, since an anchor looks no further than one character to
either side.
-/

namespace MdxMend

/-- A condition on a place between two characters. -/
inductive Anchor where
  | textStart
  | textEnd
  | lineStart
  | lineEnd
  | wordBoundary
  | wordInside
  | wordStart
  | wordEnd
deriving DecidableEq, Repr

/-- A place in a text: the character in front of it, if any, and what is still to come. -/
structure Place where
  before : Option Char
  after : Text
deriving DecidableEq, Repr

namespace Place

/-- The place in front of a whole text. -/
def start (t : Text) : Place := ⟨none, t⟩

/-- The place `n` characters on. -/
def advance (p : Place) (n : Nat) : Place :=
  ⟨(p.after.take n).getLast?.or p.before, p.after.drop n⟩

/-- Whether a word reaches up to the place from the left. -/
def isBehindWord (p : Place) : Bool := p.before.any Text.isWordChar

/-- Whether a word goes on from the place to the right. -/
def isBeforeWord (p : Place) : Bool := p.after.head?.any Text.isWordChar

/-- Whether an anchor holds at a place. Lines end at line feeds only. -/
def meets (p : Place) : Anchor → Bool
  | .textStart => p.before.isNone
  | .textEnd => p.after.isEmpty
  | .lineStart => p.before.isNone || p.before == some '\n'
  | .lineEnd => p.after.isEmpty || p.after.head? == some '\n'
  | .wordBoundary => p.isBehindWord != p.isBeforeWord
  | .wordInside => p.isBehindWord == p.isBeforeWord
  | .wordStart => !p.isBehindWord && p.isBeforeWord
  | .wordEnd => p.isBehindWord && !p.isBeforeWord

@[simp] theorem after_start (t : Text) : (start t).after = t := rfl

@[simp] theorem after_advance (p : Place) (n : Nat) : (p.advance n).after = p.after.drop n := rfl

end Place

end MdxMend
