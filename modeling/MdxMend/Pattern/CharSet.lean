import MdxMend.Text.Letters

/-!
# Sets of characters

What one position of a pattern may hold is a set of characters, built from single characters, ranges
and classes of Unicode by union, intersection, complement and closure under change of case.
-/

namespace MdxMend

/-- A set of characters, as it is written in a pattern. -/
inductive CharSet where
  | none
  | single (c : Char)
  | range (first last : Char)
  | blank
  | digit
  | word
  | union (s t : CharSet)
  | inter (s t : CharSet)
  | complement (s : CharSet)
  | anyCase (s : CharSet)
deriving DecidableEq, Repr

namespace CharSet

/-- Whether the set holds `c`. -/
def contains : CharSet → Char → Bool
  | none, _ => false
  | single d, c => c == d
  | range first last, c => decide (first ≤ c) && decide (c ≤ last)
  | blank, c => Text.isBlank c
  | digit, c => Text.isDecimal c
  | word, c => Text.isWordChar c
  | union s t, c => s.contains c || t.contains c
  | inter s t, c => s.contains c && t.contains c
  | complement s, c => !s.contains c
  | anyCase s, c => (Text.caseFamily c).any s.contains

/-- The union of sets. -/
def ofList : List CharSet → CharSet
  | [] => none
  | [s] => s
  | s :: sets => union s (ofList sets)

/-- The characters from `first` to `last`. -/
def between (first last : Char) : CharSet := if first = last then single first else range first last

/-- The character `c`, and if `ignoreCase` also those that differ from it in case only. -/
def ofChar (ignoreCase : Bool) (c : Char) : CharSet :=
  if ignoreCase && (Text.caseFamily c).any (· != c) then anyCase (single c) else single c

/-- The one character that the set was given as, if it was. -/
def single? : CharSet → Option Char
  | single c => some c
  | _ => Option.none

/-- All characters. -/
def all : CharSet := complement none

end CharSet

end MdxMend
