import MdxMend.Pattern.Fault

/-!
# How deep a pattern is nested

A pattern may be nested to a certain depth only. What counts are parentheses, repetitions, choices
between several branches, sequences of several items, classes and the lists of members in them; a
single item is no sequence. An outline of the pattern keeps just these, each with its stretch.
-/

namespace MdxMend.Pattern

/-- What is nested in a pattern. -/
inductive Outline where
  | leaf
  | nested (stretch : Stretch) (parts : List Outline)

namespace Outline

/-- Several parts as one; a single part stands for itself. -/
def several (stretch : Stretch) : List Outline → Outline
  | [] => leaf
  | [o] => o
  | parts => nested stretch parts

/-- The depth to which a pattern may be nested. -/
def maxDepth : Nat := 250

mutual

/-- The first part that is nested deeper than `room` allows. -/
def beyond? : Nat → Outline → Option Stretch
  | _, leaf => none
  | 0, nested stretch _ => some stretch
  | room + 1, nested _ parts => firstBeyond? room parts

/-- The first part of a list that is nested deeper than `room` allows. -/
def firstBeyond? : Nat → List Outline → Option Stretch
  | _, [] => none
  | room, o :: parts => (beyond? room o).or (firstBeyond? room parts)

end

end Outline

end MdxMend.Pattern
