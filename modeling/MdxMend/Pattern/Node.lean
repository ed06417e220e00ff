import MdxMend.Pattern.CharSet
import MdxMend.Pattern.Place

/-!
# Patterns as trees

A pattern is a tree of one-character sets, anchors, sequences, choices, numbered groups and
repetitions. Choices and repetitions are ordered: of several ways to match, the first that leads to
a match of the whole pattern is taken.

Trees are kept in a plain form. A sequence holds no empty part and no sequence as its first part, a
choice no choice as its first branch; a choice between single characters or between sets is one
set; what all branches of a choice begin with is taken out of it; and what can only match the empty
text is repeated at most once. `Node.concat`, `Node.choice` and `Node.repeated` build this form.
-/

namespace MdxMend

/-- A pattern. A repetition asks for at least `least` and, if `most` is given, at most that many
copies; `greedy` tells whether it tries more copies before fewer. -/
inductive Node where
  | empty
  | oneOf (set : CharSet)
  | anchor (a : Anchor)
  | seq (first second : Node)
  | alt (first second : Node)
  | group (index : Nat) (body : Node)
  | rep (body : Node) (least : Nat) (most : Option Nat) (greedy : Bool)
deriving DecidableEq, Repr

namespace Node

/-- Whether the node can match nothing but the empty text. -/
def isZeroWidth : Node → Bool
  | empty | anchor _ => true
  | oneOf _ => false
  | seq a b | alt a b => a.isZeroWidth && b.isZeroWidth
  | group _ body | rep body _ _ _ => body.isZeroWidth

/-- Whether every match of the node consumes something. -/
def consumes : Node → Bool
  | empty | anchor _ => false
  | oneOf _ => true
  | seq a b => a.consumes || b.consumes
  | alt a b => a.consumes && b.consumes
  | group _ body => body.consumes
  | rep body least _ _ => decide (0 < least) && body.consumes

/-! ## Sequences -/

/-- The parts of a sequence. -/
def parts : Node → List Node
  | empty => []
  | seq a b => a :: b.parts
  | n => [n]

/-- A sequence of parts, none of which is empty or a sequence. -/
def ofParts : List Node → Node
  | [] => empty
  | [n] => n
  | n :: nodes => seq n (ofParts nodes)

/-- Nodes one after the other. -/
def concat (nodes : List Node) : Node := ofParts (nodes.flatMap parts)

/-! ## Choices -/

/-- The branches of a choice. -/
def branches : Node → List Node
  | alt a b => a :: b.branches
  | n => [n]

/-- A choice between branches, the first of them preferred, none of them a choice. -/
def ofBranches : List Node → Node
  | [] => empty
  | [n] => n
  | n :: nodes => alt n (ofBranches nodes)

/-- The set of a node that is one. -/
def set? : Node → Option CharSet
  | oneOf s => some s
  | _ => none

/-- The one character that a node stands for. -/
def char? (n : Node) : Option Char := n.set?.bind CharSet.single?

/-- One set for several branches, if all of them are characters or all of them are other sets. -/
def mergedSet? (nodes : List Node) : Option CharSet :=
  let chars := nodes.countP (·.char?.isSome)
  if nodes.length ≤ 1 || (chars != 0 && chars != nodes.length) then none
  else (nodes.mapM set?).map CharSet.ofList

/-- A choice between nodes that has no common beginning to take out. -/
def plainChoice (nodes : List Node) : Node :=
  let all := nodes.flatMap branches
  match mergedSet? all with
  | some s => oneOf s
  | none => ofBranches all

/-- The parts of a sequence in units: characters that follow each other are one unit. -/
def units : List Node → List (List Node)
  | [] => []
  | n :: nodes =>
    match units nodes with
    | (m :: unit) :: rest =>
      if n.char?.isSome && m.char?.isSome then (n :: m :: unit) :: rest
      else [n] :: (m :: unit) :: rest
    | rest => [n] :: rest

/-- What two lists begin with. -/
def commonPrefix {α : Type} [DecidableEq α] : List α → List α → List α
  | a :: as, b :: bs => if a = b then a :: commonPrefix as bs else []
  | _, _ => []

/-- What all lists begin with. -/
def sharedPrefix {α : Type} [DecidableEq α] : List (List α) → List α
  | [] => []
  | l :: lists => lists.foldl commonPrefix l

/-- A choice between nodes, the first of them preferred. If every branch is a sequence of at least
two units, the units that all begin with stand in front of the choice. -/
def choice (nodes : List Node) : Node :=
  let all := nodes.flatMap branches
  let sequences := all.map fun n => units n.parts
  let lead := sharedPrefix sequences
  if all.length ≤ 1 || (mergedSet? all).isSome || lead.isEmpty || sequences.any (·.length ≤ 1) then
    plainChoice nodes
  else
    let rests := sequences.map fun s => ofParts (s.drop lead.length).flatten
    concat (lead.flatten ++ [plainChoice rests])

/-! ## Repetitions -/

/-- Between `least` and `most` copies of a node. -/
def repeated (n : Node) (least : Nat) (most : Option Nat) (greedy : Bool) : Node :=
  let least := if n.isZeroWidth then min least 1 else least
  let most := if n.isZeroWidth then some (min (most.getD 1) 1) else most
  if most = some 0 && least == 0 then empty
  else if most = some 1 && least == 1 then n
  else rep n least most greedy

end Node

end MdxMend
