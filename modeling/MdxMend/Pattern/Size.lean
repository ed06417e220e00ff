import MdxMend.Pattern.Program

/-!
# How large the program of a pattern may become

Counted repetitions multiply, so a short pattern can stand for a very large program. The size of
the program is found on the tree, without building it, and a pattern whose program is too large is
refused. What is counted is the states of an automaton that reads UTF-8, in bytes: a state takes 32
bytes, and every way to go on from a state with several ways four or eight more. Characters beyond
ASCII take several states each, and a set that holds most of them takes about thirty.
-/

namespace MdxMend

/-- The size of one state. -/
def stateSize : Nat := 32

namespace CharSet

/-- The number of ranges in which a set of ASCII characters is given, or nothing for a set that may
hold others. -/
def asciiRanges? : CharSet → Option Nat
  | none => some 0
  | single c => if c.toNat < 0x80 then some 1 else Option.none
  | range _ last => if last.toNat < 0x80 then some 1 else Option.none
  | union s t => do some ((← s.asciiRanges?) + (← t.asciiRanges?))
  | inter s t => s.asciiRanges?.or t.asciiRanges?
  | anyCase (single c) =>
    if (Text.caseFamily c).all (·.toNat < 0x80) then some 2 else Option.none
  | blank | digit | word | complement _ | anyCase _ => Option.none

/-- The size of the states for the parts of a set that goes beyond ASCII. -/
def partSize : CharSet → Nat
  | none => 0
  | single c => (stateSize + 2) * c.utf8Size
  | range _ last => (stateSize + 2) * last.utf8Size
  | blank => 616
  | digit => 3000
  | word => 40000
  | union s t | inter s t => s.partSize + t.partSize
  | complement s => 936 + s.partSize
  | anyCase s => 3 * s.partSize

/-- The size of the states for one character of the set. -/
def size : CharSet → Nat
  | single c => stateSize * c.utf8Size
  | s =>
    match s.asciiRanges? with
    | some n => 2 * stateSize + 8 * n
    | Option.none => 2 * stateSize + s.partSize

end CharSet

namespace Node

/-- The size of the states of a node. -/
def size : Node → Nat
  | empty | anchor _ => stateSize
  | oneOf set => set.size
  | seq a b => a.size + b.size
  | alt a b => a.size + b.size + (if b.branches.length ≤ 1 then 72 else 4)
  | group _ body => 2 * stateSize + body.size
  | rep body 0 none _ => body.size + (if body.consumes then 40 else 112)
  | rep body (n + 1) none _ => (n + 1) * body.size + 40
  | rep body least (some most) _ =>
    least * body.size + (if least = 0 && most != 1 then 32 else 0) +
      (if most ≤ least then 0 else 32 + (most - least) * (body.size + 40))

/-- The size of the states around a whole pattern. -/
def frameSize : Nat := 240

/-- The largest size of the states of a pattern. -/
def maxSize : Nat := 10 * Nat.pow 2 20

/-- Whether the program of the node is too large. -/
def isTooLarge (n : Node) : Bool := decide (maxSize < n.size + frameSize)

end Node

end MdxMend
