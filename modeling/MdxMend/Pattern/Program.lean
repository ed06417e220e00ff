import MdxMend.Pattern.Node

/-!
# Patterns as programs

A program is what a tree comes down to when it is matched: numbered instructions, each with the
number of the one that follows. A fork has two followers and prefers the first. Every copy of a
repeated node has instructions of its own, so the size of a program follows from the tree.

A loop is a fork behind its body that leads back to it. If every copy of the body consumes
something, the fork is the entrance as well. If a copy may be empty, a second fork in front decides
whether to enter at all: the entrance would otherwise be reached again by an empty copy, and what
comes behind the loop would be tried too early.
-/

namespace MdxMend

/-- An instruction: consume a character of a set, check an anchor, mark the place, fork, or end with
a match. -/
inductive Instruction where
  | consume (set : CharSet) (next : Nat)
  | check (a : Anchor) (next : Nat)
  | mark (slot : Nat) (next : Nat)
  | fork (first second : Nat)
  | accept
deriving Repr

/-- Instructions, by number. -/
abbrev Code := Array Instruction

/-- Adds instructions that go on at the given number. The result is where they begin. -/
abbrev Emit := Nat → Code → Nat × Code

namespace Emit

/-- Adds one instruction. -/
def one (i : Instruction) (code : Code) : Nat × Code := (code.size, code.push i)

/-- The fork between more copies and what follows, in order of preference. -/
def decision (greedy : Bool) (more next : Nat) : Instruction :=
  if greedy then .fork more next else .fork next more

/-- Exactly `n` copies, the last of them first. -/
def times (emit : Emit) : Nat → Emit
  | 0, next, code => (next, code)
  | n + 1, next, code =>
    let (begin, code) := emit next code
    times emit n begin code

/-- Up to `n` copies, the last of them first. Each may be skipped with all that follow it: `stop` is
where the copies end. -/
def upTo (emit : Emit) (greedy : Bool) (stop : Nat) : Nat → Emit
  | 0, next, code => (next, code)
  | n + 1, next, code =>
    let (begin, code) := emit next code
    let (entrance, code) := one (decision greedy begin stop) code
    upTo emit greedy stop n entrance code

/-- A body and a fork behind it that leads back: where the body begins, and the fork. -/
def loop (emit : Emit) (greedy : Bool) (next : Nat) (code : Code) : Nat × Nat × Code :=
  let fork := code.size
  let (begin, code) := emit fork (code.push .accept)
  (begin, fork, code.setIfInBounds fork (decision greedy begin next))

/-- Any number of copies. `consumes` tells that none of them is empty. -/
def many (emit : Emit) (consumes greedy : Bool) : Emit := fun next code =>
  let (begin, fork, code) := loop emit greedy next code
  if consumes then (fork, code) else one (decision greedy begin next) code

/-- At least `n + 1` copies. -/
def atLeast (emit : Emit) (greedy : Bool) (n : Nat) : Emit := fun next code =>
  let (begin, _, code) := loop emit greedy next code
  times emit n begin code

end Emit

/-- The instructions of a node. Group `i` marks its start in slot `2 * i` and its end in the slot
behind. -/
def Node.emit : Node → Emit
  | empty, next, code => (next, code)
  | oneOf set, next, code => Emit.one (.consume set next) code
  | anchor a, next, code => Emit.one (.check a next) code
  | seq a b, next, code =>
    let (middle, code) := b.emit next code
    a.emit middle code
  | alt a b, next, code =>
    let (first, code) := a.emit next code
    let (second, code) := b.emit next code
    Emit.one (.fork first second) code
  | group i body, next, code =>
    let (last, code) := Emit.one (.mark (2 * i + 1) next) code
    let (begin, code) := body.emit last code
    Emit.one (.mark (2 * i) begin) code
  | rep body 0 none greedy, next, code => Emit.many body.emit body.consumes greedy next code
  | rep body (n + 1) none greedy, next, code => Emit.atLeast body.emit greedy n next code
  | rep body least (some most) greedy, next, code =>
    let (begin, code) := Emit.upTo body.emit greedy next (most - least) next code
    Emit.times body.emit least begin code

/-- A program: its instructions, the first of them to run, and the number of its groups. -/
structure Program where
  code : Code
  start : Nat
  groups : Nat

/-- The program of a node. -/
def Program.ofNode (n : Node) (groups : Nat) : Program :=
  let (start, code) := n.emit 0 #[.accept]
  { code, start, groups }

end MdxMend
