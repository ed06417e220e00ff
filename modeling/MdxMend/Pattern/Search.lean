import MdxMend.Pattern.Program
import MdxMend.Pattern.Scan

/-!
# Running a program

All ways in which a program may match are followed at once, one character after the other. A way is
a thread: the instruction it has come to, where it began, and the places it has marked. The threads
at a place stand in order of preference, and of those that come to one instruction at one place
only the first is kept; what the others would do it does as well. So the work at a place is bounded
by the size of the program, and the empty copies of a loop do not go round for ever.

When a thread accepts, those behind it are dropped and no new ones begin; those before it run on,
and may yet accept a match that is preferred.
-/

namespace MdxMend

/-- A way to match on its way: the instruction it has come to, the number of characters before it
began, and the slots it has marked with numbers of characters, the latest first. -/
structure Thread where
  state : Nat
  skip : Nat
  marks : List (Nat × Nat) := []

namespace Program

/-- Follows threads from a place, `passed` characters on, up to where they have to consume a
character or accept. `seen` holds for every instruction how far the place at which it was last
reached lies on, counted from one; `found` holds what was reached at this place, the least preferred
first. -/
def spread (g : Program) (p : Place) (passed : Nat) :
    Nat → List Thread → Array Nat → List Thread → Array Nat × List Thread
  | 0, _, seen, found => (seen, found)
  | _ + 1, [], seen, found => (seen, found)
  | fuel + 1, t :: stack, seen, found =>
    if seen.getD t.state 0 == passed + 1 then spread g p passed fuel stack seen found
    else
      let seen := seen.setIfInBounds t.state (passed + 1)
      match g.code[t.state]? with
      | some (.check a next) =>
        if p.meets a then spread g p passed fuel ({ t with state := next } :: stack) seen found
        else spread g p passed fuel stack seen found
      | some (.mark slot next) =>
        let marked := { t with state := next, marks := (slot, passed) :: t.marks }
        spread g p passed fuel (marked :: stack) seen found
      | some (.fork first second) =>
        let forked := { t with state := first } :: { t with state := second } :: stack
        spread g p passed fuel forked seen found
      | some _ => spread g p passed fuel stack seen (t :: found)
      | none => spread g p passed fuel stack seen found

/-- The number of steps that suffice for one thread: every instruction goes on at most twice. -/
def reach (g : Program) : Nat := 2 * g.code.size + 1

/-- The threads in front of the first that accepts, the most preferred first, and that one. `found`
holds all of them, the least preferred first. -/
def settle (g : Program) (ahead : List Thread) (accepting : Option Thread) :
    List Thread → List Thread × Option Thread
  | [] => (ahead, accepting)
  | t :: found =>
    match g.code[t.state]? with
    | some .accept => settle g [] (some t) found
    | _ => settle g (t :: ahead) accepting found

/-- Takes threads over a character, in order, to the place behind it. -/
def consume (g : Program) (c : Char) (p : Place) (passed : Nat) :
    List Thread → Array Nat → List Thread → Array Nat × List Thread
  | [], seen, found => (seen, found)
  | t :: threads, seen, found =>
    match g.code[t.state]? with
    | some (.consume set next) =>
      if set.contains c then
        let (seen, found) := g.spread p passed g.reach [{ t with state := next }] seen found
        consume g c p passed threads seen found
      else consume g c p passed threads seen found
    | _ => consume g c p passed threads seen found

/-- A thread that begins here joins those that are under way, unless there is a match already. -/
def enter (g : Program) (p : Place) (passed : Nat) (matched : Bool) (seen : Array Nat)
    (found : List Thread) : Array Nat × List Thread :=
  if matched then (seen, found)
  else g.spread p passed g.reach [{ state := g.start, skip := passed }] seen found

/-- The thread of the preferred match and the number of characters up to its end. `found` holds the
threads under way, the least preferred first, and `best` the best match so far. -/
def runFrom (g : Program) (passed : Nat) (seen : Array Nat) (found : List Thread)
    (best : Option (Thread × Nat)) (before : Option Char) : Text → Option (Thread × Nat)
  | [] =>
    let (_, found) := g.enter ⟨before, []⟩ passed best.isSome seen found
    ((g.settle [] none found).2.map (·, passed)).or best
  | c :: t =>
    let (seen, found) := g.enter ⟨before, c :: t⟩ passed best.isSome seen found
    let (ahead, accepting) := g.settle [] none found
    let best := (accepting.map (·, passed)).or best
    if ahead.isEmpty && best.isSome then best
    else
      let (seen, found) := g.consume c ⟨some c, t⟩ (passed + 1) ahead seen []
      runFrom g (passed + 1) seen found best (some c) t

/-- What a group matched, given the places that were marked and that the match starts `skip`
characters on. -/
def groupAt? (t : Text) (skip : Nat) (marks : List (Nat × Nat)) (index : Nat) : Option Group := do
  let first ← marks.lookup (2 * index)
  let last ← marks.lookup (2 * index + 1)
  some ⟨Text.byteLength ((t.drop skip).take (first - skip)), (t.drop first).take (last - first)⟩

/-- The first match from a place on. -/
def find? (g : Program) (p : Place) : Option (Nat × Sighting) :=
  (g.runFrom 0 (Array.replicate g.code.size 0) [] none p.before p.after).map fun (t, last) =>
    (t.skip, {
      length := last - t.skip
      groups := (List.range g.groups).filterMap fun i =>
        (groupAt? p.after t.skip t.marks (i + 1)).map ((i + 1, ·)) })

end Program

end MdxMend
