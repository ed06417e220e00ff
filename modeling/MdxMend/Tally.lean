/-!
# Tallies of fixes

A tally counts the fixes of each rule, by name, and all of them together. A count of zero leaves no
trace, so the names in a tally are those of the rules that fixed something, in order.
-/

namespace MdxMend

/-- Fixes in total, and by the name of the rule. -/
structure Tally where
  total : Nat := 0
  byRule : List (String × Nat) := []
deriving DecidableEq, Repr

namespace Tally

/-- The tally of nothing. -/
def empty : Tally := {}

/-- Adds to the count of a name, in a list that is ordered by name. -/
def addCount (name : String) (n : Nat) : List (String × Nat) → List (String × Nat)
  | [] => [(name, n)]
  | (other, m) :: counts =>
    if name < other then (name, n) :: (other, m) :: counts
    else if name = other then (other, m + n) :: counts
    else (other, m) :: addCount name n counts

/-- Counts `n` more fixes of a rule. -/
def record (t : Tally) (name : String) (n : Nat) : Tally :=
  if n = 0 then t else ⟨t.total + n, addCount name n t.byRule⟩

/-- Counts all fixes of another tally as well. -/
def merge (t other : Tally) : Tally := other.byRule.foldl (fun t c => t.record c.1 c.2) t

/-- The number of fixes of a rule. -/
def count (t : Tally) (name : String) : Nat := (t.byRule.lookup name).getD 0

/-- Whether nothing was fixed. -/
def isEmpty (t : Tally) : Bool := t.total == 0

/-- The tally in one line, such as `3 fixes (a: 2, b: 1)`. -/
def summary (t : Tally) : String :=
  if t.byRule.isEmpty then "0 fixes"
  else
    let parts := t.byRule.map fun (name, n) => name ++ ": " ++ toString n
    let noun := if t.total = 1 then "fix" else "fixes"
    toString t.total ++ " " ++ noun ++ " (" ++ String.intercalate ", " parts ++ ")"

end Tally

end MdxMend
