import MdxMend.Rule.Basic

/-!
# Selecting rules

The active rules of a run are given by two lists of names. With the first, exactly the rules it
names are active; without it, those that are enabled by default. The second takes names away
again. Names of no rule change nothing.
-/

namespace MdxMend

/-- Whether a rule is active, given the names to enable, if any, and the names to disable. -/
def Rule.isActive (enable : Option (List String)) (disable : List String) (r : Rule) : Bool :=
  (match enable with
    | some names => names.contains r.name
    | none => r.enabledByDefault) &&
  !disable.contains r.name

/-- The active rules, in the order given. -/
def selectRules (rules : List Rule) (enable : Option (List String)) (disable : List String) :
    List Rule :=
  rules.filter (·.isActive enable disable)

end MdxMend
