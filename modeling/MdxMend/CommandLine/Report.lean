import MdxMend.Rule.Builtin
import MdxMend.Json.Value
import MdxMend.Tally

/-!
# Reports

What a run shows besides repaired texts and its log: the list of rules, and statistics.
-/

namespace MdxMend

/-- A rule as a JSON value. -/
def Rule.toJson (r : Rule) : Json.Value :=
  .object [
    ("name", .string r.name),
    ("description", .string r.description),
    ("pattern", .string r.pattern.source),
    ("replacementKind", .string r.replacement.kind),
    ("scope", .string r.scope.label),
    ("defaultEnabled", .bool r.enabledByDefault)]

/-- A tally as a JSON value. -/
def Tally.toJson (t : Tally) : Json.Value :=
  .object [
    ("totalFixes", .number t.total),
    ("byRuleName", .object (t.byRule.map fun (name, n) => (name, .number n)))]

namespace CommandLine

/-- A text filled up with spaces to a width. -/
def padded (width : Nat) (s : String) : Text :=
  s.toList ++ List.replicate (width - s.length) ' '

/-- A rule as one line of a list: name, scope and description in columns. -/
def ruleLine (r : Rule) : Text :=
  padded 32 r.name ++ [' '] ++ padded 14 r.scope.label ++ [' '] ++ r.description.toList ++ ['\n']

/-- The list of rules, as lines or as JSON. -/
def ruleList (json : Bool) (rules : List Rule) : Text :=
  if json then (Json.Value.list (rules.map Rule.toJson)).wide 0 ++ ['\n']
  else rules.flatMap ruleLine

end CommandLine

end MdxMend
