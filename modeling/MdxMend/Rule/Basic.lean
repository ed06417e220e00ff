import MdxMend.Pattern.Template

/-!
# Rules

A rule pairs a pattern with a replacement, under a name by which it is selected and counted. Its
scope says which text it sees: prose rules are given stretches of prose, fence rules the whole
document, of which they may change opening fences only.
-/

namespace MdxMend

/-- Why a replacement could not be computed. -/
structure RuleError where
  message : String
deriving DecidableEq, Repr

/-- What a match is replaced with: text from a template, or the result of a computation, which may
fail. -/
inductive Replacement where
  | template (t : Template)
  | compute (f : Match → Except RuleError Text)

namespace Replacement

/-- The replacement of one match. -/
def render (r : Replacement) (m : Match) : Except RuleError Text :=
  match r with
  | template t => .ok (t.expand m)
  | compute f => f m

/-- The kind of a replacement, as listings name it. -/
def kind : Replacement → String
  | template _ => "template"
  | compute _ => "function"

end Replacement

/-- The text that a rule sees. -/
inductive Scope where
  | prose
  | fenceOpening
deriving DecidableEq, Repr

/-- A scope as listings name it. -/
def Scope.label : Scope → String
  | prose => "prose"
  | fenceOpening => "fence-opening"

/-- A rule. One that is not enabled by default runs only when it is named. -/
structure Rule where
  name : String
  description : String
  pattern : Pattern
  replacement : Replacement
  scope : Scope := .prose
  enabledByDefault : Bool := true

end MdxMend
