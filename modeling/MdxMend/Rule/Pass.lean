import MdxMend.Rule.Basic
import MdxMend.Code.Fence
import MdxMend.Log
import MdxMend.Tally

/-!
# Passes: one rule over one text

A rule makes one pass over the matches in a text. Each match that the rule may change is replaced;
the rest of the text is copied. A fix is a match whose replacement differs from it, and a pass
without a fix gives no text. If a replacement fails the pass fails as a whole, whatever it had
replaced before.

Nothing is written before the first fix, and a match that is no fix is passed over: it is copied
with the text around it when the next fix or the end is reached.

Rules run one after the other on what the one before has left. A rule whose pass fails is skipped
with a warning.
-/

namespace MdxMend

/-- A text with its matches replaced and the number of fixes in it. -/
structure Replaced where
  text : Text
  fixes : Nat

/-- Which matches a rule may change, by their texts: all of them in prose, the opening ones among
fence lines. -/
def Scope.accepted (s : Scope) (texts : List Text) : List Bool :=
  match s with
  | .prose => texts.map fun _ => true
  | .fenceOpening => Fence.openers none texts

/-- A pass on its way: what has been written, if anything has, the number of bytes of the text for
which it stands, and the number of fixes. -/
structure Draft where
  written? : Option Text := none
  lastEnd : Nat := 0
  fixes : Nat := 0

namespace Draft

/-- Goes over the next match in `t`, given whether it may be changed. -/
def next (render : Match → Except RuleError Text) (t : Text) (d : Draft) (m : Match × Bool) :
    Except RuleError Draft :=
  if m.2 then
    match render m.1 with
    | .error e => .error e
    | .ok new =>
      if new = m.1.text then .ok d
      else .ok {
        written? := some (d.written?.getD [] ++ Text.slice t d.lastEnd m.1.start ++ new)
        lastEnd := m.1.stop
        fixes := d.fixes + 1 }
  else .ok d

/-- What comes of a pass over `t` when there are no more matches. -/
def finish (t : Text) (d : Draft) : Option Replaced :=
  d.written?.map fun written => ⟨written ++ Text.dropBytes d.lastEnd t, d.fixes⟩

end Draft

/-- A pass over matches in a text, given which of them may be changed: the new text, if anything was
fixed. -/
def passOver (render : Match → Except RuleError Text) (t : Text) (ms : List (Match × Bool)) :
    Except RuleError (Option Replaced) := do
  let d ← ms.foldlM (Draft.next render t) {}
  .ok (d.finish t)

/-- One pass of a rule over a text: the new text, if anything was fixed. -/
def Rule.pass (r : Rule) (t : Text) : Except RuleError (Option Replaced) :=
  let found := (r.pattern.scan t).hits.map (·.found)
  passOver r.replacement.render t (found.zip (r.scope.accepted (found.map (·.text))))

/-- A text on its way through rules, with what has been counted and logged. -/
structure Progress where
  text : Text
  tally : Tally := {}
  log : Log := []

/-- The warning about a rule whose pass failed. -/
def Rule.skipped (r : Rule) (e : RuleError) : Entry :=
  .warn .rules ("Rule '" ++ r.name ++ "' failed and was skipped: " ++ e.message)

/-- Takes a text through one rule. -/
def Rule.apply (p : Progress) (r : Rule) : Progress :=
  match r.pass p.text with
  | .ok none => p
  | .ok (some replaced) =>
    { p with text := replaced.text, tally := p.tally.record r.name replaced.fixes }
  | .error e => { p with log := p.log ++ [r.skipped e] }

/-- Takes a text through rules, in order. -/
def applyRules (rules : List Rule) (p : Progress) : Progress := rules.foldl Rule.apply p

end MdxMend
