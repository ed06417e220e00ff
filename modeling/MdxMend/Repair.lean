import MdxMend.Rule.Pass
import MdxMend.Rule.Builtin
import MdxMend.Code.Span
import MdxMend.Text.Quoted

/-!
# Repairing a document

A document is repaired in two phases. Fence rules go first and see the whole document, because a
language tag stands on the fence itself. Then the document is cut into spans, and prose rules go
over each stretch of prose; code is copied. If code is not to be kept the prose rules see the whole
document as one text.
-/

namespace MdxMend

/-- What a repair is to do: which rules there are and which of them are active, whether code is
kept, and whether the counts are logged. -/
structure Options where
  rules : Option (List Rule) := none
  enable : Option (List String) := none
  disable : List String := []
  keepCode : Bool := true
  debug : Bool := false

namespace Options

/-- The rules that the options choose from. -/
def ruleList (o : Options) : List Rule := o.rules.getD Builtin.rules

/-- The active rules. -/
def activeRules (o : Options) : List Rule := selectRules o.ruleList o.enable o.disable

/-- The active rules on fences. -/
def fenceRules (o : Options) : List Rule := o.activeRules.filter (·.scope == .fenceOpening)

/-- The active rules on prose. -/
def proseRules (o : Options) : List Rule := o.activeRules.filter (·.scope == .prose)

/-- The options in words. -/
def describe (o : Options) : String :=
  "PreprocessOptions \x7b rules: " ++
    quoteOption (fun rules => quoteList (rules.map Rule.name)) o.rules ++
    ", enable: " ++ quoteOption quoteList o.enable ++
    ", disable: " ++ quoteList o.disable ++
    ", preserve_code_blocks: " ++ toString o.keepCode ++
    ", on_stats: None, debug: " ++ toString o.debug ++ " \x7d"

end Options

/-- Takes the prose among spans through rules and copies the code. -/
def repairSpans (rules : List Rule) (tally : Tally) (log : Log) : List Span → Progress
  | [] => ⟨[], tally, log⟩
  | span :: spans =>
    let here : Progress :=
      match span with
      | .code t => ⟨t, tally, log⟩
      | .prose t => applyRules rules ⟨t, tally, log⟩
    let rest := repairSpans rules here.tally here.log spans
    { rest with text := here.text ++ rest.text }

/-- The log entry about the spans of a text. -/
def segmented (t : Text) (spans : List Span) : Entry :=
  .debug .repair ("Segmented " ++ toString (Text.byteLength t) ++ " bytes into " ++
    toString spans.length ++ " spans (" ++ toString (spans.countP Span.isCode) ++ " protected)")

/-- The first phase of a repair: fence rules on the whole document. -/
def repairFences (o : Options) (t : Text) : Progress := applyRules o.fenceRules { text := t }

/-- The second phase of a repair: prose rules on prose. -/
def repairProse (o : Options) (p : Progress) : Progress :=
  if o.proseRules.isEmpty then p
  else if o.keepCode then
    let spans := segment p.text
    repairSpans o.proseRules p.tally (p.log ++ [segmented p.text spans]) spans
  else applyRules o.proseRules p

/-- A tally as log entries: one for each rule and one for all. Nothing if nothing was fixed. -/
def Tally.entries (t : Tally) : Log :=
  if t.isEmpty then []
  else
    t.byRule.map (fun (name, n) =>
      .info .repair ("[mdx-preflight] " ++ name ++ ": " ++ toString n ++ " fix(es)")) ++
    [.info .repair ("[mdx-preflight] total: " ++ toString t.total ++ " fix(es)")]

/-- The result of a repair. -/
structure Repaired where
  text : Text
  tally : Tally
  log : Log

namespace Repaired

/-- Whether anything was fixed. -/
def changed (r : Repaired) : Bool := !r.tally.isEmpty

/-- What a listener for tallies is told: the tally of a repair that fixed something, and nothing
otherwise. -/
def notified (r : Repaired) : List Tally := if r.tally.isEmpty then [] else [r.tally]

end Repaired

/-- Repairs a document. -/
def repair (o : Options) (t : Text) : Repaired :=
  let p := repairProse o (repairFences o t)
  ⟨p.text, p.tally, p.log ++ if o.debug then p.tally.entries else []⟩

end MdxMend
