import MdxMend.Log
import MdxMend.Pattern.Reader

/-!
# Filters on the log

A filter is a list of directives, each of which gives a threshold to all topics whose names begin
in a certain way. Of the directives that are about a topic the one with the longest beginning
counts, and of several with beginnings of one length the last. A filter can also hold a pattern
that messages have to match.

A filter is written as directives with commas between them, then perhaps a slash and the pattern.
What cannot be read is passed over with a warning.
-/

namespace MdxMend

/-- The name by which filters know a topic. -/
def Topic.name : Topic → String
  | run => "mdx_preflight"
  | repair => "mdx_preflight::preprocess"
  | rules => "mdx_preflight::preprocess::engine"
  | discovery => "mdx_preflight::files::discovery"
  | file => "mdx_preflight::files::rewrite"
  | settings => "mdx_preflight::config::persistence"
  | failure => "mdx_preflight::error"

/-- The entry as it is shown: what follows a line break in it is indented. -/
def Entry.display (e : Entry) : String :=
  "\n    ".intercalate ((Text.split '\n' e.line.toList).map String.ofList)

namespace CommandLine

/-- The least important level whose entries are shown, or that none are. -/
abbrev Threshold := Option Level

namespace Threshold

/-- Whether an entry is shown. -/
def shows (t : Threshold) (e : Entry) : Bool := t.any (e.level.rank ≤ ·.rank)

/-- The threshold that shows everything. -/
def everything : Threshold := some .trace

/-- The threshold of a name, in any case. -/
def ofName? (name : String) : Option Threshold :=
  [("off", none), ("error", some Level.error), ("warn", some Level.warn),
    ("info", some Level.info), ("debug", some Level.debug),
    ("trace", some Level.trace)].lookup (String.ofList (name.toList.map Char.toLower))

end Threshold

/-- A part of a filter: the beginning of the names it is about, if it is not about all, and its
threshold. -/
structure Directive where
  about? : Option String
  threshold : Threshold
deriving DecidableEq, Repr

namespace Directive

/-- Whether the directive is about a topic. -/
def covers (d : Directive) (t : Topic) : Bool := d.about?.all (·.isPrefixOf t.name)

/-- The length of the beginning that the directive is about. -/
def reach (d : Directive) : Nat := (d.about?.map String.length).getD 0

/-- A directive as it is written: a level, a name, or a name with its level. A name alone stands for
all levels. In place of what makes no sense the part at fault is given. -/
def ofText (part : Text) : Except String Directive :=
  match Text.split '=' part with
  | [name] =>
    let name := String.ofList name
    match Threshold.ofName? name with
    | some t => .ok ⟨none, t⟩
    | none => .ok ⟨some name, Threshold.everything⟩
  | [name, level] =>
    let name := String.ofList name
    let level := String.ofList (Text.trim level)
    if level.isEmpty then .ok ⟨some name, Threshold.everything⟩
    else
      match Threshold.ofName? level with
      | some t => .ok ⟨some name, t⟩
      | none => .error level
  | _ => .error (String.ofList part)

/-- Adds a directive to those before it. It takes the place of one that is about the same names. -/
def insert (d : Directive) : List Directive → List Directive
  | [] => [d]
  | e :: rest => if e.about? = d.about? then d :: rest else e :: insert d rest

/-- Of the directives that are about a topic the last of those with the longest reach. -/
def strongest? (t : Topic) (directives : List Directive) : Option Directive :=
  (directives.filter (·.covers t)).foldl
    (fun best d => if best.any (d.reach < ·.reach) then best else some d) none

end Directive

/-- A filter: its directives, and what messages have to match. -/
structure LogFilter where
  directives : List Directive
  pattern? : Option Pattern := none

namespace LogFilter

/-- Whether an entry passes the filter. Without directives errors pass; an entry that no directive
is about does not. -/
def shows (f : LogFilter) (e : Entry) : Bool :=
  let threshold : Threshold :=
    if f.directives.isEmpty then some .error
    else (Directive.strongest? e.topic f.directives).bind (·.threshold)
  threshold.shows e && f.pattern?.all fun r => (r.find? (.start e.message.toList)).isSome

/-- A warning about what is passed over. -/
def ignored (what : String) : String := "warning: " ++ what ++ ", ignoring it"

/-- A warning about a part of a filter. -/
def badPart (part : String) : String := ignored ("invalid logging spec '" ++ part ++ "'")

/-- Reads directives, with warnings about those that cannot be read. -/
def readDirectives (t : Text) : List Directive × List String :=
  let parts := ((Text.split ',' t).map Text.trim).filter (!·.isEmpty)
  let (directives, warnings) := parts.foldl (fun (directives, warnings) part =>
    match Directive.ofText part with
    | .ok d => (d.insert directives, warnings)
    | .error fault => (directives, badPart fault :: warnings)) ([], [])
  (directives, warnings.reverse)

/-- Reads the pattern of a filter, or gives a warning. -/
def readPattern (t : Text) : Option Pattern × List String :=
  match Pattern.ofSource (String.ofList t) with
  | .ok r => (some r, [])
  | .error flaw => (none, [ignored ("invalid regex filter - " ++ flaw.report t)])

/-- Reads a filter, with warnings about what cannot be read. -/
def ofText (spec : String) : LogFilter × List String :=
  match Text.split '/' spec.toList with
  | [directives] =>
    let (directives, warnings) := readDirectives directives
    (⟨directives, none⟩, warnings)
  | [directives, pattern] =>
    let (directives, warnings) := readDirectives directives
    let (pattern?, more) := readPattern pattern
    (⟨directives, pattern?⟩, warnings ++ more)
  | _ => (⟨[], none⟩, [ignored ("invalid logging spec '" ++ spec ++ "' (too many '/'s)")])

end LogFilter

end CommandLine

end MdxMend
