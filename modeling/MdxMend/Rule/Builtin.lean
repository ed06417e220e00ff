import MdxMend.Rule.Select
import MdxMend.Code.Fence
import MdxMend.Code.Language

/-!
# The built-in rules

Strict MDX reads `<` and `>` next to a number as the beginning or the end of a tag. Four rules on
prose write them as character references where no tag can be meant, and one rule on fences writes
a language tag that the highlighter accepts.

Each pattern is given as a function that tells what matches at a place, and beside it as it is
written; reading what is written gives the same pattern (`Builtin.ofSource_source`). None of them
ever has to go back: what a part can match ends where the next part begins, so the longest run is the
only one to try.
-/

namespace MdxMend.Builtin

open Text

/-! ## Fence lines -/

/-- The length of the line break at the head of `t`. -/
def lineBreak? : Text → Option Nat
  | '\n' :: _ => some 1
  | '\r' :: '\n' :: _ => some 2
  | _ => none

/-- Whether `c` may stand in the tag of a fence drawn with `mark`. -/
def isTagChar (mark c : Char) : Bool :=
  c != '\r' && c != '\n' && (mark != backtick || c != backtick)

/-- What is left of a fence line behind its indent, where the fence is drawn with `mark`: the run of
marks, the tag and the line break. -/
def fenceParts? (mark : Char) (t : Text) : Option (Text × Text × Text) :=
  let marks := t.takeWhile (· == mark)
  let behindMarks := t.dropWhile (· == mark)
  let tag := behindMarks.takeWhile (isTagChar mark)
  let behindTag := behindMarks.dropWhile (isTagChar mark)
  if marks.length < Fence.minLength then none
  else (lineBreak? behindTag).map fun n => (marks, tag, behindTag.take n)

/-- The groups of a fence line: its indent, its marks and its tag, which have numbers of their own
for each mark, and its line break. -/
def fenceGroups (mark : Char) (indent marks tag eol : Text) : Groups :=
  let behindIndent := byteLength indent
  let behindMarks := behindIndent + byteLength marks
  let behindTag := behindMarks + byteLength tag
  let (marksIndex, tagIndex) := if mark == backtick then (2, 3) else (4, 5)
  [(1, ⟨0, indent⟩), (marksIndex, ⟨behindIndent, marks⟩), (tagIndex, ⟨behindMarks, tag⟩),
    (6, ⟨behindTag, eol⟩)]

/-- The fence line that begins at a place: indent, run of marks, tag, line break. -/
def fenceLineAt? (p : Place) : Option Sighting :=
  if p.meets .lineStart then
    let indent := p.after.takeWhile isIndent
    match p.after.dropWhile isIndent with
    | [] => none
    | c :: s =>
      if isMark c then
        (fenceParts? c (c :: s)).map fun (marks, tag, eol) => {
          length := indent.length + marks.length + tag.length + eol.length
          groups := fenceGroups c indent marks tag eol }
      else none
  else none

/-- A line with a fence. -/
def fenceLine : Pattern :=
  .direct
    ("(?m)^(?P<indent>[ \\t]*)(?:(?P<ticks>`\x7b3,\x7d)(?P<tick_tag>[^`\\r\\n]*)|" ++
      "(?P<tildes>~\x7b3,\x7d)(?P<tilde_tag>[^\\r\\n]*))(?P<eol>\\r?\\n)")
    [("indent", 1), ("ticks", 2), ("tick_tag", 3), ("tildes", 4), ("tilde_tag", 5), ("eol", 6)]
    fenceLineAt?

/-- The fence line of a match, with the tag that it should carry. -/
def retagFence (m : Match) : Text :=
  let part (name : String) : Text := (m.named? name).getD []
  let (marks, tag) :=
    match m.named? "ticks" with
    | some ticks => (ticks, part "tick_tag")
    | none => (part "tildes", part "tilde_tag")
  match Language.resolve? tag with
  | some language => part "indent" ++ marks ++ language.toList ++ part "eol"
  | none => m.text

/-- Gives fences a language tag that the highlighter accepts. -/
def normalizeLanguage : Rule where
  name := "normalize-code-block-language"
  description :=
    "Rewrite empty or known-bad code fence language tags to ones the highlighter accepts"
  pattern := fenceLine
  replacement := .compute fun m => .ok (retagFence m)
  scope := .fenceOpening

/-! ## Prose -/

/-- A character reference in place of `<`, then the first group. -/
def escapedLess : Template where
  source := "&lt;$\x7b1\x7d"
  parts := [.char '&', .char 'l', .char 't', .char ';', .index 1]

/-- The first group, a character reference in place of `>`, then the second group. -/
def escapedGreater : Template where
  source := "$\x7b1\x7d&gt;$\x7b2\x7d"
  parts := [.index 1, .char '&', .char 'g', .char 't', .char ';', .index 2]

/-- A match that begins with `<`, the rest of which is its first group. -/
def lessBefore (rest : Text) : Sighting :=
  { length := rest.length + 1, groups := [(1, ⟨1, rest⟩)] }

/-- `<` in front of a digit. -/
def lessDigitAt? (p : Place) : Option Sighting :=
  match p.after with
  | '<' :: d :: _ => if isDigit d then some (lessBefore [d]) else none
  | _ => none

/-- Escapes `<` in front of a digit. -/
def lessDigit : Rule where
  name := "less-than-digit"
  description := "Escape `<` directly before a digit (e.g. <5 minutes)"
  pattern := .direct "<([0-9])" [] lessDigitAt?
  replacement := .template escapedLess

/-- `<` in front of spaces and a digit. -/
def lessSpaceDigitAt? (p : Place) : Option Sighting :=
  match p.after with
  | '<' :: s =>
    let spaces := s.takeWhile (· == ' ')
    match s.dropWhile (· == ' ') with
    | d :: _ =>
      if !spaces.isEmpty && isDigit d then some (lessBefore (spaces ++ [d])) else none
    | [] => none
  | _ => none

/-- Escapes `<` in front of spaces and a digit. -/
def lessSpaceDigit : Rule where
  name := "less-than-space-digit"
  description := "Escape `<` followed by spaces and a digit (e.g. < 5 minutes)"
  pattern := .direct "<( +[0-9])" [] lessSpaceDigitAt?
  replacement := .template escapedLess

/-- Characters behind which `>` is not escaped: ASCII letters, digits, `_` and `-`. -/
def isGuard (c : Char) : Bool :=
  ('A' ≤ c && c ≤ 'Z') || ('a' ≤ c && c ≤ 'z') || isDigit c || c == '_' || c == '-'

/-- A digit or a space and a digit, at the head of a text. -/
def spacedDigit? : Text → Option Text
  | ' ' :: d :: _ => if isDigit d then some [' ', d] else none
  | d :: _ => if isDigit d then some [d] else none
  | [] => none

/-- `>` in front of a digit or of one space and a digit, at the head of a text, where `guard` stands
before it and is part of the match. -/
def greaterAfter? (guard : Text) : Text → Option Sighting
  | '>' :: s =>
    (spacedDigit? s).map fun digit => {
      length := guard.length + 1 + digit.length
      groups := [(1, ⟨0, guard⟩), (2, ⟨byteLength guard + 1, digit⟩)] }
  | _ => none

/-- `>` in front of a digit or of one space and a digit, unless it stands behind a letter, a digit,
an underscore or a hyphen. At the start of the text nothing need stand before it. -/
def greaterDigitAt? (p : Place) : Option Sighting :=
  (if p.meets .textStart then greaterAfter? [] p.after else none).or
    (match p.after with
      | c :: s => if isGuard c then none else greaterAfter? [c] s
      | [] => none)

/-- Escapes `>` in front of a digit. The character in front is part of the match and is written
again. -/
def greaterDigit : Rule where
  name := "greater-than-digit"
  description :=
    "Escape `>` before an optional space and a digit unless it follows a word character or " ++
      "hyphen (e.g. >90%)"
  pattern := .direct "(^|[^A-Za-z0-9_\\-])>( ?[0-9])" [] greaterDigitAt?
  replacement := .template escapedGreater

/-- Whether `c` may stand in what looks like a tag. -/
def isTagBody (c : Char) : Bool := c != '>' && !isBlank c

/-- What looks like a tag whose name begins with a digit. -/
def digitTagAt? (p : Place) : Option Sighting :=
  match p.after with
  | '<' :: s =>
    let (slash, name) := if s.head? == some '/' then (['/'], s.tail) else ([], s)
    match name with
    | d :: body =>
      if isDigit d then some (lessBefore (slash ++ d :: body.takeWhile isTagBody)) else none
    | [] => none
  | _ => none

/-- Escapes the `<` of what looks like a tag whose name begins with a digit. -/
def digitTag : Rule where
  name := "invalid-tag-names"
  description :=
    "Escape the `<` of tag-like sequences whose name starts with a digit (e.g. <3rd>, </5>)"
  pattern := .direct "<(/?[0-9][^>\\s]*)" [] digitTagAt?
  replacement := .template escapedLess

/-- The built-in rules, in the order in which they run. -/
def rules : List Rule := [normalizeLanguage, lessDigit, lessSpaceDigit, greaterDigit, digitTag]

end MdxMend.Builtin
