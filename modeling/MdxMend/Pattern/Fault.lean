import MdxMend.Text.Basic

/-!
# What is wrong with a pattern

A pattern that cannot be read is refused with a cause and the stretch of the pattern at fault. The
report shows the pattern with the stretch marked below it; a pattern of several lines is shown line
by line, with line numbers.
-/

namespace MdxMend.Pattern

/-- Why a pattern cannot be read. -/
inductive Cause where
  | unclosedGroup
  | unopenedGroup
  | unclosedClass
  | classEscape
  | classRangeBound
  | classRangeOrder
  | missingOperand
  | unclosedCount
  | missingCount
  | countTooLarge
  | countOrder
  | duplicateName
  | emptyName
  | nameCharacter
  | unclosedName
  | unfinishedEscape
  | unknownEscape
  | backreference
  | emptyHex
  | hexDigit
  | hexValue
  | unknownFlag
  | repeatedFlag
  | repeatedNegation
  | danglingNegation
  | unfinishedFlags
  | lookAround
  | tooDeep
deriving DecidableEq, Repr

/-- The cause in words. -/
def Cause.message : Cause → String
  | unclosedGroup => "unclosed group"
  | unopenedGroup => "unopened group"
  | unclosedClass => "unclosed character class"
  | classEscape => "invalid escape sequence found in character class"
  | classRangeBound => "invalid range boundary, must be a literal"
  | classRangeOrder => "invalid character class range, the start must be <= the end"
  | missingOperand => "repetition operator missing expression"
  | unclosedCount => "unclosed counted repetition"
  | missingCount => "repetition quantifier expects a valid decimal"
  | countTooLarge => "decimal literal invalid"
  | countOrder => "invalid repetition count range, the start must be <= the end"
  | duplicateName => "duplicate capture group name"
  | emptyName => "empty capture group name"
  | nameCharacter => "invalid capture group character"
  | unclosedName => "unclosed capture group name"
  | unfinishedEscape => "incomplete escape sequence, reached end of pattern prematurely"
  | unknownEscape => "unrecognized escape sequence"
  | backreference => "backreferences are not supported"
  | emptyHex => "hexadecimal literal empty"
  | hexDigit => "invalid hexadecimal digit"
  | hexValue => "hexadecimal literal is not a Unicode scalar value"
  | unknownFlag => "unrecognized flag"
  | repeatedFlag => "duplicate flag"
  | repeatedNegation => "flag negation operator repeated"
  | danglingNegation => "dangling flag negation operator"
  | unfinishedFlags => "expected flag but got end of regex"
  | lookAround => "look-around, including look-ahead and look-behind, is not supported"
  | tooDeep => "exceeded the maximum number of nested parentheses/brackets (250)"

/-- A stretch of a pattern, by the number of characters from its start and from its end to the end
of the pattern. -/
structure Stretch where
  left : Nat
  leftBehind : Nat
deriving DecidableEq, Repr

/-- The stretch from `s` to `rest`, both of them what is left of the pattern. -/
def Stretch.between (s rest : Text) : Stretch := ⟨s.length, rest.length⟩

/-- A cause, the stretch at fault, and the earlier stretch that it collides with, if any. -/
structure Fault where
  cause : Cause
  stretch : Stretch
  earlier : Option Stretch := none
deriving DecidableEq, Repr

namespace Fault

/-- The lines of a text, without their line breaks: a line feed, and a carriage return in front of
it. A line break at the very end begins no line. -/
def linesOf (t : Text) : List Text :=
  let pieces := t.splitOn '\n'
  let ended := pieces.dropLast.map fun line =>
    if line.getLast? == some '\r' then line.dropLast else line
  ended ++ (pieces.getLast?.filter (!·.isEmpty)).toList

/-- The number of the line, from zero, and the column in it, from zero, behind `t`. -/
def lineAndColumn (t : Text) : Nat × Nat :=
  (t.count '\n', (t.reverse.takeWhile (· != '\n')).length)

/-- Marks below columns: from each first column up to each last one, at least one mark. -/
def marks : Nat → List (Nat × Nat) → Text
  | _, [] => []
  | column, (first, last) :: rest =>
    let width := max 1 (last - first)
    List.replicate (first - column) ' ' ++ List.replicate width '^' ++
      marks (max column first + width) rest

/-- Where a stretch of a pattern lies: line and column of its first character, and of the
character behind it. -/
def locate (source : Text) (s : Stretch) : (Nat × Nat) × (Nat × Nat) :=
  (lineAndColumn (source.take (source.length - s.left)),
    lineAndColumn (source.take (source.length - s.leftBehind)))

/-- The stretches at fault, in the order of the pattern. -/
def stretches (f : Fault) : List Stretch :=
  match f.earlier with
  | some e => if f.stretch.left ≤ e.left then [e, f.stretch] else [f.stretch, e]
  | none => [f.stretch]

/-- The columns to mark below a line. -/
def columnsOn (source : Text) (f : Fault) (line : Nat) : List (Nat × Nat) :=
  f.stretches.filterMap fun s =>
    let (first, last) := locate source s
    if first.1 == line && last.1 == line then some (first.2, last.2) else none

/-- The pattern line by line, each line with the marks below it. `width` is the width of the line
numbers, zero for none. -/
def marked (source : Text) (f : Fault) (width : Nat) : Nat → List Text → Text
  | _, [] => []
  | n, line :: lines =>
    let number := (toString (n + 1)).toList
    let margin :=
      if width == 0 then List.replicate 4 ' '
      else List.replicate (width - number.length) ' ' ++ number ++ [':', ' ']
    let below :=
      match columnsOn source f n with
      | [] => []
      | columns =>
        List.replicate (if width == 0 then 4 else width + 2) ' ' ++ marks 0 columns ++ ['\n']
    margin ++ line ++ ['\n'] ++ below ++ marked source f width (n + 1) lines

/-- A stretch over several lines, in words. -/
def spread (source : Text) (s : Stretch) : Option String :=
  let (first, last) := locate source s
  if first.1 == last.1 then none
  else some ("on line " ++ toString (first.1 + 1) ++ " (column " ++ toString (first.2 + 1) ++
    ") through line " ++ toString (last.1 + 1) ++ " (column " ++ toString last.2 ++ ")")

/-- The report on a pattern that cannot be read. -/
def report (source : Text) (f : Fault) : String :=
  let lines := linesOf source
  let body :=
    if source.contains '\n' then
      let count := lines.length + (if source.getLast? == some '\n' then 1 else 0)
      let width := if count ≤ 1 then 0 else (toString count).length
      let divider := List.replicate 79 '~' ++ ['\n']
      let notes := f.stretches.filterMap (spread source)
      String.ofList (divider ++ marked source f width 0 lines ++ divider) ++
        (if notes.isEmpty then "" else String.intercalate "\n" notes ++ "\n")
    else String.ofList (marked source f 0 0 lines)
  "regex parse error:\n" ++ body ++ "error: " ++ f.cause.message

end Fault

/-- Why a pattern is refused: it cannot be read, or its program would be larger than a limit. -/
inductive Flaw where
  | unreadable (f : Fault)
  | tooLarge (limit : Nat)
deriving DecidableEq, Repr

/-- The report on a pattern that is refused. -/
def Flaw.report (source : Text) : Flaw → String
  | unreadable f => f.report source
  | tooLarge limit => "Compiled regex exceeds size limit of " ++ toString limit ++ " bytes."

end MdxMend.Pattern
