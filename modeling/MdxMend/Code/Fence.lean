import MdxMend.Text.Basic

/-!
# Code constructs: fences and inline code

Code in a document starts with a run of backticks or tildes. A run of three or more that has only
an indent before it on its line opens a fenced block, unless it is made of backticks and another
backtick follows on the line. The block reaches to the end of the first later run that closes it:
the same mark, at least as many of them, alone on their line but for blanks. Any other run of
backticks opens inline code, which ends at the next run of exactly the same length on the line.

Both searches give the code they found after the opening run and the text that follows it, or
nothing, and then the opening run is not code at all.

Besides these searches there is a second, line by line reading of fences. It keeps only the fence
that is open and is fed one fence line after another; the rules on opening fences use it
to tell an opening line from all others.
-/

namespace MdxMend

/-- The mark of inline code, and one of the two marks of a fence. -/
def backtick : Char := '\x60'

/-- The other mark of a fence. -/
def tilde : Char := '~'

/-- The characters that can begin code. -/
def isMark (c : Char) : Bool := c == backtick || c == tilde

/-- An opening fence: the mark it is drawn with and the number of marks. -/
structure Fence where
  mark : Char
  length : Nat
deriving DecidableEq, Repr

namespace Fence

open Text

/-- A fence has at least three marks. -/
def minLength : Nat := 3

/-- Whether a run of `n` marks opens a fenced block, where `atIndent` tells that only an indent
stands before it on its line and `after` is the text behind it. -/
def opens (atIndent : Bool) (mark : Char) (n : Nat) (after : Text) : Bool :=
  decide (minLength ≤ n) && atIndent &&
    (mark != backtick || !(restOfLine after).contains backtick)

/-- What may stand behind a closing fence on its line. -/
def isClosingBlank (c : Char) : Bool := isIndent c || c == '\r'

/-- The closing fence at the head of `line`, indent included, and the text behind it. -/
def closer? (f : Fence) (line : Text) : Option (Text × Text) :=
  let indent := line.takeWhile isIndent
  let fence := line.dropWhile isIndent
  let run := fence.takeWhile (· == f.mark)
  let after := fence.dropWhile (· == f.mark)
  if decide (f.length ≤ run.length) && (restOfLine after).all isClosingBlank then
    some (indent ++ run, after)
  else none

/-- The rest of a block opened by `f`, from behind its opening run to the end of the first closing
fence on a later line, and the text behind that. -/
def block? (f : Fence) : Text → Option (Text × Text)
  | [] => none
  | c :: s =>
    let here := if c == '\n' then f.closer? s else none
    (here.or (f.block? s)).map fun (code, rest) => (c :: code, rest)

end Fence

open Text in
/-- The rest of inline code opened by `n` backticks, to the end of the next run of exactly `n` of
them before the end of the line, and the text behind that. -/
def inlineCode? (n : Nat) : Text → Option (Text × Text)
  | [] => none
  | c :: s =>
    if c == '\n' then none
    else if c == backtick then
      let run := c :: s.takeWhile (· == backtick)
      let after := s.dropWhile (· == backtick)
      if run.length == n then some (run, after)
      else (inlineCode? n after).map fun (code, rest) => (run ++ code, rest)
    else (inlineCode? n s).map fun (code, rest) => (c :: code, rest)
termination_by s => s.length
decreasing_by
  · have := length_dropWhile_le (· == backtick) s
    simp only [List.length_cons]
    omega
  · simp

/-- The rest of the code that a run of `n` marks opens, and the text behind it. A run that looks
like an opening fence is never read as inline code. -/
def codeAfter? (atIndent : Bool) (mark : Char) (n : Nat) (after : Text) : Option (Text × Text) :=
  if Fence.opens atIndent mark n after then Fence.block? ⟨mark, n⟩ after
  else if mark == backtick then inlineCode? n after
  else none

namespace Fence

open Text

/-- Reads one more fence line while `current` is the open fence: whether the line opens a fence, and
the fence that is open behind it. A line inside a block closes it if it is a bare run of the same
mark, at least as long; the first character of a line counts as its mark, whatever it is. -/
def track (current : Option Fence) (line : Text) : Bool × Option Fence :=
  match line.dropWhile isIndent with
  | [] => (false, current)
  | c :: s =>
    let n := (s.takeWhile (· == c)).length + 1
    match current with
    | none => (true, some ⟨c, n⟩)
    | some f =>
      let closes := c == f.mark && decide (f.length ≤ n) && (trim (s.dropWhile (· == c))).isEmpty
      (false, if closes then none else current)

/-- Which of the fence lines open a fence, read in order from `current`. -/
def openers (current : Option Fence) : List Text → List Bool
  | [] => []
  | line :: lines =>
    let (opened, next) := track current line
    opened :: openers next lines

end Fence

end MdxMend
