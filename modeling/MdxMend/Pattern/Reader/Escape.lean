import MdxMend.Pattern.Fault
import MdxMend.Pattern.CharSet
import MdxMend.Pattern.Place

/-!
# Escapes in patterns

A backslash takes its meaning from a character that has one, gives a meaning to a letter that has
none, or begins the number of a character. What is left of a pattern behind an escape is given with
what the escape stands for; how much is left also says where a fault lies.
-/

namespace MdxMend.Pattern

open Text

/-- A fault between two states of what is left. -/
def fault {α : Type} (cause : Cause) (s rest : Text) : Except Fault α :=
  .error { cause, stretch := .between s rest }

/-- How characters are compared and what the anchors and the dot mean. -/
structure Flags where
  ignoreCase : Bool := false
  multiLine : Bool := false
  dotAll : Bool := false
deriving DecidableEq, Repr

/-- What a single escape or character stands for. -/
inductive Item where
  | char (c : Char)
  | set (s : CharSet)
  | anchor (a : Anchor)

/-- The character of a number, if it is one. -/
def charOf? (n : Nat) : Option Char := if n.isValidChar then some (Char.ofNat n) else none

/-- Exactly `n` hexadecimal digits, continuing the number `value`. -/
def hexDigits (value : Nat) : Nat → Text → Except Fault (Nat × Text)
  | 0, s => .ok (value, s)
  | _ + 1, [] => fault .unfinishedEscape [] []
  | n + 1, c :: s =>
    match hexValue? c with
    | some d => hexDigits (16 * value + d) n s
    | none => fault .hexDigit (c :: s) s

/-- Hexadecimal digits up to a closing brace, continuing the number `value`. `opened` is what was
left at the opening brace, `count` the number of digits before. -/
def hexInBraces (opened : Text) (value count : Nat) : Text → Except Fault (Nat × Text)
  | [] => fault .unfinishedEscape opened []
  | '\x7d' :: s =>
    if count == 0 then fault .emptyHex opened s else .ok (value, s)
  | c :: s =>
    match hexValue? c with
    | some d => hexInBraces opened (16 * value + d) (count + 1) s
    | none => fault .hexDigit (c :: s) s

/-- A character by its number: `width` digits, or any number of digits in braces. -/
def hexEscape (width : Nat) : Text → Except Fault (Item × Text)
  | '\x7b' :: s => do
    let (value, rest) ← hexInBraces ('\x7b' :: s) 0 0 s
    match charOf? value with
    | some c => .ok (.char c, rest)
    | none => fault .hexValue s ('\x7d' :: rest)
  | s => do
    let (value, rest) ← hexDigits 0 width s
    match charOf? value with
    | some c => .ok (.char c, rest)
    | none => fault .hexValue s rest

/-- What a letter or an angle bracket behind a backslash stands for: a control character, a set or
an anchor. -/
def letterItems : List (Char × Item) := [
  ('a', .char '\x07'), ('f', .char '\x0c'), ('t', .char '\t'), ('n', .char '\n'),
  ('r', .char '\r'), ('v', .char '\x0b'),
  ('s', .set .blank), ('S', .set (.complement .blank)),
  ('d', .set .digit), ('D', .set (.complement .digit)),
  ('w', .set .word), ('W', .set (.complement .word)),
  ('A', .anchor .textStart), ('z', .anchor .textEnd),
  ('b', .anchor .wordBoundary), ('B', .anchor .wordInside),
  ('<', .anchor .wordStart), ('>', .anchor .wordEnd)]

/-- Whether a backslash in front of the character leaves it as it is. -/
def isEscapable (c : Char) : Bool :=
  decide (c.toNat < 0x80) && !c.isAlphanum && c != '<' && c != '>'

/-- An escape, from behind its backslash. -/
def escape (s : Text) : Except Fault (Item × Text) :=
  let whole := '\\' :: s
  match s with
  | [] => fault .unfinishedEscape whole []
  | c :: rest =>
    if isDigit c then fault .backreference whole rest
    else if c == 'x' then hexEscape 2 rest
    else if c == 'u' then hexEscape 4 rest
    else if c == 'U' then hexEscape 8 rest
    else if isEscapable c then .ok (.char c, rest)
    else
      match letterItems.lookup c with
      | some item => .ok (item, rest)
      | none => fault .unknownEscape whole rest

end MdxMend.Pattern
