import MdxMend.Json.Reader

/-!
# Passing over JSON values

The value of an unknown field only has to be well formed. It may be nested to any depth, so the
brackets that are still open are kept on a stack.
-/

namespace MdxMend.Json

open Text

/-- A bracket that is still open. -/
inductive Bracket where
  | list
  | object
deriving DecidableEq, Repr

namespace Bracket

/-- The character that closes a bracket. -/
def closer : Bracket → Char
  | list => ']'
  | object => '\x7d'

/-- The fault of a document that ends before a bracket is closed. -/
def unclosed : Bracket → Cause
  | list => .endInList
  | object => .endInObject

/-- The fault of an item that is followed by neither a comma nor the closing bracket. -/
def noComma : Bracket → Cause
  | list => .expectedListComma
  | object => .expectedObjectComma

end Bracket

/-- Passes over a string from behind its opening quote. An escape with a number may name half a
pair of surrogates. -/
def skipStringBody : Text → Except Fault Text
  | [] => .error (.before .endInString [])
  | c :: s =>
    if c == '"' then .ok s
    else if c == '\\' then
      match s with
      | [] => .error (.before .endInString [])
      | 'u' :: t => do
        let (_, rest) ← readHex t
        skipStringBody (behind t rest)
      | d :: t =>
        if (escapedLetters.lookup d).isSome then skipStringBody t
        else .error (.on .badEscape (d :: t))
    else if c.toNat < 0x20 then .error (.before .controlCharacter (c :: s))
    else skipStringBody s
termination_by s => s.length
decreasing_by
  · have := behind_length t rest
    simp only [List.length_cons]
    omega
  · simp only [List.length_cons]
    omega
  · simp

/-- Passes over a value that is no list and no object. -/
def skipScalar (s : Text) : Except Fault Text :=
  match s with
  | 'n' :: t => readWord ['u', 'l', 'l'] t
  | 't' :: t => readWord ['r', 'u', 'e'] t
  | 'f' :: t => readWord ['a', 'l', 's', 'e'] t
  | '-' :: t => skipNumber t
  | '"' :: t => skipStringBody t
  | c :: _ => if isDigit c then skipNumber s else .error (.on .expectedValue s)
  | [] => .error (.on .endInValue [])

/-- Passes over the name of a field and its colon. -/
def skipName (s : Text) : Except Fault Text :=
  match skipSpace s with
  | '"' :: t => do readColon (← skipStringBody t)
  | [] => .error (.on .endInObject [])
  | t => .error (.on .keyNotString t)

/-- What comes next among nested values: what follows a value, a value, a member of the innermost
bracket, or what follows an opening bracket. -/
inductive Next where
  | follow
  | value
  | member
  | opened

namespace Next

/-- Something of a smaller rank can come next without a character in between. -/
def rank : Next → Nat
  | follow => 0
  | value => 1
  | member => 2
  | opened => 3

end Next

/-- Passes over nested values until no bracket of `inside` is open. -/
def skipNested (next : Next) (inside : List Bracket) (s : Text) : Except Fault Text :=
  match next, inside with
  | .follow, [] => .ok s
  | .follow, b :: outside =>
    match _h : skipSpace s with
    | [] => .error (.on b.unclosed [])
    | c :: t =>
      if c == ',' then skipNested .member inside t
      else if c == b.closer then skipNested .follow outside t
      else .error (.on b.noComma (c :: t))
  | .value, _ =>
    match _h : skipSpace s with
    | '[' :: t => skipNested .opened (.list :: inside) t
    | '\x7b' :: t => skipNested .opened (.object :: inside) t
    | t => do
      let rest ← skipScalar t
      skipNested .follow inside (behind s rest)
  | .member, .object :: _ => do
    let rest ← skipName s
    skipNested .value inside (behind s rest)
  | .member, _ => skipNested .value inside s
  | .opened, [] => skipNested .value [] s
  | .opened, b :: outside =>
    match _h : skipSpace s with
    | [] => .error (.on b.unclosed [])
    | c :: t => if c == b.closer then skipNested .follow outside t else skipNested .member inside s
termination_by (s.length, next.rank)
decreasing_by
  · exact .left _ _ (length_of_skipSpace _h)
  · exact .left _ _ (length_of_skipSpace _h)
  · exact .left _ _ (length_of_skipSpace _h)
  · exact .left _ _ (length_of_skipSpace _h)
  · simp only [Prod.lex_def, Next.rank]
    have := behind_length s rest
    omega
  · simp only [Prod.lex_def, Next.rank]
    have := behind_length s rest
    omega
  · exact .right _ (by decide)
  · exact .right _ (by decide)
  · exact .left _ _ (length_of_skipSpace _h)
  · exact .right _ (by decide)

/-- Passes over a value of any form. -/
def skipValue (s : Text) : Except Fault Text := skipNested .value [] s

end MdxMend.Json
