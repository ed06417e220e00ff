import MdxMend.Decimal.Shortest
import MdxMend.Text.Quoted

/-!
# What can be wrong with a JSON document

Reading stops at the first fault. A fault tells its cause and how many bytes of the document were
left there; its place, a line and a column in bytes, is counted only when it is reported. A fault
lies *before* what is left if everything so far was read, and *on* the next byte if that byte is
the offending one.
-/

namespace MdxMend.Json

/-- What a value is, as far as a report about its type tells. -/
inductive Found where
  | null
  | bool (b : Bool)
  | integer (n : Int)
  | decimal (digits : Text)
  | string (t : Text)
  | list
  | object
deriving DecidableEq, Repr

namespace Found

/-- A value in words. -/
def describe : Found → String
  | null => "null"
  | bool b => "boolean `" ++ toString b ++ "`"
  | integer n => "integer `" ++ toString n ++ "`"
  | decimal digits => "floating point `" ++ String.ofList digits ++ "`"
  | string t => "string " ++ String.ofList (Text.quoted t)
  | list => "sequence"
  | object => "map"

end Found

/-- What kind of value is wanted. -/
inductive Wanted where
  | bool
  | string
  | list
  | settings
deriving DecidableEq, Repr

namespace Wanted

/-- A kind of value in words. -/
def describe : Wanted → String
  | bool => "a boolean"
  | string => "a string"
  | list => "a sequence"
  | settings => "struct Settings"

end Wanted

/-- What is wrong. -/
inductive Cause where
  | endInValue
  | endInList
  | endInObject
  | endInString
  | expectedColon
  | expectedListComma
  | expectedObjectComma
  | expectedWord
  | expectedValue
  | badEscape
  | badNumber
  | numberRange
  | controlCharacter
  | keyNotString
  | loneSurrogate
  | unfinishedSurrogate
  | trailingComma
  | trailingCharacters
  | wrongType (found : Found) (wanted : Wanted)
  | repeatedField (name : String)
deriving DecidableEq, Repr

namespace Cause

/-- A cause in words. -/
def message : Cause → String
  | endInValue => "EOF while parsing a value"
  | endInList => "EOF while parsing a list"
  | endInObject => "EOF while parsing an object"
  | endInString => "EOF while parsing a string"
  | expectedColon => "expected `:`"
  | expectedListComma => "expected `,` or `]`"
  | expectedObjectComma => "expected `,` or `\x7d`"
  | expectedWord => "expected ident"
  | expectedValue => "expected value"
  | badEscape => "invalid escape"
  | badNumber => "invalid number"
  | numberRange => "number out of range"
  | controlCharacter => "control character (\\u0000-\\u001F) found while parsing a string"
  | keyNotString => "key must be a string"
  | loneSurrogate => "lone leading surrogate in hex escape"
  | unfinishedSurrogate => "unexpected end of hex escape"
  | trailingComma => "trailing comma"
  | trailingCharacters => "trailing characters"
  | wrongType found wanted => "invalid type: " ++ found.describe ++ ", expected " ++ wanted.describe
  | repeatedField name => "duplicate field `" ++ name ++ "`"

end Cause

/-- A fault: its cause, and how many bytes were left where it lies. -/
structure Fault where
  cause : Cause
  left : Nat
deriving DecidableEq, Repr

namespace Fault

/-- A fault in front of what is left. -/
def before (cause : Cause) (rest : Text) : Fault := ⟨cause, Text.byteLength rest⟩

/-- A fault on the first byte of what is left. -/
def on (cause : Cause) (rest : Text) : Fault := ⟨cause, Text.byteLength rest - 1⟩

/-- The line and the column that `n` further bytes of `t` lead to. The column is the number of
bytes on the line so far. -/
def advance (n line column : Nat) : Text → Nat × Nat
  | [] => (line, column)
  | c :: t =>
    if n < c.utf8Size then (line, column + n)
    else if c == '\n' then advance (n - 1) (line + 1) 0 t
    else advance (n - c.utf8Size) line (column + c.utf8Size) t

/-- The place of a fault in a document: its line, from one, and its column. -/
def place (f : Fault) (source : Text) : Nat × Nat :=
  advance (Text.byteLength source - f.left) 1 0 source

/-- The report of a fault in a document. -/
def report (f : Fault) (source : Text) : String :=
  let (line, column) := f.place source
  f.cause.message ++ " at line " ++ toString line ++ " column " ++ toString column

end Fault

end MdxMend.Json
