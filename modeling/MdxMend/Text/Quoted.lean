import MdxMend.Text.Lowercase
import MdxMend.Text.UnprintedTable

/-!
# Quoted text

Descriptions of options and complaints about settings show a string in double quotes, with
everything that would not be seen, or would end the quotes, written as an escape.
-/

namespace MdxMend.Text

/-- A number in small hexadecimal digits. -/
def hexDigits (n : Nat) : Text := Nat.toDigits 16 n

/-- One character inside quotes: a named escape, the character itself, or its number in hexadecimal
where it would not be seen. -/
def quotedChar (c : Char) : Text :=
  if c == '"' then ['\\', '"']
  else if c == '\\' then ['\\', '\\']
  else if c == '\n' then ['\\', 'n']
  else if c == '\r' then ['\\', 'r']
  else if c == '\t' then ['\\', 't']
  else if c == '\x00' then ['\\', '0']
  else if inRanges unprintedRanges c then ['\\', 'u', '\x7b'] ++ hexDigits c.toNat ++ ['\x7d']
  else [c]

/-- A text between double quotes. -/
def quoted (t : Text) : Text := '"' :: t.flatMap quotedChar ++ ['"']

end MdxMend.Text

namespace MdxMend

/-- A string between double quotes. -/
def quote (s : String) : String := String.ofList (Text.quoted s.toList)

/-- A list of strings, each in quotes, between brackets. -/
def quoteList (l : List String) : String :=
  "[" ++ String.intercalate ", " (l.map quote) ++ "]"

/-- An optional value in words: `None`, or `Some` with the value's own description. -/
def quoteOption {α : Type} (describe : α → String) : Option α → String
  | none => "None"
  | some a => "Some(" ++ describe a ++ ")"

end MdxMend
