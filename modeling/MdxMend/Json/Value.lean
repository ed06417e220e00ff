import MdxMend.Text.Basic

/-!
# JSON values and how they are written

A value is written in two ways. The compact form has no white space. The wide form puts every item
of a list and every field of an object on a line of its own, indented by two spaces for each level;
an empty list or object stays on its line.
-/

namespace MdxMend.Json

/-- A JSON value. Numbers are natural numbers; the fields of an object keep their order. -/
inductive Value where
  | null
  | bool (b : Bool)
  | number (n : Nat)
  | string (s : String)
  | list (items : List Value)
  | object (fields : List (String × Value))

/-- A small hexadecimal digit. -/
def hexDigit (n : Nat) : Char := Nat.digitChar n

/-- One character in a JSON string. Quotes, backslashes and control characters are escaped, with a
letter where there is one. -/
def escapeChar (c : Char) : Text :=
  if c == '"' then ['\\', '"']
  else if c == '\\' then ['\\', '\\']
  else if c == '\x08' then ['\\', 'b']
  else if c == '\x0c' then ['\\', 'f']
  else if c == '\n' then ['\\', 'n']
  else if c == '\r' then ['\\', 'r']
  else if c == '\t' then ['\\', 't']
  else if c.toNat < 0x20 then
    ['\\', 'u', '0', '0', hexDigit (c.toNat / 16), hexDigit (c.toNat % 16)]
  else [c]

/-- A JSON string. -/
def quoteText (t : Text) : Text := '"' :: t.flatMap escapeChar ++ ['"']

/-- The line break and the indent in front of a line at a level. -/
def lineBreak (level : Nat) : Text := '\n' :: List.replicate (2 * level) ' '

namespace Value

mutual

/-- The wide form of a value at a level. -/
def wide (level : Nat) : Value → Text
  | null => "null".toList
  | bool b => (toString b).toList
  | number n => (toString n).toList
  | string s => quoteText s.toList
  | list [] => ['[', ']']
  | list (v :: items) =>
    '[' :: lineBreak (level + 1) ++ wide (level + 1) v ++ wideItems (level + 1) items ++
      lineBreak level ++ [']']
  | object [] => ['\x7b', '\x7d']
  | object ((name, v) :: fields) =>
    '\x7b' :: lineBreak (level + 1) ++ quoteText name.toList ++ [':', ' '] ++ wide (level + 1) v ++
      wideFields (level + 1) fields ++ lineBreak level ++ ['\x7d']

/-- The further items of a list at a level. -/
def wideItems (level : Nat) : List Value → Text
  | [] => []
  | v :: items => ',' :: lineBreak level ++ wide level v ++ wideItems level items

/-- The further fields of an object at a level. -/
def wideFields (level : Nat) : List (String × Value) → Text
  | [] => []
  | (name, v) :: fields =>
    ',' :: lineBreak level ++ quoteText name.toList ++ [':', ' '] ++ wide level v ++
      wideFields level fields

end

mutual

/-- The compact form of a value. -/
def compact : Value → Text
  | null => "null".toList
  | bool b => (toString b).toList
  | number n => (toString n).toList
  | string s => quoteText s.toList
  | list [] => ['[', ']']
  | list (v :: items) => '[' :: compact v ++ compactItems items ++ [']']
  | object [] => ['\x7b', '\x7d']
  | object ((name, v) :: fields) =>
    '\x7b' :: quoteText name.toList ++ [':'] ++ compact v ++ compactFields fields ++ ['\x7d']

/-- The further items of a list. -/
def compactItems : List Value → Text
  | [] => []
  | v :: items => ',' :: compact v ++ compactItems items

/-- The further fields of an object. -/
def compactFields : List (String × Value) → Text
  | [] => []
  | (name, v) :: fields =>
    ',' :: quoteText name.toList ++ [':'] ++ compact v ++ compactFields fields

end

/-- A list of strings as a value. -/
def strings (l : List String) : Value := list (l.map string)

end Value

end MdxMend.Json
