import MdxMend.Json.Number

/-!
# Reading a JSON document

A reader takes the text that is left and gives a value and the text behind it. Readers of a value
pass over white space in front of it; what follows it is the business of whoever asked for it.

A reader of a type that meets another type reads the value all the same, if it is no list and no
object, because the report shows it and lies behind it.
-/

namespace MdxMend.Json

open Text

/-- The white space of JSON. -/
def isSpace (c : Char) : Bool := c == ' ' || c == '\n' || c == '\t' || c == '\r'

/-- Passes over white space. -/
def skipSpace (s : Text) : Text := s.dropWhile isSpace

theorem length_of_skipSpace {s t : Text} {c : Char} (h : skipSpace s = c :: t) :
    t.length < s.length := by
  have := length_dropWhile_le isSpace s
  rw [skipSpace] at h
  rw [h, List.length_cons] at this
  omega

/-! ## Words -/

/-- Passes over the letters of a word. -/
def readWord : Text → Text → Except Fault Text
  | [], s => .ok s
  | _ :: _, [] => .error (.before .endInValue [])
  | c :: word, d :: s => if c == d then readWord word s else .error (.on .expectedWord (d :: s))

/-! ## Strings -/

/-- The number of four hexadecimal digits. Four bytes are taken whatever they are. -/
def readHex (s : Text) : Except Fault (Nat × Text) :=
  if byteLength s < 4 then .error ⟨.endInString, 0⟩
  else
    match (s.take 4).mapM hexValue? with
    | some digits => .ok (digits.foldl (16 * · + ·) 0, s.drop 4)
    | none => .error ⟨.badEscape, byteLength s - 4⟩

/-- The other half of a pair of surrogates, from behind the first, whose number is `high`. -/
def readLowSurrogate (high : Nat) (s : Text) : Except Fault (Char × Text) :=
  match s with
  | [] => .error (.before .endInString [])
  | ['\\'] => .error (.before .endInString [])
  | '\\' :: 'u' :: t => do
    let (low, rest) ← readHex t
    if 0xdc00 ≤ low && low ≤ 0xdfff then
      .ok (Char.ofNat ((high - 0xd800) * 0x400 + (low - 0xdc00) + 0x10000), rest)
    else .error (.before .loneSurrogate rest)
  | '\\' :: t => .error (.on .unfinishedSurrogate t)
  | _ => .error (.on .unfinishedSurrogate s)

/-- The characters that a letter behind a backslash stands for. -/
def escapedLetters : List (Char × Char) :=
  [('"', '"'), ('\\', '\\'), ('/', '/'), ('b', '\x08'), ('f', '\x0c'), ('n', '\n'), ('r', '\r'),
    ('t', '\t')]

/-- Reads an escape from behind its backslash. A character beyond the first 65536 is written as a
pair of surrogates, and half a pair is no character. -/
def readEscape (s : Text) : Except Fault (Char × Text) :=
  match s with
  | [] => .error (.before .endInString [])
  | 'u' :: t => do
    let (n, rest) ← readHex t
    if 0xdc00 ≤ n && n ≤ 0xdfff then .error (.before .loneSurrogate rest)
    else if 0xd800 ≤ n && n ≤ 0xdbff then readLowSurrogate n rest
    else .ok (Char.ofNat n, rest)
  | c :: t =>
    match escapedLetters.lookup c with
    | some d => .ok (d, t)
    | none => .error (.on .badEscape s)

/-- Reads a string from behind its opening quote. -/
def readStringBody : Text → Except Fault (Text × Text)
  | [] => .error (.before .endInString [])
  | c :: s =>
    if c == '"' then .ok ([], s)
    else if c == '\\' then do
      let (d, rest) ← readEscape s
      let (t, rest) ← readStringBody (behind s rest)
      .ok (d :: t, rest)
    else if c.toNat < 0x20 then .error (.on .controlCharacter (c :: s))
    else do
      let (t, rest) ← readStringBody s
      .ok (c :: t, rest)
termination_by s => s.length
decreasing_by
  · have := behind_length s rest
    simp only [List.length_cons]
    omega
  · simp

/-! ## Values of a type -/

/-- What stands in front of a text, if it is a value. A list or an object is not read. -/
def readFound (s : Text) : Except Fault (Found × Text) :=
  match s with
  | 'n' :: t => do .ok (.null, ← readWord ['u', 'l', 'l'] t)
  | 't' :: t => do .ok (.bool true, ← readWord ['r', 'u', 'e'] t)
  | 'f' :: t => do .ok (.bool false, ← readWord ['a', 'l', 's', 'e'] t)
  | '-' :: t => readNumber true t
  | '"' :: t => do
    let (shown, rest) ← readStringBody t
    .ok (.string shown, rest)
  | '[' :: _ => .ok (.list, s)
  | '\x7b' :: _ => .ok (.object, s)
  | c :: _ => if isDigit c then readNumber false s else .error (.on .expectedValue s)
  | [] => .error (.on .endInValue [])

/-- The fault of a value that is not of the wanted type. -/
def wrongType {α : Type} (wanted : Wanted) (s : Text) : Except Fault α := do
  let (found, rest) ← readFound s
  .error (.before (.wrongType found wanted) rest)

/-- Reads a boolean. -/
def readBool (s : Text) : Except Fault (Bool × Text) :=
  match skipSpace s with
  | 't' :: t => do .ok (true, ← readWord ['r', 'u', 'e'] t)
  | 'f' :: t => do .ok (false, ← readWord ['a', 'l', 's', 'e'] t)
  | t => wrongType .bool t

/-- Reads a string. -/
def readString (s : Text) : Except Fault (String × Text) :=
  match skipSpace s with
  | '"' :: t => do
    let (content, rest) ← readStringBody t
    .ok (String.ofList content, rest)
  | t => wrongType .string t

/-- Reads the strings of a list from in front of the first of them. -/
def readItems (s : Text) : Except Fault (List String × Text) :=
  match s with
  | [] => .error (.on .endInValue [])
  | c :: t => do
    let (item, rest) ← readString (c :: t)
    match skipSpace (behind t rest) with
    | ']' :: rest => .ok ([item], rest)
    | ',' :: rest =>
      match skipSpace rest with
      | [] => .error (.on .endInValue [])
      | ']' :: rest => .error (.on .trailingComma (']' :: rest))
      | rest => do
        let (items, rest) ← readItems (behind t rest)
        .ok (item :: items, rest)
    | [] => .error (.on .endInList [])
    | rest => .error (.on .expectedListComma rest)
termination_by s.length
decreasing_by
  have := behind_length t rest
  simp only [List.length_cons]
  omega

/-- Reads a list of strings. -/
def readStrings (s : Text) : Except Fault (List String × Text) :=
  match skipSpace s with
  | '[' :: t =>
    match skipSpace t with
    | [] => .error (.on .endInList [])
    | ']' :: rest => .ok ([], rest)
    | t => readItems t
  | t => wrongType .list t

/-- Reads a list of strings, or the word that says that there is none. -/
def readStrings? (s : Text) : Except Fault (Option (List String) × Text) :=
  match skipSpace s with
  | 'n' :: t => do .ok (none, ← readWord ['u', 'l', 'l'] t)
  | t => do
    let (l, rest) ← readStrings t
    .ok (some l, rest)

/-- Passes over the colon behind the name of a field. -/
def readColon (s : Text) : Except Fault Text :=
  match skipSpace s with
  | ':' :: rest => .ok rest
  | [] => .error (.on .endInObject [])
  | rest => .error (.on .expectedColon rest)

end MdxMend.Json
