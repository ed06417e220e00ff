/-!
# Texts

A text is the list of its characters, so that a definition can follow it from the front and a
proof can do induction on it. Names, paths and messages stay strings; a document, a line of it and
a stretch of it are texts.

Two classes of characters come up everywhere. A *blank* is what Unicode counts as white space; a
name is trimmed of blanks. An *indent* is a space or a tab, the only characters that may stand
before a code fence on its line.
-/

namespace MdxMend

/-- A text as the list of its characters. -/
abbrev Text := List Char

namespace Text

/-- The white space of Unicode. Zero-width characters and the byte order mark are not in it. -/
def isBlank (c : Char) : Bool :=
  let n := c.toNat
  (0x9 ≤ n && n ≤ 0xd) || n == 0x20 || n == 0x85 || n == 0xa0 || n == 0x1680 ||
    (0x2000 ≤ n && n ≤ 0x200a) || n == 0x2028 || n == 0x2029 || n == 0x202f ||
    n == 0x205f || n == 0x3000

/-- A space or a tab. -/
def isIndent (c : Char) : Bool := c == ' ' || c == '\t'

/-- The digits `0` to `9`. -/
def isDigit (c : Char) : Bool := '0' ≤ c && c ≤ '9'

/-- The value of a digit. -/
def digitValue (c : Char) : Nat := c.toNat - '0'.toNat

/-- The value of a hexadecimal digit. -/
def hexValue? (c : Char) : Option Nat :=
  if isDigit c then some (digitValue c)
  else if 'a' ≤ c && c ≤ 'f' then some (c.toNat - 'a'.toNat + 10)
  else if 'A' ≤ c && c ≤ 'F' then some (c.toNat - 'A'.toNat + 10)
  else none

/-- `t` without its last characters that satisfy `p`. -/
def dropEndWhile (p : Char → Bool) (t : Text) : Text := (t.reverse.dropWhile p).reverse

/-- `t` without the blanks at both ends. -/
def trim (t : Text) : Text := dropEndWhile isBlank (t.dropWhile isBlank)

/-- The pieces of a list between the elements `sep`, of a text between characters for one. There is
one more of them than of `sep`. -/
def split {α : Type} [BEq α] (sep : α) : List α → List (List α)
  | [] => [[]]
  | c :: t =>
    if c == sep then [] :: split sep t
    else
      match split sep t with
      | [] => [[c]]
      | piece :: pieces => (c :: piece) :: pieces

/-- The first line of `t`, without its line feed. -/
def restOfLine (t : Text) : Text := t.takeWhile (· != '\n')

/-- The number of bytes of `t` in UTF-8. -/
def byteLength (t : Text) : Nat := t.foldr (fun c n => c.utf8Size + n) 0

@[simp] theorem byteLength_nil : byteLength [] = 0 := rfl

@[simp] theorem byteLength_cons (c : Char) (t : Text) :
    byteLength (c :: t) = c.utf8Size + byteLength t := by
  simp [byteLength]

/-- What is left of `t` behind its first `n` bytes. -/
def dropBytes : Nat → Text → Text
  | _, [] => []
  | n, c :: t => if n = 0 then c :: t else dropBytes (n - c.utf8Size) t

/-- The first `n` bytes of `t`. -/
def takeBytes : Nat → Text → Text
  | _, [] => []
  | n, c :: t => if n = 0 then [] else c :: takeBytes (n - c.utf8Size) t

/-- The part of `t` between two numbers of bytes. -/
def slice (t : Text) (first last : Nat) : Text := takeBytes (last - first) (dropBytes first t)

theorem length_dropWhile_le (p : Char → Bool) (t : Text) :
    (t.dropWhile p).length ≤ t.length :=
  (List.dropWhile_sublist p).length_le

/-- What is left behind the first characters of `s`, when `rest` is left of it. It is never longer
than `s`, so a reader that goes on there ends. -/
def behind (s rest : Text) : Text := s.drop (s.length - rest.length)

theorem behind_length (s rest : Text) : (behind s rest).length ≤ s.length := by
  rw [behind, List.length_drop]
  omega

theorem behind_append (s rest : Text) : behind (s ++ rest) rest = rest := by
  simp [behind]

end Text

/-- A string without the blanks at both ends. -/
def trimmed (s : String) : String := String.ofList (Text.trim s.toList)

end MdxMend
