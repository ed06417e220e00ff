import MdxMend.Text.LetterTable
import MdxMend.Text.Lowercase

/-!
# Letters, numerals and words

What a name may consist of is decided by two classes of Unicode: alphabetic characters and
numerals. Both are much wider than the letters and digits of ASCII, and some numerals, such as the
Roman ones, are in both. Words are a third matter: besides letters they have decimal digits, marks,
joiners and connecting punctuation in them, but no other numerals.
-/

namespace MdxMend.Text

/-- Whether `c` is alphabetic. -/
def isLetter (c : Char) : Bool :=
  if c.toNat < 0x80 then c.isAlpha else inRanges letterRanges c

/-- Whether `c` is a numeral. -/
def isNumeral (c : Char) : Bool :=
  if c.toNat < 0x80 then isDigit c else inRanges numeralRanges c

/-- Whether `c` is a decimal digit of some script. -/
def isDecimal (c : Char) : Bool :=
  if c.toNat < 0x80 then isDigit c else inRanges decimalRanges c

/-- Whether `c` may stand in a word. -/
def isWordChar (c : Char) : Bool :=
  if c.toNat < 0x80 then c.isAlphanum || c == '_'
  else inRanges letterRanges c || inRanges wordMarkRanges c

end MdxMend.Text
