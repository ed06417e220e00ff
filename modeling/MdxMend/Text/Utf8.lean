import MdxMend.Text.Basic

/-!
# Bytes read as text

A file is bytes. Bytes that are UTF-8 are read as the text they encode; a listing shows the others
too, with a replacement character for each part that encodes nothing. Such a part is as long as it
could still have been the beginning of a character, so three bytes of a cut off four-byte character
make one replacement and three stray continuation bytes make three.
-/

namespace MdxMend.Text

/-- The bytes of `t` in UTF-8. -/
def toBytes (t : Text) : ByteArray := (String.ofList t).toUTF8

/-- The text that the bytes encode, unless they are not UTF-8. -/
def ofBytes? (b : ByteArray) : Option Text := (String.fromUTF8? b).map String.toList

theorem ofBytes?_toBytes (t : Text) : ofBytes? (toBytes t) = some t := by
  have h : String.fromUTF8? (String.ofList t).toUTF8 = some (String.ofList t) := by
    unfold String.fromUTF8?
    exact dif_pos (String.ofList t).isValidUTF8
  rw [ofBytes?, toBytes, h]
  simp

/-- How a character begins, as its first byte tells: how many bytes follow, and between which
bounds the next one lies. -/
def leadByte? (b : Nat) : Option (Nat × Nat × Nat) :=
  if 0xc2 ≤ b && b ≤ 0xdf then some (1, 0x80, 0xbf)
  else if b == 0xe0 then some (2, 0xa0, 0xbf)
  else if b == 0xed then some (2, 0x80, 0x9f)
  else if 0xe1 ≤ b && b ≤ 0xef then some (2, 0x80, 0xbf)
  else if b == 0xf0 then some (3, 0x90, 0xbf)
  else if 0xf1 ≤ b && b ≤ 0xf3 then some (3, 0x80, 0xbf)
  else if b == 0xf4 then some (3, 0x80, 0x8f)
  else none

/-- What has been read of a character: its value so far, how many bytes are due, and the bounds of
the next. -/
structure Partial where
  value : Nat
  due : Nat
  low : Nat
  high : Nat

/-- The value that a first byte contributes when `due` bytes follow it. -/
def leadValue (b due : Nat) : Nat :=
  if due == 1 then b - 0xc0 else if due == 2 then b - 0xe0 else b - 0xf0

/-- The text of a first byte on its own, or the character it begins. -/
def begin (b : Nat) : Text × Option Partial :=
  if b < 0x80 then ([Char.ofNat b], none)
  else
    match leadByte? b with
    | some (due, low, high) => ([], some ⟨leadValue b due, due, low, high⟩)
    | none => (['\ufffd'], none)

/-- Reads bytes behind an unfinished character, with a replacement character for each part that is
not UTF-8. -/
def readBytes : Option Partial → List UInt8 → Text
  | none, [] => []
  | some _, [] => ['\ufffd']
  | none, b :: rest =>
    let (shown, next) := begin b.toNat
    shown ++ readBytes next rest
  | some p, b :: rest =>
    let n := b.toNat
    if p.low ≤ n && n ≤ p.high then
      let value := p.value * 64 + (n - 0x80)
      if p.due == 1 then Char.ofNat value :: readBytes none rest
      else readBytes (some ⟨value, p.due - 1, 0x80, 0xbf⟩) rest
    else
      let (shown, next) := begin n
      '\ufffd' :: shown ++ readBytes next rest

/-- The text that the bytes encode, with replacement characters where they are not UTF-8. -/
def ofBytesLossy (b : ByteArray) : Text := readBytes none b.toList

end MdxMend.Text
