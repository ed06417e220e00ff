import MdxMend.Text.Utf8

/-!
# Texts that may not be UTF-8

The names of files are bytes. Most often they are UTF-8 and can be compared with strings; others
have no string at all, and are only shown as if they had one. Names are compared and ordered by
their bytes.
-/

namespace MdxMend

/-- A name or a path, as it is kept outside. -/
@[ext]
structure RawText where
  bytes : List UInt8
deriving DecidableEq, Repr, Inhabited

namespace RawText

/-- The bytes of a string. -/
def ofString (s : String) : RawText := ⟨s.toUTF8.data.toList⟩

instance : Coe String RawText := ⟨ofString⟩

instance : Append RawText := ⟨fun a b => ⟨a.bytes ++ b.bytes⟩⟩

@[simp] theorem bytes_append (a b : RawText) : (a ++ b).bytes = a.bytes ++ b.bytes := rfl

instance : Ord RawText := ⟨compareOn bytes⟩

/-- The string that the bytes encode, unless they are not UTF-8. -/
def string? (r : RawText) : Option String := String.fromUTF8? ⟨r.bytes.toArray⟩

/-- The bytes as they are shown, with replacement characters where they are not UTF-8. -/
def shown (r : RawText) : String := String.ofList (Text.ofBytesLossy ⟨r.bytes.toArray⟩)

/-- The number of bytes. -/
def size (r : RawText) : Nat := r.bytes.length

theorem string?_ofString (s : String) : string? s = some s := by
  unfold string? String.fromUTF8?
  exact dif_pos s.isValidUTF8

theorem string?_eq_some_iff {r : RawText} {s : String} : r.string? = some s ↔ r = s := by
  refine ⟨fun h => ?_, fun h => h ▸ string?_ofString s⟩
  unfold string? String.fromUTF8? at h
  split at h
  · obtain rfl := Option.some.inj h
    rfl
  · cases h

/-- Different strings have different bytes. -/
@[simp] theorem ofString_inj {s t : String} : ofString s = ofString t ↔ s = t := by
  refine ⟨fun h => ?_, congrArg _⟩
  rw [← Option.some.injEq, ← string?_ofString s, h, string?_ofString]

end RawText

end MdxMend
