import MdxMend.Pattern.Scan

/-!
# Replacement templates

A template is text with references to the groups of a match. `$$` is a dollar sign, `$name` refers
to the group with the longest such name, and `$` with a name in braces sets the name off from what
follows. A name that is a number refers to the group of that number. A dollar sign that begins no
reference stands for itself, and a group that is unknown or took no part leaves nothing.
-/

namespace MdxMend

/-- A piece of a template. -/
inductive Template.Part where
  | char (c : Char)
  | index (n : Nat)
  | name (s : String)
deriving DecidableEq, Repr

/-- A template: its pieces, and how it was written. -/
structure Template where
  source : String
  parts : List Template.Part
deriving DecidableEq, Repr

namespace Template

open Text

/-- The characters of a name without braces. -/
def isNameChar (c : Char) : Bool :=
  isDigit c || ('A' ≤ c && c ≤ 'Z') || ('a' ≤ c && c ≤ 'z') || c == '_'

/-- A reference by what is written in it: a number, with or without a plus sign, or a name. -/
def reference (name : Text) : Part :=
  let digits := if name.head? == some '+' then name.tail else name
  if !digits.isEmpty && digits.all isDigit then
    .index (digits.foldl (fun n c => 10 * n + digitValue c) 0)
  else .name (String.ofList name)

/-- The reference that follows a dollar sign, and the rest of the template. -/
def reference? : Text → Option (Part × Text)
  | '\x7b' :: s =>
    match s.dropWhile (· != '\x7d') with
    | _ :: rest => some (reference (s.takeWhile (· != '\x7d')), rest)
    | [] => none
  | s =>
    let name := s.takeWhile isNameChar
    if name.isEmpty then none else some (reference name, s.dropWhile isNameChar)

theorem reference?_length {s rest : Text} {part : Part} (h : reference? s = some (part, rest)) :
    rest.length ≤ s.length := by
  unfold reference? at h
  split at h
  · rename_i s
    have := length_dropWhile_le (· != '\x7d') s
    split at h
    · rename_i he
      rw [he] at this
      simp only [List.length_cons] at this
      simp only [Option.some.injEq, Prod.mk.injEq] at h
      rw [← h.2]
      simp only [List.length_cons]
      omega
    · simp at h
  · simp only [] at h
    split at h
    · simp at h
    · simp only [Option.some.injEq, Prod.mk.injEq] at h
      rw [← h.2]
      exact length_dropWhile_le _ _

/-- The pieces of a template as written. -/
def partsOf : Text → List Part
  | [] => []
  | c :: s =>
    if c == '$' then
      if s.head? == some '$' then .char '$' :: partsOf s.tail
      else
        match _h : reference? s with
        | some (part, rest) => part :: partsOf rest
        | none => .char '$' :: partsOf s
    else .char c :: partsOf s
termination_by s => s.length
decreasing_by
  · simp only [List.length_cons, List.length_tail]
    omega
  · have := reference?_length _h
    simp only [List.length_cons]
    omega
  · simp
  · simp

/-- Reads a template. -/
def ofSource (source : String) : Template := ⟨source, partsOf source.toList⟩

/-- What one piece stands for in a match. -/
def Part.expand (m : Match) : Part → Text
  | .char c => [c]
  | .index n => (m.group? n).getD []
  | .name s => (m.named? s).getD []

/-- The text that the template gives for a match. -/
def expand (t : Template) (m : Match) : Text := t.parts.flatMap (·.expand m)

end Template

end MdxMend
