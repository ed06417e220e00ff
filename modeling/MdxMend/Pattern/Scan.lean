import MdxMend.Pattern.Place

/-!
# Patterns and all their matches in a text

For what uses it, a pattern is a way to find its first match from a place on. `Pattern.scan` cuts a
text at the matches of a pattern: the matches do not overlap, each is the first that is left, and
an empty match is refused at the place where the match before it ended.

The result keeps what lies between the matches too, so nothing of the text is lost, whatever the
pattern finds: it is the gaps, the matched texts and the tail, in order (`Pattern.text_scan`). A
match is known by where it starts as well; places in a text are counted in bytes.
-/

namespace MdxMend

/-- What a group matched, and the number of bytes of the match in front of it. -/
structure Group where
  skip : Nat
  text : Text
deriving DecidableEq, Repr

/-- What was matched by the numbered groups that took part in a match. -/
abbrev Groups := List (Nat × Group)

/-- A match at a place: how many characters it covers and what its groups matched. -/
structure Sighting where
  length : Nat
  groups : Groups := []
deriving DecidableEq, Repr

/-- A pattern: how it is written, the names of its groups, and the first match from a place on, with
the number of characters that lie before it. -/
structure Pattern where
  source : String
  names : List (String × Nat) := []
  find? : Place → Option (Nat × Sighting)

/-- A match: the number of bytes in front of it, the text it covers and what the groups of the
pattern matched in it. -/
structure Match where
  start : Nat
  text : Text
  groups : Groups
  names : List (String × Nat)

namespace Match

/-- The number of bytes up to the end of a match. -/
def stop (m : Match) : Nat := m.start + Text.byteLength m.text

/-- The text of a group, if the group took part in the match. Group zero is the whole match. -/
def group? (m : Match) (index : Nat) : Option Text :=
  if index == 0 then some m.text else (m.groups.lookup index).map Group.text

/-- The text of a group given by name, if there is such a group and it took part in the match. -/
def named? (m : Match) (name : String) : Option Text :=
  (m.names.lookup name).bind m.group?

end Match

/-- A match and the text between it and the match before. -/
structure Hit where
  gap : Text
  found : Match

/-- A text cut at matches. -/
structure Scan where
  hits : List Hit
  tail : Text

namespace Scan

/-- The text that was cut. -/
def text (s : Scan) : Text :=
  s.hits.flatMap (fun h => h.gap ++ h.found.text) ++ s.tail

/-- Puts one more character in front, which no match covers. -/
def push (c : Char) : Scan → Scan
  | ⟨[], tail⟩ => ⟨[], c :: tail⟩
  | ⟨h :: hits, tail⟩ => ⟨{ h with gap := c :: h.gap } :: hits, tail⟩

/-- Puts one more match in front, with the text before it. -/
def add (h : Hit) (s : Scan) : Scan := { s with hits := h :: s.hits }

@[simp] theorem text_push (c : Char) (s : Scan) : (s.push c).text = c :: s.text := by
  obtain ⟨hits, tail⟩ := s
  cases hits <;> simp [push, text]

@[simp] theorem text_add (h : Hit) (s : Scan) :
    (s.add h).text = h.gap ++ h.found.text ++ s.text := by
  simp [add, text]

end Scan

namespace Pattern

/-- What is sighted `skip` characters on as a hit, where `n` bytes lie in front. -/
def hitAt (r : Pattern) (n : Nat) (t : Text) (skip : Nat) (s : Sighting) : Hit :=
  ⟨t.take skip,
    ⟨n + Text.byteLength (t.take skip), (t.drop skip).take s.length, s.groups, r.names⟩⟩

/-- The matches from `p` on, where `n` bytes lie in front and `barred` tells that a match ended at
`p`. -/
def scanFrom (r : Pattern) (n : Nat) (p : Place) (barred : Bool) : Scan :=
  match r.find? p with
  | none => ⟨[], p.after⟩
  | some (skip, s) =>
    match _h : p.after with
    | [] => ⟨if barred then [] else [r.hitAt n [] 0 s], []⟩
    | c :: after =>
      if skip + s.length = 0 then
        let rest := (scanFrom r (n + c.utf8Size) ⟨some c, after⟩ false).push c
        if barred then rest else rest.add (r.hitAt n p.after 0 s)
      else
        let passed := Text.byteLength (p.after.take (skip + s.length))
        (scanFrom r (n + passed) (p.advance (skip + s.length)) true).add (r.hitAt n p.after skip s)
termination_by p.after.length
decreasing_by
  · simp [_h]
  · simp only [Place.after_advance, List.length_drop, _h, List.length_cons]
    omega

/-- Cuts a text at all matches. -/
def scan (r : Pattern) (t : Text) : Scan := r.scanFrom 0 (.start t) false

theorem text_hitAt (r : Pattern) (n : Nat) (t : Text) (skip : Nat) (s : Sighting) :
    (r.hitAt n t skip s).gap ++ (r.hitAt n t skip s).found.text = t.take (skip + s.length) := by
  simp [hitAt, List.take_add]

theorem text_scanFrom (r : Pattern) (n : Nat) (p : Place) (barred : Bool) :
    (r.scanFrom n p barred).text = p.after := by
  fun_induction scanFrom r n p barred with
  | case1 => simp [Scan.text]
  | case2 n p barred skip s _ h =>
    cases barred <;> simp [h, Scan.text, hitAt]
  | case3 n p skip s _ c after h hn rest ih =>
    simp only [rest, Scan.text_push, ih, h]
  | case4 n p barred skip s _ c after h hn rest _ ih =>
    have hs : s.length = 0 := by omega
    simp only [Scan.text_add, text_hitAt, rest, Scan.text_push, ih, h, hs, Nat.add_zero,
      List.take_zero, List.nil_append]
  | case5 n p barred skip s _ c after h hn passed ih =>
    simp only [Scan.text_add, text_hitAt, ih, Place.after_advance, List.take_append_drop]

/-- Cutting loses nothing. -/
theorem text_scan (r : Pattern) (t : Text) : (r.scan t).text = t := text_scanFrom r _ _ _

/-- The first place from which `recognize` sees a match, where `skip` characters lie before. -/
def firstFrom (recognize : Place → Option Sighting) (skip : Nat) (before : Option Char) :
    Text → Option (Nat × Sighting)
  | [] => (recognize ⟨before, []⟩).map (skip, ·)
  | c :: t =>
    match recognize ⟨before, c :: t⟩ with
    | some s => some (skip, s)
    | none => firstFrom recognize (skip + 1) (some c) t

/-- The pattern that matches where `recognize` sees a match. -/
def direct (source : String) (names : List (String × Nat)) (recognize : Place → Option Sighting) :
    Pattern :=
  { source, names, find? := fun p => firstFrom recognize 0 p.before p.after }

end Pattern

end MdxMend
