import MdxMend.Text.Basic
import MdxMend.Text.CaseTable

/-!
# Lower case

The lower-case form of a text is the full mapping of Unicode: most characters have one small
letter, the dotted capital I has two characters, and the form of a capital sigma depends on where
it stands. A sigma that ends a word is written in its final form; it ends one when a letter stands
before it and none after it, where apostrophes, accents and the like are passed over.

Comparison without case is a different matter. It never looks at neighbours, and it joins letters
that are no capital and small letter of each other, such as the Kelvin sign and both forms of `k`.
`caseKey` picks one letter for each such family, and `caseFamily` lists the family.
-/

namespace MdxMend.Text

/-- Membership in a list of inclusive ranges. -/
def inRanges (ranges : List (Nat × Nat)) (c : Char) : Bool :=
  ranges.any fun r => r.1 ≤ c.toNat && c.toNat ≤ r.2

namespace CaseRun

/-- The small letter of the capital `n`, if it belongs to the run. -/
def small? (r : CaseRun) (n : Nat) : Option Nat :=
  if r.first ≤ n && n ≤ r.last && (n - r.first) % r.step == 0 then some (n - r.first + r.image)
  else none

/-- The capital of the run whose small letter is `n`. -/
def capital? (r : CaseRun) (n : Nat) : Option Nat :=
  if r.image ≤ n && n ≤ r.last - r.first + r.image && (n - r.image) % r.step == 0 then
    some (n - r.image + r.first)
  else none

end CaseRun

/-- The small letter of `c`, or `c` itself where it has none. -/
def smallLetter (c : Char) : Char :=
  if c.toNat < 0x80 then
    if 'A' ≤ c && c ≤ 'Z' then Char.ofNat (c.toNat + 32) else c
  else
    ((lowercaseRuns.findSome? (·.small? c.toNat)).map Char.ofNat).getD c

/-- Whether the first character of `t` that is not passed over is a letter with case. -/
def meetsLetter (t : Text) : Bool :=
  match t.dropWhile (inRanges ignorableRanges) with
  | [] => false
  | c :: _ => inRanges casedRanges c

/-- The lower-case form of `t`, where `before` holds the characters in front of it, the nearest
first. -/
def lowercaseAfter (before : Text) : Text → Text
  | [] => []
  | c :: t =>
    let small :=
      if c == 'Σ' then
        [if meetsLetter before && !meetsLetter t then 'ς' else 'σ']
      else if c == 'İ' then ['i', '\u0307']
      else [smallLetter c]
    small ++ lowercaseAfter (c :: before) t

/-- The lower-case form of a text. -/
def lowercase (t : Text) : Text := lowercaseAfter [] t

/-- The letter that stands for `c` in comparisons without case. -/
def caseKey (c : Char) : Char :=
  ((caseVariants.lookup c.toNat).map Char.ofNat).getD (smallLetter c)

/-- All letters that a comparison without case takes for `c`, `c` among them. -/
def caseFamily (c : Char) : List Char :=
  let key := (caseKey c).toNat
  let capitals := lowercaseRuns.filterMap (·.capital? key)
  let variants := (caseVariants.filter (·.2 == key)).map (·.1)
  c :: (key :: capitals ++ variants).map Char.ofNat

end MdxMend.Text
