import MdxMend.Rule.Builtin
import MdxMend.Proofs.Closing
import MdxMend.Proofs.Matches
import MdxMend.Proofs.Tags

/-!
# Fence lines, one after the other

The rule on fences is a scan for fence lines with an account of the open fence
beside it. A fence line is a whole line, so the scan comes to a walk over the
lines of the text: `retag` says what the walk does to a line and what fence it
leaves open. The pass of the rule is this walk (`pass_normalizeLanguage`).

`FenceLine` is a line that the pattern matches, taken apart. The pattern takes
the longest indent, the longest run and the longest tag, and what is left has to
be a line break; so a line can be taken apart in one way only.
-/

namespace MdxMend

open Text Builtin

/-- A line with a fence: its parts, as the pattern reads them. -/
structure FenceLine where
  indent : Text
  mark : Char
  count : Nat
  tag : Text
  eol : Text
  isIndent_indent : ∀ c ∈ indent, isIndent c = true
  isMark_mark : isMark mark = true
  three_le : Fence.minLength ≤ count
  isTagChar_tag : ∀ c ∈ tag, isTagChar mark c = true
  head?_tag : tag.head? ≠ some mark
  eol_cases : eol = ['\n'] ∨ eol = ['\r', '\n']

namespace FenceLine

/-- The line as it stands in the text. -/
def text (f : FenceLine) : Text :=
  f.indent ++ (List.replicate f.count f.mark ++ (f.tag ++ f.eol))

/-- The fence that the line opens, where it opens one. -/
def fence (f : FenceLine) : Fence := ⟨f.mark, f.count⟩

/-- What the pattern sees of the line. -/
def sighting (f : FenceLine) : Sighting where
  length := f.text.length
  groups := fenceGroups f.mark f.indent (List.replicate f.count f.mark) f.tag f.eol

theorem count_pos (f : FenceLine) : 0 < f.count := Nat.lt_of_lt_of_le (by decide) f.three_le

theorem newline_not_mem_tag (f : FenceLine) : '\n' ∉ f.tag := by
  intro h
  have := f.isTagChar_tag _ h
  simp [isTagChar] at this

/-- What stands in front of the line break. -/
def front (f : FenceLine) : Text := f.indent ++ (List.replicate f.count f.mark ++ f.tag)

theorem text_eq (f : FenceLine) : f.text = f.front ++ f.eol := by simp [text, front]

theorem newline_not_mem_front (f : FenceLine) : '\n' ∉ f.front := by
  simp only [front, List.mem_append, not_or]
  exact ⟨Fence.newline_not_mem_indent f.isIndent_indent,
    Fence.newline_not_mem_marks (f := f.fence) f.isMark_mark _, f.newline_not_mem_tag⟩

theorem return_not_mem_front (f : FenceLine) : '\r' ∉ f.front := by
  simp only [front, List.mem_append, not_or]
  refine ⟨fun h => ?_, fun h => ?_, fun h => ?_⟩
  · exact absurd (f.isIndent_indent _ h) (by decide)
  · exact absurd (List.eq_of_mem_replicate h ▸ f.isMark_mark) (by decide)
  · exact absurd (f.isTagChar_tag _ h) (by simp [isTagChar])

theorem isLine (f : FenceLine) : IsLine f.text := by
  rcases f.eol_cases with h | h
  · exact ⟨f.front, f.newline_not_mem_front, by rw [text_eq, h]⟩
  · refine ⟨f.front ++ ['\r'], ?_, by simp [text_eq, h]⟩
    simp only [List.mem_append, not_or]
    exact ⟨f.newline_not_mem_front, by decide⟩

theorem head?_eol (f : FenceLine) (s : Text) :
    ∀ c ∈ (f.eol ++ s).head?, isTagChar f.mark c = false := by
  intro c hc
  rcases f.eol_cases with h | h <;>
  · rw [h] at hc
    obtain rfl := Option.some.inj hc
    simp [isTagChar]

theorem head?_rest (f : FenceLine) (s : Text) : (f.tag ++ (f.eol ++ s)).head? ≠ some f.mark := by
  intro h
  cases htag : f.tag with
  | nil =>
      rw [htag, List.nil_append] at h
      have hmark := f.isMark_mark
      rcases f.eol_cases with heol | heol <;>
      · rw [heol] at h
        rw [← Option.some.inj h] at hmark
        exact absurd hmark (by decide)
  | cons c tag =>
      rw [htag] at h
      exact f.head?_tag (by rw [htag]; exact h)

theorem lineBreak?_eol (f : FenceLine) (s : Text) :
    lineBreak? (f.eol ++ s) = some f.eol.length := by
  rcases f.eol_cases with h | h <;> rw [h] <;> rfl

theorem fenceParts?_text (f : FenceLine) (s : Text) :
    fenceParts? f.mark (List.replicate f.count f.mark ++ (f.tag ++ (f.eol ++ s))) =
      some (List.replicate f.count f.mark, f.tag, f.eol) := by
  unfold fenceParts?
  simp only [takeWhile_run (f.head?_rest s), dropWhile_run (f.head?_rest s),
    takeWhile_stop f.isTagChar_tag (f.head?_eol s), dropWhile_stop f.isTagChar_tag (f.head?_eol s),
    List.length_replicate, f.lineBreak?_eol, Option.map_some, List.take_left']
  rw [if_neg (Nat.not_lt.mpr f.three_le)]

/-- A line with a fence is found where it begins. -/
theorem fenceLineAt?_text (f : FenceLine) (s : Text) :
    fenceLineAt? (.start (f.text ++ s)) = some f.sighting := by
  have hsplit : f.text ++ s =
      f.indent ++ (List.replicate f.count f.mark ++ (f.tag ++ (f.eol ++ s))) := by
    simp [text]
  obtain ⟨k, hk⟩ : ∃ k, f.count = k + 1 := ⟨f.count - 1, by have := f.count_pos; omega⟩
  have hhead := Fence.head?_marks f.isMark_mark f.count_pos (f.tag ++ (f.eol ++ s))
  have hparts := f.fenceParts?_text s
  unfold fenceLineAt?
  simp only [Place.after_start]
  rw [if_pos (show (Place.start _).meets .lineStart = true from rfl), hsplit,
    takeWhile_stop f.isIndent_indent hhead, dropWhile_stop f.isIndent_indent hhead]
  rw [hk, List.replicate_succ, List.cons_append] at hparts ⊢
  simp only [f.isMark_mark, if_true, hparts, Option.map_some]
  simp only [sighting, text, hk, List.replicate_succ, List.length_append, List.length_cons]
  congr 2
  omega

/-- Only a line with a fence is found. -/
theorem exists_of_fenceLineAt? {t : Text} {σ : Sighting} (h : fenceLineAt? (.start t) = some σ) :
    ∃ (f : FenceLine) (s : Text), t = f.text ++ s ∧ σ = f.sighting := by
  have hfound := h
  unfold fenceLineAt? at h
  simp only [Place.after_start] at h
  rw [if_pos (show (Place.start t).meets .lineStart = true from rfl)] at h
  split at h
  · cases h
  · next c s hfence =>
      split at h
      · next hmark =>
          rw [Option.map_eq_some_iff] at h
          obtain ⟨⟨marks, tag, eol⟩, hparts, -⟩ := h
          unfold fenceParts? at hparts
          simp only [] at hparts
          split at hparts
          · cases hparts
          · next hlen =>
              rw [Option.map_eq_some_iff] at hparts
              obtain ⟨n, hbreak, hparts⟩ := hparts
              simp only [Prod.mk.injEq] at hparts
              obtain ⟨hmarks, htag, heol⟩ := hparts
              have hbreak' : ∃ rest, ((c :: s).dropWhile (· == c)).dropWhile (isTagChar c) =
                  eol ++ rest ∧ (eol = ['\n'] ∨ eol = ['\r', '\n']) := by
                unfold lineBreak? at hbreak
                split at hbreak
                · next rest heq =>
                    obtain rfl := Option.some.inj hbreak
                    exact ⟨rest, by rw [← heol, heq]; rfl, .inl (by rw [← heol, heq]; rfl)⟩
                · next rest heq =>
                    obtain rfl := Option.some.inj hbreak
                    exact ⟨rest, by rw [← heol, heq]; rfl, .inr (by rw [← heol, heq]; rfl)⟩
                · cases hbreak
              obtain ⟨rest, hrest, heol_cases⟩ := hbreak'
              have hindent := List.takeWhile_append_dropWhile (p := isIndent) (l := t)
              have hrun := List.takeWhile_append_dropWhile (p := (· == c)) (l := c :: s)
              have htags := List.takeWhile_append_dropWhile (p := isTagChar c)
                (l := (c :: s).dropWhile (· == c))
              rw [htag, hrest] at htags
              rw [← htags, takeWhile_beq] at hrun
              rw [hfence, ← hrun] at hindent
              let f : FenceLine := {
                indent := t.takeWhile isIndent
                mark := c
                count := ((c :: s).takeWhile (· == c)).length
                tag, eol
                isIndent_indent := of_mem_takeWhile
                isMark_mark := hmark
                three_le := Nat.not_lt.mp hlen
                isTagChar_tag := htag ▸ of_mem_takeWhile
                head?_tag := by
                  intro hhead
                  refine head?_dropWhile_beq c (c :: s) ?_
                  rw [← htags, List.head?_append, hhead]
                  rfl
                eol_cases := heol_cases }
              have ht : t = f.text ++ rest := by
                rw [← hindent]
                simp [text, f]
              refine ⟨f, rest, ht, ?_⟩
              rw [ht, fenceLineAt?_text] at hfound
              exact (Option.some.inj hfound).symm
      · cases h

/-! ### What a fence line does -/

/-- The line with the tag that it should carry. -/
def retagged (f : FenceLine) : FenceLine :=
  match h : Language.resolve? f.tag with
  | none => f
  | some language => { f with
      tag := language.toList
      isTagChar_tag := by
        rcases Language.resolve?_eq_some h with rfl | rfl <;> simp [isTagChar, backtick]
      head?_tag := by
        have hmark := f.isMark_mark
        rcases Language.resolve?_eq_some h with rfl | rfl <;>
        · intro heq
          rw [← Option.some.inj heq] at hmark
          exact absurd hmark (by decide) }

/-- The line closes the fence. -/
def Closes (l : FenceLine) (f : Fence) : Prop :=
  l.mark = f.mark ∧ f.length ≤ l.count ∧ ∀ c ∈ l.tag, isBlank c = true

instance (l : FenceLine) (f : Fence) : Decidable (l.Closes f) :=
  inferInstanceAs (Decidable (_ ∧ _ ∧ _))

theorem retagFence_text (f : FenceLine) :
    retagFence ⟨0, f.text, f.sighting.groups, fenceLine.names⟩ = f.retagged.text := by
  have hmark := f.isMark_mark
  simp only [isMark, Bool.or_eq_true, beq_iff_eq] at hmark
  unfold retagged
  split
  · next h =>
      rcases hmark with hmark | hmark <;>
        simp [retagFence, Match.named?, Match.group?, fenceLine, Pattern.direct, sighting,
          fenceGroups, hmark, List.lookup_cons, backtick, tilde, h]
  · next h =>
      rcases hmark with hmark | hmark <;>
        simp [retagFence, Match.named?, Match.group?, fenceLine, Pattern.direct, sighting,
          fenceGroups, hmark, List.lookup_cons, backtick, tilde, h, text]

theorem dropWhile_text (f : FenceLine) :
    ∃ k, f.count = k + 1 ∧ f.text.dropWhile isIndent =
      f.mark :: (List.replicate k f.mark ++ (f.tag ++ f.eol)) := by
  obtain ⟨k, hk⟩ : ∃ k, f.count = k + 1 := ⟨f.count - 1, by have := f.count_pos; omega⟩
  refine ⟨k, hk, ?_⟩
  rw [text, dropWhile_stop f.isIndent_indent (Fence.head?_marks f.isMark_mark f.count_pos _), hk,
    List.replicate_succ, List.cons_append]

theorem track_none (f : FenceLine) : Fence.track none f.text = (true, some f.fence) := by
  obtain ⟨k, hk, htext⟩ := f.dropWhile_text
  have hrest := f.head?_rest []
  rw [List.append_nil] at hrest
  unfold Fence.track
  rw [htext]
  simp only [takeWhile_run hrest, List.length_replicate, fence, hk]

theorem track_some (l : FenceLine) (f : Fence) :
    Fence.track (some f) l.text = (false, if l.Closes f then none else some f) := by
  obtain ⟨k, hk, htext⟩ := l.dropWhile_text
  have hrest := l.head?_rest []
  rw [List.append_nil] at hrest
  have hblank : (l.tag ++ l.eol).all isBlank = l.tag.all isBlank := by
    rcases l.eol_cases with h | h <;> simp [h, isBlank]
  unfold Fence.track
  rw [htext]
  simp only [takeWhile_run hrest, dropWhile_run hrest, List.length_replicate, isEmpty_trim, hblank,
    ← hk]
  congr 1
  by_cases h : l.Closes f
  · have h' := h
    obtain ⟨hm, hn, ht⟩ := h
    simp [h', hm, hn, List.all_eq_true.mpr ht]
  · rw [if_neg h, if_neg]
    simp only [Bool.and_eq_true, beq_iff_eq, decide_eq_true_eq, List.all_eq_true]
    intro hall
    obtain ⟨⟨hm, hn⟩, ht⟩ := hall
    exact h ⟨hm, hn, ht⟩

theorem track_eq_none_iff (l : FenceLine) (f : Fence) :
    (Fence.track (some f) l.text).2 = none ↔ l.Closes f := by
  rw [l.track_some]
  by_cases h : l.Closes f <;> simp [h]

theorem isClosingBlank_of_mem_tag (l : FenceLine) {c : Char} (hc : c ∈ l.tag) :
    Fence.isClosingBlank c = isIndent c := by
  have hne : c ≠ '\r' := by
    rintro rfl
    exact absurd (l.isTagChar_tag _ hc) (by simp [isTagChar])
  simp [Fence.isClosingBlank, hne]

/-- What the search for a closing line makes of the line: a tag may have spaces and tabs only. -/
theorem isSome_closer? (l : FenceLine) (f : Fence) (s : Text) :
    (f.closer? (l.text ++ s)).isSome = true ↔
      l.mark = f.mark ∧ f.length ≤ l.count ∧ ∀ c ∈ l.tag, isIndent c = true := by
  have htext : l.text ++ s =
      l.indent ++ (List.replicate l.count l.mark ++ (l.tag ++ (l.eol ++ s))) := by
    simp [text]
  have hhead := Fence.head?_marks l.isMark_mark l.count_pos (l.tag ++ (l.eol ++ s))
  unfold Fence.closer?
  simp only [htext, takeWhile_stop l.isIndent_indent hhead, dropWhile_stop l.isIndent_indent hhead,
    apply_ite Option.isSome, Option.isSome_some, Option.isSome_none, Bool.if_false_right]
  by_cases hmark : l.mark = f.mark
  · have hrest : restOfLine (l.tag ++ (l.eol ++ s)) = l.tag ++ l.eol.dropLast := by
      rw [restOfLine_append l.newline_not_mem_tag]
      rcases l.eol_cases with h | h <;> rw [h] <;> rfl
    have heol : l.eol.dropLast.all Fence.isClosingBlank = true := by
      rcases l.eol_cases with h | h <;> rw [h] <;> rfl
    have htag : (∀ c ∈ l.tag, Fence.isClosingBlank c = true) ↔ ∀ c ∈ l.tag, isIndent c = true :=
      forall₂_congr fun c hc => by rw [l.isClosingBlank_of_mem_tag hc]
    rw [← hmark, ← htag]
    simp only [takeWhile_run (l.head?_rest s), dropWhile_run (l.head?_rest s), hrest,
      List.all_append, heol, List.length_replicate, Bool.and_true, decide_eq_true_eq,
      Bool.and_eq_true, List.all_eq_true, true_and]
  · -- The run sought for is empty, and the mark that stands there instead is no blank.
    obtain ⟨k, hk⟩ : ∃ k, l.count = k + 1 := ⟨l.count - 1, by have := l.count_pos; omega⟩
    have hopen : Fence.isClosingBlank l.mark = false :=
      Fence.isClosingBlank_of_isMark l.isMark_mark
    simp [hk, List.replicate_succ, hmark, restOfLine, hopen, ne_newline_of_isMark l.isMark_mark]

end FenceLine

/-! ## The walk over lines -/

/-- What is made of a match does not depend on where it starts. -/
theorem retagFence_start (n : Nat) (x : Text) (groups : Groups) (names : List (String × Nat)) :
    retagFence ⟨n, x, groups, names⟩ = retagFence ⟨0, x, groups, names⟩ := rfl

/-- What the rule on fences makes of a line, where `open?` is the fence that is
open in front of it, and the fence that is open behind it. -/
def retag (open? : Option Fence) (l : Text) : Text × Option Fence :=
  match fenceLineAt? (.start l) with
  | none => (l, open?)
  | some σ =>
    let (opened, next) := Fence.track open? l
    (if opened then retagFence ⟨0, l, σ.groups, fenceLine.names⟩ else l, next)

/-- The lines as the rule on fences leaves them. -/
def retagLines (open? : Option Fence) : List Text → List Text
  | [] => []
  | l :: ls => (retag open? l).1 :: retagLines (retag open? l).2 ls

/-- The fence that is open behind lines. -/
def trackLines (open? : Option Fence) : List Text → Option Fence
  | [] => open?
  | l :: ls => trackLines (retag open? l).2 ls

theorem retag_none (f : FenceLine) : retag none f.text = (f.retagged.text, some f.fence) := by
  have h := f.fenceLineAt?_text []
  rw [List.append_nil] at h
  unfold retag
  rw [h, f.track_none]
  simp only [if_true, f.retagFence_text]

theorem retag_some (l : FenceLine) (f : Fence) :
    retag (some f) l.text = (l.text, if l.Closes f then none else some f) := by
  have h := l.fenceLineAt?_text []
  rw [List.append_nil] at h
  unfold retag
  rw [h, l.track_some]
  rfl

/-- A line without a fence is no match, whatever follows. -/
theorem fenceLineAt?_other {l : Text} (hl : IsLine l) (h : ∀ f : FenceLine, l ≠ f.text)
    (s : Text) : fenceLineAt? (.start (l ++ s)) = none := by
  rw [Option.eq_none_iff_forall_ne_some]
  intro σ hσ
  obtain ⟨f, rest, heq, -⟩ := FenceLine.exists_of_fenceLineAt? hσ
  have hlines := lines_line hl s
  rw [heq, lines_line f.isLine] at hlines
  exact h f (List.cons.inj hlines).1.symm

/-- A last line that lacks its line feed is no match. -/
theorem fenceLineAt?_last {x : Text} (hx : '\n' ∉ x) : fenceLineAt? (.start x) = none := by
  rw [Option.eq_none_iff_forall_ne_some]
  intro σ hσ
  obtain ⟨f, rest, rfl, -⟩ := FenceLine.exists_of_fenceLineAt? hσ
  obtain ⟨y, -, hy⟩ := f.isLine
  exact hx (by simp [hy])

theorem retag_other {l : Text} (hl : IsLine l) (h : ∀ f : FenceLine, l ≠ f.text)
    (open? : Option Fence) : retag open? l = (l, open?) := by
  have hnone := fenceLineAt?_other hl h []
  rw [List.append_nil] at hnone
  unfold retag
  rw [hnone]

theorem retag_last {x : Text} (hx : '\n' ∉ x) (open? : Option Fence) :
    retag open? x = (x, open?) := by
  unfold retag
  rw [fenceLineAt?_last hx]

theorem retagLines_append (open? : Option Fence) (ls ms : List Text) :
    retagLines open? (ls ++ ms) = retagLines open? ls ++ retagLines (trackLines open? ls) ms := by
  induction ls generalizing open? with
  | nil => rfl
  | cons l ls ih => rw [List.cons_append, retagLines, ih, retagLines, trackLines, List.cons_append]

theorem trackLines_append (open? : Option Fence) (ls ms : List Text) :
    trackLines open? (ls ++ ms) = trackLines (trackLines open? ls) ms := by
  induction ls generalizing open? with
  | nil => rfl
  | cons l ls ih => rw [List.cons_append, trackLines, ih, trackLines]

/-! ## The scan -/

theorem fenceLineAt?_lineStart {b : Option Char} (hb : b = none ∨ b = some '\n') (t : Text) :
    fenceLineAt? ⟨b, t⟩ = fenceLineAt? (.start t) := by
  rcases hb with rfl | rfl <;> rfl

theorem fenceLineAt?_inside {c : Char} (hc : c ≠ '\n') (t : Text) :
    fenceLineAt? ⟨some c, t⟩ = none := by
  unfold fenceLineAt?
  rw [if_neg]
  simpa [Place.meets] using hc

/-- A match is found only at the start of a line, and it is a fence line. -/
theorem FenceLine.exists_of_found {p : Place} {σ : Sighting} (h : fenceLineAt? p = some σ) :
    ∃ (f : FenceLine) (s : Text), p.after = f.text ++ s ∧ σ = f.sighting := by
  obtain ⟨b, t⟩ := p
  have hb : b = none ∨ b = some '\n' := by
    cases b with
    | none => exact .inl rfl
    | some c =>
        refine .inr (congrArg some ?_)
        by_contra hc
        rw [fenceLineAt?_inside hc] at h
        cases h
  rw [fenceLineAt?_lineStart hb] at h
  exact exists_of_fenceLineAt? h

theorem covers_fenceLineAt? : Pattern.Covers fenceLineAt? := by
  intro p σ h
  obtain ⟨f, s, hafter, rfl⟩ := FenceLine.exists_of_found h
  have hpos := List.length_pos_iff.mpr f.isLine.ne_nil
  simp only [hafter, FenceLine.sighting, List.length_append]
  omega

/-- The scan of a line with a fence finds all of it. -/
theorem scan_fenceLine {b : Option Char} (hb : b = none ∨ b = some '\n') (f : FenceLine)
    (n : Nat) (s : Text) :
    fenceLine.scanFrom n ⟨b, f.text ++ s⟩ false =
      (fenceLine.scanFrom (n + byteLength f.text) ⟨some '\n', s⟩ false).add
        ⟨[], n, f.text, f.sighting.groups, fenceLine.names⟩ := by
  have hrec : fenceLineAt? ⟨b, f.text ++ s⟩ = some f.sighting := by
    rw [fenceLineAt?_lineStart hb, f.fenceLineAt?_text]
  have hplace : (⟨b, f.text ++ s⟩ : Place).advance f.sighting.length = ⟨some '\n', s⟩ := by
    obtain ⟨x, -, hx⟩ := f.isLine
    simp only [Place.advance, FenceLine.sighting, List.take_left', List.drop_left', hx,
      List.getLast?_concat, Option.some_or]
  have hhit : fenceLine.scanFrom n ⟨b, f.text ++ s⟩ false = _ :=
    Pattern.scanFrom_hit covers_fenceLineAt? n hrec
  rw [hplace] at hhit
  rw [hhit]
  simp only [FenceLine.sighting, List.take_left']
  rfl

/-- Where no match begins, none begins before the next line. -/
theorem scan_passed {x : Text} (hx : '\n' ∉ x) {b : Option Char} (n : Nat) {s : Text}
    (h : fenceLineAt? ⟨b, x ++ s⟩ = none) :
    ∃ b', fenceLine.scanFrom n ⟨b, x ++ s⟩ false =
        x.foldr Scan.push (fenceLine.scanFrom (n + byteLength x) ⟨b', s⟩ false) ∧
      fenceLineAt? ⟨b', s⟩ = none := by
  induction x generalizing b n with
  | nil => exact ⟨b, rfl, h⟩
  | cons c x ih =>
      have hc : c ≠ '\n' := fun heq => hx (heq ▸ List.mem_cons_self)
      obtain ⟨b', hscan, hb'⟩ := ih (fun hmem => hx (List.mem_cons_of_mem c hmem))
        (n + c.utf8Size) (fenceLineAt?_inside hc (x ++ s))
      refine ⟨b', ?_, hb'⟩
      rw [List.foldr_cons, byteLength_cons, ← Nat.add_assoc, ← hscan]
      exact Pattern.scanFrom_miss covers_fenceLineAt? n h

theorem scan_other {b : Option Char} (hb : b = none ∨ b = some '\n') {l : Text} (hl : IsLine l)
    (h : ∀ f : FenceLine, l ≠ f.text) (n : Nat) (s : Text) :
    fenceLine.scanFrom n ⟨b, l ++ s⟩ false =
      l.foldr Scan.push (fenceLine.scanFrom (n + byteLength l) ⟨some '\n', s⟩ false) := by
  have hnone := fenceLineAt?_other hl h s
  obtain ⟨x, hx, rfl⟩ := hl
  rw [← fenceLineAt?_lineStart hb, List.append_assoc] at hnone
  obtain ⟨b', hscan, hb'⟩ := scan_passed hx n hnone
  have hmiss : fenceLine.scanFrom (n + byteLength x) ⟨b', '\n' :: s⟩ false = _ :=
    Pattern.scanFrom_miss covers_fenceLineAt? _ hb'
  rw [List.append_assoc, hscan, List.foldr_append, List.singleton_append, hmiss,
    byteLength_append, ← Nat.add_assoc]
  rfl

theorem scan_last {b : Option Char} (hb : b = none ∨ b = some '\n') (n : Nat) {x : Text}
    (hx : '\n' ∉ x) : fenceLine.scanFrom n ⟨b, x⟩ false = ⟨[], x⟩ := by
  have hnone := fenceLineAt?_last hx
  rw [← fenceLineAt?_lineStart hb, ← List.append_nil x] at hnone
  obtain ⟨b', hscan, -⟩ := scan_passed hx n hnone
  rw [List.append_nil] at hscan
  rw [hscan, show fenceLine.scanFrom _ ⟨b', []⟩ false = ⟨[], []⟩ from
    Pattern.scanFrom_nil covers_fenceLineAt? _ b']
  clear hx hnone hscan
  induction x with
  | nil => rfl
  | cons c x ih => rw [List.foldr_cons, ih, Scan.push]

/-! ## The pass -/

namespace Scan

variable (open? : Option Fence)

/-- The matches of a scan, each with whether it opens a fence. -/
def tracked (s : Scan) : List (Hit × Bool) :=
  s.hits.zip (Fence.openers open? (s.hits.map (·.found.text)))

/-- The text with the opening lines renewed. -/
def retagged (s : Scan) : Text :=
  ((s.tracked open?).flatMap fun h => h.1.gap ++ renewed retagFence h) ++ s.tail

/-- The number of opening lines that come out different. -/
def retags (s : Scan) : Nat :=
  (s.tracked open?).countP fun h => renewed retagFence h ≠ h.1.found.text

theorem retagged_pushes (x : Text) (s : Scan) :
    (x.foldr push s).retagged open? = x ++ s.retagged open? ∧
      (x.foldr push s).retags open? = s.retags open? := by
  induction x with
  | nil => exact ⟨rfl, rfl⟩
  | cons c x ih =>
      rw [List.foldr_cons, List.cons_append, ← ih.1, ← ih.2]
      obtain ⟨hits, tail⟩ := x.foldr push s
      cases hits with
      | nil => exact ⟨rfl, rfl⟩
      | cons h hits =>
          simp only [push, retagged, retags, tracked, List.map_cons, Fence.openers,
            List.zip_cons_cons, List.flatMap_cons, List.countP_cons, renewed, List.cons_append,
            List.append_assoc, and_self]

theorem retagged_add (h : Hit) (s : Scan) :
    (s.add h).retagged open? =
        h.gap ++ (renewed retagFence (h, (Fence.track open? h.found.text).1) ++
          s.retagged (Fence.track open? h.found.text).2) ∧
      (s.add h).retags open? =
        s.retags (Fence.track open? h.found.text).2 +
          if renewed retagFence (h, (Fence.track open? h.found.text).1) ≠ h.found.text
          then 1 else 0 := by
  simp only [add, retagged, retags, tracked, List.map_cons, Fence.openers, List.zip_cons_cons,
    List.flatMap_cons, List.countP_cons, List.append_assoc, decide_eq_true_eq, and_self]

end Scan

/-- The number of lines that differ from those in their places. -/
def changed (ls ms : List Text) : Nat := (ls.zip ms).countP fun p => p.2 ≠ p.1

/-- The scan with its account of the open fence is the walk over the lines. -/
theorem scan_retagged {ls : List Text} (hls : Lined ls) :
    ∀ (n : Nat) {b : Option Char}, (b = none ∨ b = some '\n') → ∀ open? : Option Fence,
      (fenceLine.scanFrom n ⟨b, ls.flatten⟩ false).retagged open? =
          (retagLines open? ls).flatten ∧
        (fenceLine.scanFrom n ⟨b, ls.flatten⟩ false).retags open? =
          changed ls (retagLines open? ls) := by
  induction hls with
  | nil =>
      intro n b _ open?
      rw [List.flatten_nil, show fenceLine.scanFrom n ⟨b, []⟩ false = ⟨[], []⟩ from
        Pattern.scanFrom_nil covers_fenceLineAt? n b]
      exact ⟨rfl, rfl⟩
  | @last x hne hx =>
      intro n b hb open?
      rw [List.flatten_cons, List.flatten_nil, List.append_nil, scan_last hb n hx, retagLines,
        retag_last hx]
      simp [Scan.retagged, Scan.retags, Scan.tracked, retagLines, changed]
  | @line l ls hl hls ih =>
      intro n b hb open?
      rw [List.flatten_cons, retagLines, List.flatten_cons]
      by_cases hfence : ∃ f : FenceLine, l = f.text
      · obtain ⟨f, rfl⟩ := hfence
        have hadd := Scan.retagged_add open? ⟨[], n, f.text, f.sighting.groups, fenceLine.names⟩
          (fenceLine.scanFrom (n + byteLength f.text) ⟨some '\n', ls.flatten⟩ false)
        have hretag : retag open? f.text =
            (renewed retagFence (⟨[], n, f.text, f.sighting.groups, fenceLine.names⟩,
              (Fence.track open? f.text).1), (Fence.track open? f.text).2) := by
          have h := f.fenceLineAt?_text []
          rw [List.append_nil] at h
          unfold retag renewed
          rw [h, retagFence_start n]
        obtain ⟨htext, hcount⟩ := ih (n + byteLength f.text) (.inr rfl) (Fence.track open? f.text).2
        rw [scan_fenceLine hb, hadd.1, hadd.2, htext, hcount, hretag]
        refine ⟨rfl, ?_⟩
        simp only [changed, List.zip_cons_cons, List.countP_cons, decide_eq_true_eq]
      · have hother : ∀ f : FenceLine, l ≠ f.text := fun f hf => hfence ⟨f, hf⟩
        have hpush := Scan.retagged_pushes open? l
          (fenceLine.scanFrom (n + byteLength l) ⟨some '\n', ls.flatten⟩ false)
        obtain ⟨htext, hcount⟩ := ih (n + byteLength l) (.inr rfl) open?
        rw [scan_other hb hl hother, hpush.1, hpush.2, htext, hcount, retag_other hl hother]
        simp [changed]

/-- The pass of the rule on fences, line by line. -/
theorem pass_normalizeLanguage (t : Text) :
    normalizeLanguage.pass t =
      .ok (if changed (lines t) (retagLines none (lines t)) = 0 then none
        else some ⟨(retagLines none (lines t)).flatten,
          changed (lines t) (retagLines none (lines t))⟩) := by
  obtain ⟨htext, hcount⟩ := scan_retagged (lined_lines t) 0 (.inl rfl) none
  rw [flatten_lines] at htext hcount
  rw [← htext, ← hcount]
  rw [Rule.pass_of_renders (f := retagFence) fun _ _ _ => rfl]
  rfl

theorem length_retagLines (open? : Option Fence) (ls : List Text) :
    (retagLines open? ls).length = ls.length := by
  induction ls generalizing open? with
  | nil => rfl
  | cons l ls ih => rw [retagLines, List.length_cons, List.length_cons, ih]

theorem changed_eq_zero {ls ms : List Text} (hlen : ms.length = ls.length) :
    changed ls ms = 0 ↔ ms = ls := by
  induction ls generalizing ms with
  | nil =>
      obtain rfl := List.eq_nil_of_length_eq_zero hlen
      simp [changed]
  | cons l ls ih =>
      cases ms with
      | nil => cases hlen
      | cons m ms =>
          rw [List.length_cons, List.length_cons, Nat.add_right_cancel_iff] at hlen
          have hrest := ih hlen
          simp only [changed, List.zip_cons_cons, List.countP_cons] at hrest ⊢
          rw [Nat.add_eq_zero_iff, hrest, List.cons.injEq]
          by_cases h : m = l <;> simp [h]

theorem apply_normalizeLanguage (p : Progress) :
    normalizeLanguage.apply p =
      ⟨(retagLines none (lines p.text)).flatten,
        p.tally.record normalizeLanguage.name
          (changed (lines p.text) (retagLines none (lines p.text))), p.log⟩ := by
  unfold Rule.apply
  rw [pass_normalizeLanguage]
  by_cases h : changed (lines p.text) (retagLines none (lines p.text)) = 0
  · rw [if_pos h, h, (changed_eq_zero (length_retagLines _ _)).mp h, flatten_lines]
    rfl
  · rw [if_neg h]

end MdxMend
