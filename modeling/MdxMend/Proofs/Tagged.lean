import MdxMend.Proofs.Again
import MdxMend.Proofs.KeptCode

/-!
# Which blocks a repair gives a tag

A repair is meant to leave no block with a tag that the highlighter refuses. It sees
to those blocks whose opening line it comes upon with no fence open and, since
a fence line has no carriage return in it, without one of those. `Missed` are
the others: their tag is what it was in the document.

A fence that is never closed opens nothing for the scan but stays open for the
walk, and so all blocks behind it are missed. In a document whose blanks are
spaces, tabs and line breaks there is no other way to be missed.
-/

namespace MdxMend

open Text

/-- Code that begins on an opening line with a tag that stays. -/
def Tagged (u : Text) : Prop :=
  ∃ (o : OpeningLine) (body : Text), u = o.code body ∧ Language.Stays o.info

/-- Every block of the text has a tag that stays. -/
def WellTagged (t : Text) : Prop := ∀ u ∈ codes (segment t), '\n' ∈ u → Tagged u

/-- The walk has a fence open behind the text. -/
def Shadowed (before : Text) : Prop := trackLines none (lines before) ≠ none

/-- The walk comes upon the opening line with a fence open, or sees no fence in it. -/
def Missed (before : Text) (o : OpeningLine) : Prop :=
  Shadowed before ∨ '\r' ∈ o.info.dropLast

theorem tagged_code (o : OpeningLine) (body : Text) :
    Tagged (o.code body) ↔ Language.Stays o.info := by
  constructor
  · intro h
    obtain ⟨p, rest, heq, hstays⟩ := h
    rw [(OpeningLine.code_inj heq).2.1]
    exact hstays
  · intro h
    exact ⟨o, body, rfl, h⟩

theorem FenceLine.stays_opening (f : FenceLine) :
    Language.Stays f.opening.info ↔ Language.Stays f.tag := by
  have hinfo : f.opening.info = f.tag ++ f.eol.dropLast := rfl
  rcases f.eol_cases with heol | heol
  · rw [hinfo, heol, List.dropLast_singleton, List.append_nil]
  · rw [hinfo, heol]
    exact Language.stays_concat rfl f.tag

/-- What stands in front of a block on its line makes no difference to the walk. -/
theorem shadowed_iff {bs : List Text} (hbs : ∀ l ∈ bs, IsLine l) {x : Text} (hx : '\n' ∉ x) :
    Shadowed (bs.flatten ++ x) ↔ trackLines none bs ≠ none := by
  rw [Shadowed]
  by_cases hne : x = []
  · have hlined := Lined.append hbs .nil
    rw [List.append_nil] at hlined
    rw [hne, List.append_nil, hlined.lines_flatten]
  · have hflat : bs.flatten ++ x = (bs ++ [x]).flatten := by simp
    rw [hflat, (Lined.append hbs (.last hne hx)).lines_flatten, trackLines_append, trackLines,
      retag_last hx, trackLines]

/-- Code with a line feed in it begins on an opening line. -/
theorem exists_code {ls : List Text} (h : Layout ls) {u : Text}
    (hu : u ∈ codes (segment ls.flatten)) (hnl : '\n' ∈ u) :
    ∃ (o : OpeningLine) (body : Text), u = o.code body := by
  induction h with
  | nil =>
      rw [List.flatten_nil, segment_nil] at hu
      cases hu
  | @last x hne hx =>
      rw [List.flatten_singleton] at hu
      exact absurd hnl (newline_not_mem_codes hx hu)
  | @line l ls hl hopen h ih =>
      obtain ⟨x, hx, rfl⟩ := hl
      rw [codes_line hx hopen h.lined] at hu
      rcases List.mem_append.mp hu with hu | hu
      · exact absurd hnl (newline_not_mem_codes hx hu)
      · exact ih hu
  | @block o inner c ls hline hopen hlast h ih =>
      rw [codes_block o c hline hopen hlast] at hu
      rcases List.mem_cons.mp hu with rfl | hu
      · exact ⟨o, _, rfl⟩
      · exact ih hu

theorem mem_codes_iff {u : Text} {spans : List Span} :
    u ∈ codes spans ↔ ∃ pre post, spans = pre ++ .code u :: post := by
  constructor
  · intro h
    induction spans with
    | nil => cases h
    | cons span spans ih =>
        cases span with
        | prose t =>
            obtain ⟨pre, post, rfl⟩ := ih h
            exact ⟨.prose t :: pre, post, rfl⟩
        | code t =>
            rcases List.mem_cons.mp h with rfl | h
            · exact ⟨[], spans, rfl⟩
            · obtain ⟨pre, post, rfl⟩ := ih h
              exact ⟨.code t :: pre, post, rfl⟩
  · rintro ⟨pre, post, rfl⟩
    exact mem_codes pre post u

/-! ## Where the rule has nothing left to do -/

/-- A block that is not missed has a tag that stays. -/
def Reached (before : Text) (span : Span) (_ : Text) : Prop :=
  ∀ (o : OpeningLine) (body : Text), span = .code (o.code body) → ¬ Missed before o →
    Language.Stays o.info

theorem reached_ofBlocks : OfBlocks Reached where
  prose := by
    intro before t after o body h
    cases h
  inline := by
    rintro before v after hv o body ⟨⟩ -
    exact absurd (o.newline_mem_code body) hv

theorem each_reached {ls : List Text} (hlayout : Layout ls) {bs : List Text}
    (hbs : ∀ l ∈ bs, IsLine l) (h : retagLines (trackLines none bs) ls = ls) :
    Each Reached bs.flatten (segment ls.flatten) [] := by
  revert h
  refine layout_induction (motive := fun bs ls => retagLines (trackLines none bs) ls = ls →
    Each Reached bs.flatten (segment ls.flatten) []) ?_ ?_ ?_ ?_ hbs hlayout
  · intro bs _
    rw [List.flatten_nil, segment_nil]
    trivial
  · intro bs x _ hx _
    rw [List.flatten_singleton]
    exact each_inline reached_ofBlocks hx _ _
  · intro bs x ls hx hopen hlayout ih h
    rw [retagLines, List.cons.injEq] at h
    rw [trackLines_append] at ih
    rw [each_line reached_ofBlocks hx hopen hlayout.lined]
    exact ih h.2
  · intro bs o inner c ls hbs hline hopen hlast hlayout ih h
    have hsplit : o.text :: (inner ++ c.text :: ls) = (o.text :: (inner ++ [c.text])) ++ ls := by
      simp
    rw [each_block reached_ofBlocks o c hline hopen hlast]
    constructor
    · intro p body hcode hmiss
      obtain ⟨-, hinfo, -⟩ := OpeningLine.code_inj (Span.code.inj hcode)
      have hindent := Fence.newline_not_mem_indent o.isIndent_indent
      rw [Missed, shadowed_iff hbs hindent, not_or, not_not, ← hinfo] at hmiss
      obtain ⟨f, hf⟩ := OpeningLine.exists_fenceLine hmiss.2
      rw [retagLines, List.cons.injEq, hmiss.1, hf, retag_eq_iff] at h
      rw [← hinfo, OpeningLine.text_inj (hf.trans f.text_opening.symm)]
      exact f.stays_opening.mpr h.1
    · rw [trackLines_append] at ih
      rw [hsplit, retagLines_append] at h
      exact ih (List.append_inj h (length_retagLines _ _)).2

/-! ## Where the walk is in step -/

/-- A block that the walk comes upon with a fence open has a tag that stays. -/
def StaysShadowed (before : Text) (span : Span) (_ : Text) : Prop :=
  ∀ (o : OpeningLine) (body : Text), span = .code (o.code body) → Shadowed before →
    Language.Stays o.info

theorem staysShadowed_ofBlocks : OfBlocks StaysShadowed where
  prose := by
    intro before t after o body h
    cases h
  inline := by
    rintro before v after hv o body ⟨⟩ -
    exact absurd (o.newline_mem_code body) hv

/-- What the walk makes of an opening line has a tag that stays, or else there was a fence
open and the tag was there before. -/
theorem stays_retag_iff {o p : OpeningLine} (hord : Ordinary o.text) {open? : Option Fence}
    (hp : (retag open? o.text).1 = p.text) :
    Language.Stays p.info ↔ (open? ≠ none → Language.Stays o.info) := by
  cases open? with
  | none =>
      obtain ⟨f, hf⟩ := OpeningLine.exists_fenceLine hord.not_mem_info
      rw [hf, retag_none] at hp
      rw [← f.retagged.text_opening] at hp
      rw [← OpeningLine.text_inj hp]
      exact iff_of_true (f.retagged.stays_opening.mpr f.stays_retagged) fun h => absurd rfl h
  | some g =>
      rw [retag_open o.isLine] at hp
      rw [OpeningLine.text_inj hp]
      exact ⟨fun h _ => h, fun h => h (by simp)⟩

/-- Whether the block has a tag that stays once the walk has gone over its opening line. -/
theorem staysShadowed_block {bs : List Text} (hbs : ∀ l ∈ bs, IsLine l) {o p : OpeningLine}
    (hord : Ordinary o.text) (hp : (retag (trackLines none bs) o.text).1 = p.text)
    (body after : Text) :
    StaysShadowed (bs.flatten ++ o.indent) (.code (o.code body)) after ↔ Tagged (p.code body) := by
  have hindent := Fence.newline_not_mem_indent o.isIndent_indent
  rw [tagged_code, stays_retag_iff hord hp, ← shadowed_iff hbs hindent]
  constructor
  · exact fun h => h o body rfl
  · intro h q rest hcode hshadow
    rw [← (OpeningLine.code_inj (Span.code.inj hcode)).2.1]
    exact h hshadow

/-- While the walk is in step, the blocks it leaves with a tag that has to be replaced are
those that it comes upon with a fence open. -/
theorem InStep.wellTagged_iff {ls : List Text} (hlayout : Layout ls) {bs : List Text}
    (hbs : ∀ l ∈ bs, IsLine l) (hord : ∀ l ∈ ls, IsLine l → Ordinary l)
    (h : InStep (trackLines none bs) ls) :
    WellTagged (retagLines (trackLines none bs) ls).flatten ↔
      Each StaysShadowed bs.flatten (segment ls.flatten) [] := by
  revert hord h
  refine layout_induction (motive := fun bs ls => (∀ l ∈ ls, IsLine l → Ordinary l) →
    InStep (trackLines none bs) ls →
      (WellTagged (retagLines (trackLines none bs) ls).flatten ↔
        Each StaysShadowed bs.flatten (segment ls.flatten) [])) ?_ ?_ ?_ ?_ hbs hlayout
  · intro bs _ _
    rw [retagLines, List.flatten_nil, WellTagged, segment_nil]
    exact iff_of_true (fun u hu => absurd hu List.not_mem_nil) trivial
  · intro bs x _ hx _ _
    rw [retagLines, retag_last hx, retagLines, List.flatten_singleton]
    exact iff_of_true (fun u hu hnl => absurd hnl (newline_not_mem_codes hx hu))
      (each_inline staysShadowed_ofBlocks hx _ _)
  · intro bs x ls hx hopen hlayout ih hord h
    have hl : IsLine (x ++ ['\n']) := ⟨x, hx, rfl⟩
    rw [trackLines_append] at ih
    have hrest := ih (fun l hl => hord l (List.mem_cons_of_mem _ hl))
      (h.line hl (hord _ List.mem_cons_self hl) hopen)
    rw [WellTagged, codes_retagLines_line _ hx hopen hlayout.lined,
      each_line staysShadowed_ofBlocks hx hopen hlayout.lined, ← hrest]
    constructor
    · exact fun hall u hu => hall u (List.mem_append_right _ hu)
    · intro hall u hu hnl
      rcases List.mem_append.mp hu with hu | hu
      · exact absurd hnl (newline_not_mem_codes hx hu)
      · exact hall u hu hnl
  · intro bs o inner c ls hbs hline hopen hlast hlayout ih hord h
    have hkept := InStep.retagLines_block hline hopen hord h
    obtain ⟨p, hp, -, hcodes⟩ := codes_kept (trackLines none bs) o c hline hopen hlast hkept
    rw [trackLines_append] at ih
    have hrest := ih (fun l hl => hord l (by simp [hl])) (InStep.block hline hopen hord h hlast)
    have hordo : Ordinary o.text := hord o.text List.mem_cons_self o.isLine
    rw [WellTagged, hcodes, each_block staysShadowed_ofBlocks o c hline hopen hlast,
      staysShadowed_block hbs hordo hp, ← hrest]
    constructor
    · intro hall
      exact ⟨hall _ List.mem_cons_self (p.newline_mem_code _),
        fun u hu => hall u (List.mem_cons_of_mem _ hu)⟩
    · intro hboth u hu hnl
      obtain ⟨hhead, hall⟩ := hboth
      rcases List.mem_cons.mp hu with rfl | hu
      · exact hhead
      · exact hall u hu hnl

/-- Every block of a repaired document has a tag that stays, exactly if those that the
walk has missed have one. In a document whose blanks are spaces, tabs and line breaks
they are the blocks that it came upon with a fence open. -/
theorem tags_of_repaired (t : Text) :
    (WellTagged (repair {} t).text ↔ ∀ pre (o : OpeningLine) body post,
      segment (repair {} t).text = pre ++ .code (o.code body) :: post →
        Missed (reassemble pre) o → Language.Stays o.info) ∧
    (Ordinary t → (WellTagged (repair {} t).text ↔ ∀ pre (o : OpeningLine) body post,
      segment t = pre ++ .code (o.code body) :: post →
        Shadowed (reassemble pre) → Language.Stays o.info)) := by
  have hnil : ∀ l ∈ ([] : List Text), IsLine l := fun l hl => absurd hl List.not_mem_nil
  refine ⟨⟨?_, ?_⟩, fun hord => ?_⟩
  · intro hall pre o body post hsplit _
    have hmem : o.code body ∈ codes (segment (repair {} t).text) := by
      rw [hsplit]
      exact mem_codes pre post _
    exact (tagged_code o body).mp (hall _ hmem (o.newline_mem_code body))
  · intro hmissed u hu hnl
    have hlayout := layout_of_lined (lined_lines (repair {} t).text)
    have hreached := each_reached hlayout hnil (retagLines_repair t)
    rw [flatten_lines, each_iff] at hreached
    obtain ⟨o, body, rfl⟩ : ∃ (o : OpeningLine) (body : Text), u = o.code body := by
      refine exists_code hlayout ?_ hnl
      rwa [flatten_lines]
    obtain ⟨pre, post, hsplit⟩ := mem_codes_iff.mp hu
    rw [tagged_code]
    by_cases h : Missed (reassemble pre) o
    · exact hmissed pre o body post hsplit h
    · exact hreached pre _ post hsplit o body rfl h
  · have hcodes : codes (segment (repair {} t).text) =
        codes (segment (retagLines none (lines t)).flatten) := codes_repair rfl rfl t
    have hiff := InStep.wellTagged_iff (layout_of_lined (lined_lines t)) hnil hord.lines
      (inStep_none _)
    rw [flatten_lines, each_iff] at hiff
    rw [WellTagged, hcodes]
    refine hiff.trans ⟨?_, ?_⟩
    · exact fun h pre o body post hsplit => h pre _ post hsplit o body rfl
    · intro h pre span post hsplit o body hspan
      subst hspan
      exact h pre o body post hsplit

/-- A fence of tildes that nothing closes hides the block behind it. -/
example :
    let t : Text := "~~~js\na\n```\nb\n```\n".toList
    (repair {} t).text = t ∧ codes (segment t) = ["```\nb\n```".toList] := by
  decide +kernel

end MdxMend
