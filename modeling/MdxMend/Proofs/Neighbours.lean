import MdxMend.Proofs.Apart
import MdxMend.Proofs.Counting
import MdxMend.Proofs.Spots

/-!
# A bracket is judged by the whole document

The rule on `>` is shown one stretch of prose at a time. Where the stretch starts it takes a `>` for
free, and where the stretch ends it looks no further. Still it decides as if it saw the document,
and that is for what the neighbours are: a stretch of prose has code on both sides, and code begins
and ends with a mark (`Exposed`). A mark guards nothing, and it is neither a space nor a digit.

So the characters that are escaped can be told by their places in the document. `InProse` says which
places are open to the rule at all, and the rest is the condition on a spot that the rule has on any
text, here on the document as it stands.
-/

namespace MdxMend

open Text Builtin

/-! ## Places in spans -/

/-- The character with `i` others in front of it is prose. -/
def InProse (spans : List Span) (i : Nat) : Prop :=
  ∃ pre u post, spans = pre ++ .prose u :: post ∧
    (reassemble pre).length ≤ i ∧ i < (reassemble pre).length + u.length

theorem not_inProse_nil (i : Nat) : ¬ InProse [] i := by
  rintro ⟨pre, u, post, h, -⟩
  simp at h

/-- A place is in the first span or in one of those behind it. -/
theorem inProse_cons (span : Span) (spans : List Span) (i : Nat) :
    InProse (span :: spans) i ↔
      if i < span.content.length then span.isCode = false
      else InProse spans (i - span.content.length) := by
  constructor
  · rintro ⟨pre, u, post, hspans, hle, hlt⟩
    cases pre with
    | nil =>
        obtain ⟨rfl, -⟩ := List.cons.inj hspans
        rw [if_pos (by simpa [Span.content] using hlt)]
        rfl
    | cons first pre =>
        obtain ⟨rfl, rfl⟩ := List.cons.inj hspans
        rw [reassemble_cons, List.length_append] at hle hlt
        rw [if_neg (by omega)]
        exact ⟨pre, u, post, rfl, by omega, by omega⟩
  · intro h
    split at h
    · next hlt =>
        cases span with
        | code t => cases h
        | prose u => exact ⟨[], u, spans, rfl, Nat.zero_le _, by simpa [Span.content] using hlt⟩
    · obtain ⟨pre, u, post, rfl, hle, hlt⟩ := h
      refine ⟨span :: pre, u, post, rfl, ?_, ?_⟩ <;>
      · rw [reassemble_cons, List.length_append]
        omega

instance InProse.decidable : ∀ (spans : List Span) (i : Nat), Decidable (InProse spans i)
  | [], i => .isFalse (not_inProse_nil i)
  | span :: spans, i =>
    have := InProse.decidable spans (i - span.content.length)
    decidable_of_iff _ (inProse_cons span spans i).symm

/-! ## What stands around prose -/

theorem SpanFits.head?_code {before t after : Text} (h : SpanFits before (.code t) after) :
    ∃ e, isMark e = true ∧ t.head? = some e := by
  have hhead : ∀ {n : Nat} (e : Char) (x : Text), 0 < n →
      (List.replicate n e ++ x).head? = some e := by
    intro n e x hn
    simp [List.head?_append, List.head?_replicate, Nat.ne_of_gt hn]
  rcases h with ⟨b, rfl, hstands⟩ | ⟨i, rfl, -⟩
  · exact ⟨b.fence.mark, b.isMark_mark,
      hhead _ _ (Nat.lt_of_lt_of_le (by decide) hstands.opener.three_le)⟩
  · exact ⟨backtick, by decide, hhead _ _ i.pos⟩

/-- The rule on `>` sees as much of the span, if it is prose, as of the text around it: nothing in
front guards it, and no digit can be reached over its end. -/
def Exposed (before : Text) (span : Span) (after : Text) : Prop :=
  span.isCode = false → (∀ c ∈ before.getLast?, isGuard c = false) ∧
    ∀ c ∈ after.head?, c ≠ ' ' ∧ isDigit c = false

theorem exists_code_of_turn {x y : Span} (h : x.isCode ≠ y.isCode) (hx : x.isCode = false) :
    ∃ u, y = .code u := by
  cases y with
  | prose u => exact absurd hx h
  | code u => exact ⟨u, rfl⟩

theorem each_exposed_segment (t : Text) : Each Exposed [] (segment t) [] := by
  have hmark : ∀ c, isMark c = true → isGuard c = false ∧ c ≠ ' ' ∧ isDigit c = false := by
    intro c hc
    simp only [isMark, Bool.or_eq_true, beq_iff_eq] at hc
    rcases hc with rfl | rfl <;> decide
  have hfits := each_iff.mp (each_spanFits_segment t)
  have hturns := (alternating_segmentFrom true t).turns
  rw [← segment] at hturns
  rw [each_iff]
  intro pre span post hspans hprose
  rw [List.nil_append, List.append_nil]
  rw [hspans] at hfits hturns
  constructor
  · intro c hc
    rcases List.eq_nil_or_concat pre with rfl | ⟨pre, last, rfl⟩
    · cases hc
    · rw [List.concat_eq_append, List.append_assoc, List.singleton_append] at hfits hturns
      have hturn := (List.isChain_cons_cons.mp (List.isChain_append.mp hturns).2.1).1
      obtain ⟨u, rfl⟩ := exists_code_of_turn hturn.symm hprose
      obtain ⟨e, he, hlast⟩ := (hfits pre _ _ rfl).getLast?_code
      rw [List.concat_eq_append, reassemble_append, reassemble_cons, reassemble_nil,
        List.append_nil, Span.content, List.getLast?_append, hlast] at hc
      obtain rfl : e = c := Option.some.inj hc
      exact (hmark e he).1
  · intro c hc
    cases post with
    | nil => cases hc
    | cons next post =>
        have hturn := (List.isChain_cons_cons.mp (List.isChain_append.mp hturns).2.1).1
        obtain ⟨u, rfl⟩ := exists_code_of_turn hturn hprose
        obtain ⟨e, he, hhead⟩ := (hfits (pre ++ [span]) (.code u) post (by simp)).head?_code
        rw [reassemble_cons, Span.content, List.head?_append, hhead] at hc
        obtain rfl : e = c := Option.some.inj hc
        exact (hmark e he).2

/-! ## Spots in a span and in the text around it -/

theorem spotsFrom_append (before s after : Text) :
    spotsFrom before (s ++ after) =
      (spotsFrom before s).map (fun p => { p with after := p.after ++ after }) ++
        spotsFrom (before ++ s) after := by
  induction s generalizing before with
  | nil => simp [spotsFrom]
  | cons c s ih => simp [spotsFrom, ih]

theorem offset_of_mem_spotsFrom {before s : Text} {p : Spot} (h : p ∈ spotsFrom before s) :
    before.length ≤ p.before.length ∧ p.before.length < before.length + s.length := by
  induction s generalizing before with
  | nil => cases h
  | cons c s ih =>
      rw [List.length_cons]
      rcases List.mem_cons.mp h with rfl | h
      · exact ⟨Nat.le_refl _, by simp only []; omega⟩
      · have := ih h
        rw [List.length_append, List.length_singleton] at this
        omega

theorem map_char_spotsFrom (before s : Text) : (spotsFrom before s).map Spot.char = s := by
  induction s generalizing before with
  | nil => rfl
  | cons c s ih => rw [spotsFrom, List.map_cons, ih]

theorem isSome_spacedDigit?_append {after : Text}
    (h : ∀ c ∈ after.head?, c ≠ ' ' ∧ isDigit c = false) (s : Text) :
    (spacedDigit? (s ++ after)).isSome = (spacedDigit? s).isSome := by
  have hdigit : startsDigit after = false := by
    cases after with
    | nil => rfl
    | cons c after => exact (h c rfl).2
  cases s with
  | nil =>
      cases after with
      | nil => rfl
      | cons c after =>
          rw [List.nil_append, isSome_spacedDigit?, if_neg (h c rfl).1, (h c rfl).2]
          rfl
  | cons c s =>
      rw [List.cons_append, isSome_spacedDigit?, isSome_spacedDigit?]
      cases s with
      | nil => rw [List.nil_append, hdigit]; rfl
      | cons d s => rfl

/-- What follows behind the end of prose does not matter to the rule on `>`. -/
theorem Spot.greaterDigit_append (p : Spot) {after : Text}
    (h : ∀ c ∈ after.head?, c ≠ ' ' ∧ isDigit c = false) :
    Spot.GreaterDigit { p with after := p.after ++ after } ↔ p.GreaterDigit := by
  rw [Spot.greaterDigit_iff, Spot.greaterDigit_iff, isSome_spacedDigit?_append h]

/-! ## The rule on `>` -/

/-- A `>` in prose that a digit follows and nothing guards, where digit and guard are those of the
whole document. -/
def Spot.FreeIn (spans : List Span) (p : Spot) : Prop :=
  p.GreaterDigit ∧ InProse spans p.before.length

instance (spans : List Span) (p : Spot) : Decidable (p.FreeIn spans) :=
  inferInstanceAs (Decidable (_ ∧ _))

/-- What the rule on `>` makes of one span and what it counts in it, by spots of the document. -/
theorem freed_span {before after : Text} {span : Span} (h : Exposed before span after) :
    let ps := (spotsFrom before span.content).map fun p => { p with after := p.after ++ after }
    (Span.repaired [greaterDigit] span).content = ps.flatMap (fun p =>
        if p.GreaterDigit ∧ span.isCode = false then ['&', 'g', 't', ';'] else [p.char]) ∧
      Span.fixes greaterDigit.name [greaterDigit] span =
        ps.countP fun p => p.GreaterDigit ∧ span.isCode = false := by
  intro ps
  rw [List.flatMap_map, List.countP_map]
  cases span with
  | code t =>
      have hcopy : (spotsFrom before t).flatMap (fun p => [p.char]) = t := by
        rw [← List.map_eq_flatMap, map_char_spotsFrom]
      simp [Span.repaired, Span.fixes, Span.content, Span.isCode, hcopy]
  | prose u =>
      obtain ⟨hfront, hback⟩ := h rfl
      have hstart : Escaper.greaterDigit.walk false before u = false := by
        rw [Escaper.greaterDigit_guarded]
        cases hlast : before.getLast? with
        | none => rfl
        | some c => exact hfront c hlast
      obtain ⟨htext, hfixes⟩ :=
        Escaper.read_spotsFrom Escaper.greaterDigit_picks_spot before u
      rw [hstart] at htext hfixes
      have hnew : ∀ p : Spot, (if p.GreaterDigit then (reference? p.char).getD [p.char]
          else [p.char]) = if p.GreaterDigit then ['&', 'g', 't', ';'] else [p.char] := by
        intro p
        split
        · next hp => rw [hp.1]; rfl
        · rfl
      have hrule := Escaper.runs_greaterDigit.apply Escaper.steady_greaterDigit { text := u }
      constructor
      · show (greaterDigit.apply { text := u }).text = _
        simp only [hrule, htext, hnew, Spot.greaterDigit_append _ hback, Span.content, Span.isCode,
          and_true]
      · show (if greaterDigit.name = greaterDigit.name then greaterDigit.fixes u else 0) + 0 = _
        rw [if_pos rfl, Nat.add_zero, Escaper.runs_greaterDigit.fixes_eq, hfixes]
        simp only [Function.comp_def, Spot.greaterDigit_append _ hback, Span.content, Span.isCode,
          and_true]

/-- The same for spans one after the other, with places counted from the first of them. -/
theorem freed_spans {before : Text} {spans : List Span} (h : Each Exposed before spans []) :
    let free (p : Spot) : Prop := p.GreaterDigit ∧ InProse spans (p.before.length - before.length)
    let ps := spotsFrom before (reassemble spans)
    reassemble (spans.map (Span.repaired [greaterDigit])) = ps.flatMap (fun p =>
        if free p then ['&', 'g', 't', ';'] else [p.char]) ∧
      (spans.map (Span.fixes greaterDigit.name [greaterDigit])).sum =
        ps.countP fun p => free p := by
  induction spans generalizing before with
  | nil => exact ⟨rfl, rfl⟩
  | cons span spans ih =>
      obtain ⟨hspan, hrest⟩ := h
      rw [List.append_nil] at hspan
      obtain ⟨htext, hfixes⟩ := freed_span hspan
      obtain ⟨htexts, hfixess⟩ := ih hrest
      have hhere : ∀ p ∈ (spotsFrom before span.content).map
            (fun p : Spot => { p with after := p.after ++ reassemble spans }),
          InProse (span :: spans) (p.before.length - before.length) ↔ span.isCode = false := by
        intro p hp
        obtain ⟨q, hq, rfl⟩ := List.mem_map.mp hp
        have := offset_of_mem_spotsFrom hq
        rw [inProse_cons, if_pos (by simp only []; omega)]
      have hbehind : ∀ p ∈ spotsFrom (before ++ span.content) (reassemble spans),
          InProse (span :: spans) (p.before.length - before.length) ↔
            InProse spans (p.before.length - (before ++ span.content).length) := by
        intro p hp
        have := offset_of_mem_spotsFrom hp
        rw [List.length_append] at *
        rw [inProse_cons, if_neg (by omega), Nat.sub_add_eq]
      simp only [List.map_cons, List.sum_cons, reassemble_cons, spotsFrom_append,
        List.flatMap_append, List.countP_append, htext, htexts, hfixes, hfixess]
      constructor
      · congr 1
        · exact List.flatMap_congr fun p hp => by simp only [hhere p hp]
        · exact List.flatMap_congr fun p hp => by simp only [hbehind p hp]
      · congr 1
        · exact List.countP_congr fun p hp => by simp only [hhere p hp]
        · exact List.countP_congr fun p hp => by simp only [hbehind p hp]

/-- With the rule on `>` alone, the second phase escapes each `>` of the document that stands in
prose, has a digit or one space and a digit behind it and no guard in front of it, and copies every
other character. The count goes up by the number of these `>`. -/
theorem repairProse_greaterDigit {o : Options} (hkeep : o.keepCode = true)
    (honly : o.proseRules = [greaterDigit]) (t : Text) (tally : Tally) (log : Log) :
    let repaired := repairProse o ⟨t, tally, log⟩
    let free := Spot.FreeIn (segment t)
    repaired.text =
        (spots t).flatMap (fun p => if free p then ['&', 'g', 't', ';'] else [p.char]) ∧
      repaired.tally = tally.record greaterDigit.name (countSpots free t) := by
  intro repaired free
  have hphase := repairProse_abreast o ⟨t, tally, log⟩
  rw [if_pos hkeep, honly] at hphase
  obtain ⟨htext, hcount⟩ := freed_spans (each_exposed_segment t)
  simp only [reassemble_segment, List.length_nil, Nat.sub_zero] at htext hcount
  constructor
  · rw [hphase.text, repairSpans_text, htext]
    rfl
  · rw [hphase.tally_eq, repairSpans_single, hcount]
    rfl

/-- A `>` behind code and one in front of it are free, those behind a letter and in code are not. -/
theorem repairProse_greaterDigit_code :
    let o : Options := { enable := some ["greater-than-digit"] }
    let t := "`>1`> 2 a>3 >`4` >5".toList
    o.keepCode = true ∧ o.proseRules = [greaterDigit] ∧
      (repairProse o { text := t }).text = "`>1`&gt; 2 a>3 >`4` &gt;5".toList ∧
      (repairProse o { text := t }).tally = ({} : Tally).record greaterDigit.name 2 := by
  intro o t
  have honly : o.proseRules = [greaterDigit] := rfl
  obtain ⟨htext, htally⟩ := repairProse_greaterDigit (o := o) rfl honly t {} []
  refine ⟨rfl, honly, htext.trans ?_, htally.trans ?_⟩ <;> decide +kernel

end MdxMend
