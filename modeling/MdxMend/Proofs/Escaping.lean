import MdxMend.Proofs.Spans

/-!
# Escaping leaves the spans where they are

What the rules on prose do to a text, whichever of them run, is to write some of
its angle brackets as character references. `Escaped` is that relation, and this
file is about what cannot be changed that way: no run of marks, no indent, no
line break and no blank behind a fence is made of angle brackets or of what
replaces them, so each search finds in the new text what it finds in the old
one, with the same references in it. The scan follows: it cuts both texts at
corresponding places (`segment_escaped`).

A text determines where its escaped forms are cut (`Escaped.append_inj`).
So if the spans of a text are escaped one by one, scanning what they make up gives
them back.
-/

namespace MdxMend

open Text

/-- The character reference that can stand for a character. -/
def reference? : Char → Option Text
  | '<' => some ['&', 'l', 't', ';']
  | '>' => some ['&', 'g', 't', ';']
  | _ => none

/-- The second text is the first with some characters replaced by their
references. -/
inductive Escaped : Text → Text → Prop where
  | nil : Escaped [] []
  | keep (c : Char) {t u : Text} (h : Escaped t u) : Escaped (c :: t) (c :: u)
  | swap {c : Char} {r t u : Text} (hr : reference? c = some r) (h : Escaped t u) :
      Escaped (c :: t) (r ++ u)

/-- The characters that escaping takes away or puts in. -/
def escaping : Text := ['<', '>', '&', 'l', 'g', 't', ';']

theorem reference?_cases {c : Char} {r : Text} (h : reference? c = some r) :
    (c = '<' ∧ r = ['&', 'l', 't', ';']) ∨ (c = '>' ∧ r = ['&', 'g', 't', ';']) := by
  unfold reference? at h
  split at h
  · exact .inl ⟨rfl, (Option.some.inj h).symm⟩
  · exact .inr ⟨rfl, (Option.some.inj h).symm⟩
  · cases h

theorem mem_escaping_of_reference? {c : Char} {r : Text} (h : reference? c = some r) :
    c ∈ escaping ∧ ∀ d ∈ r, d ∈ escaping := by
  rcases reference?_cases h with ⟨rfl, rfl⟩ | ⟨rfl, rfl⟩ <;> simp [escaping]

theorem reference?_of_not_mem {c : Char} (h : c ∉ escaping) : reference? c = none := by
  cases hr : reference? c with
  | none => rfl
  | some r => exact absurd (mem_escaping_of_reference? hr).1 h

/-- Nothing in a reference can be escaped again. -/
theorem reference?_of_mem {c : Char} {r : Text} (h : reference? c = some r) :
    ∀ d ∈ r, reference? d = none := by
  rcases reference?_cases h with ⟨-, rfl⟩ | ⟨-, rfl⟩ <;> simp [reference?]

theorem not_mem_escaping_of_isMark {c : Char} (hc : isMark c = true) : c ∉ escaping := by
  simp only [isMark, Bool.or_eq_true, beq_iff_eq] at hc
  rcases hc with rfl | rfl <;> decide

namespace Escaped

variable {t u : Text}

theorem refl (t : Text) : Escaped t t := by
  induction t with
  | nil => exact .nil
  | cons c t ih => exact .keep c ih

theorem append {t' u' : Text} (h : Escaped t u) (h' : Escaped t' u') :
    Escaped (t ++ t') (u ++ u') := by
  induction h with
  | nil => exact h'
  | keep c _ ih => exact .keep c ih
  | swap hr _ ih =>
      rw [List.append_assoc]
      exact .swap hr ih

theorem of_append {t' v : Text} (h : Escaped (t ++ t') v) :
    ∃ u u', v = u ++ u' ∧ Escaped t u ∧ Escaped t' u' := by
  induction t generalizing v with
  | nil => exact ⟨[], v, rfl, .nil, h⟩
  | cons c t ih =>
      cases h with
      | keep _ h =>
          obtain ⟨u, u', rfl, htu, htu'⟩ := ih h
          exact ⟨c :: u, u', rfl, .keep c htu, htu'⟩
      | @swap _ r _ _ hr h =>
          obtain ⟨u, u', rfl, htu, htu'⟩ := ih h
          exact ⟨r ++ u, u', (List.append_assoc ..).symm, .swap hr htu, htu'⟩

theorem of_nil (h : Escaped [] u) : u = [] := by
  cases h
  rfl

/-- Characters without a reference are still there. -/
theorem of_plain {x v : Text} (hx : ∀ c ∈ x, reference? c = none)
    (h : Escaped (x ++ t) v) : ∃ u, v = x ++ u ∧ Escaped t u := by
  induction x generalizing v with
  | nil => exact ⟨v, rfl, h⟩
  | cons c x ih =>
      cases h with
      | keep _ h =>
          obtain ⟨u, rfl, hu⟩ := ih (fun d hd => hx d (List.mem_cons_of_mem c hd)) h
          exact ⟨u, rfl, hu⟩
      | swap hr _ =>
          rw [hx c List.mem_cons_self] at hr
          cases hr

theorem eq_of_plain (ht : ∀ c ∈ t, reference? c = none) (h : Escaped t u) : u = t := by
  rw [← List.append_nil t] at h
  obtain ⟨v, rfl, hv⟩ := of_plain ht h
  rw [of_nil hv, List.append_nil]

/-- Characters that escaping does not put in were there before. -/
theorem of_foreign {x v : Text} (hx : ∀ c ∈ x, c ∉ escaping) (h : Escaped v (x ++ u)) :
    ∃ t, v = x ++ t ∧ Escaped t u := by
  induction x generalizing v with
  | nil => exact ⟨v, rfl, h⟩
  | cons c x ih =>
      have hc := hx c List.mem_cons_self
      have hrest := fun d hd => hx d (List.mem_cons_of_mem c hd)
      generalize hw : c :: x ++ u = w at h
      cases h with
      | nil => cases hw
      | keep d h =>
          obtain ⟨rfl, rfl⟩ := List.cons.inj hw
          obtain ⟨t, rfl, ht⟩ := ih hrest h
          exact ⟨t, rfl, ht⟩
      | swap hr _ =>
          refine absurd ?_ hc
          rcases reference?_cases hr with ⟨-, rfl⟩ | ⟨-, rfl⟩ <;>
          · rw [(List.cons.inj hw).1]
            decide

theorem trans {v : Text} (h : Escaped t u) (h' : Escaped u v) : Escaped t v := by
  induction h generalizing v with
  | nil => exact h'
  | keep c _ ih =>
      cases h' with
      | keep _ h' => exact .keep c (ih h')
      | swap hr h' => exact .swap hr (ih h')
  | swap hr _ ih =>
      obtain ⟨w, rfl, hw⟩ := of_plain (reference?_of_mem hr) h'
      exact .swap hr (ih hw)

/-- Where a text ends, its escaped forms end, and nothing in them can be taken
for more of it. -/
theorem append_inj {u' r r' : Text} (h : Escaped t u) (h' : Escaped t u')
    (heq : u ++ r = u' ++ r') : u = u' ∧ r = r' := by
  have hswap : ∀ {c : Char} {w x y : Text}, reference? c = some w → w ++ x ≠ c :: y := by
    intro c w x y hr hc
    rcases reference?_cases hr with ⟨rfl, rfl⟩ | ⟨rfl, rfl⟩ <;>
      exact absurd (List.cons.inj hc).1 (by decide)
  induction h generalizing u' with
  | nil =>
      rw [of_nil h'] at heq ⊢
      exact ⟨rfl, heq⟩
  | keep c _ ih =>
      cases h' with
      | keep _ h' =>
          obtain ⟨rfl, hr⟩ := ih h' (List.cons.inj heq).2
          exact ⟨rfl, hr⟩
      | swap hr' _ =>
          rw [List.append_assoc] at heq
          exact absurd heq.symm (hswap hr')
  | swap hr _ ih =>
      cases h' with
      | keep _ h' =>
          rw [List.append_assoc] at heq
          exact absurd heq (hswap hr)
      | swap hr' h' =>
          rw [hr] at hr'
          obtain rfl := Option.some.inj hr'
          rw [List.append_assoc, List.append_assoc] at heq
          obtain ⟨rfl, hr⟩ := ih h' (List.append_cancel_left heq)
          exact ⟨rfl, hr⟩

/-- A text in which anything was escaped has an ampersand. -/
theorem eq_or_mem (h : Escaped t u) : u = t ∨ '&' ∈ u := by
  induction h with
  | nil => exact .inl rfl
  | keep c _ ih =>
      rcases ih with rfl | h
      · exact .inl rfl
      · exact .inr (List.mem_cons_of_mem c h)
  | swap hr _ _ => rcases reference?_cases hr with ⟨-, rfl⟩ | ⟨-, rfl⟩ <;> simp

theorem length_le (h : Escaped t u) : t.length ≤ u.length := by
  induction h with
  | nil => exact Nat.le_refl _
  | keep c _ ih => exact Nat.succ_le_succ ih
  | swap hr _ ih =>
      rcases reference?_cases hr with ⟨-, rfl⟩ | ⟨-, rfl⟩ <;>
        simp only [List.length_cons, List.length_append, List.length_nil] <;> omega

/-- A text that did not grow is the text that it was. -/
theorem eq_of_length_le (h : Escaped t u) (hlen : u.length ≤ t.length) : u = t := by
  induction h with
  | nil => rfl
  | keep c _ ih => rw [ih (Nat.le_of_succ_le_succ hlen)]
  | swap hr h _ =>
      have hle := h.length_le
      rcases reference?_cases hr with ⟨-, rfl⟩ | ⟨-, rfl⟩ <;>
        simp only [List.length_cons, List.length_append, List.length_nil] at hlen <;> omega

/-! ### What the searches look at -/

theorem mem_iff {c : Char} (hc : c ∉ escaping) (h : Escaped t u) : c ∈ u ↔ c ∈ t := by
  induction h with
  | nil => rfl
  | keep d _ ih => simp only [List.mem_cons, ih]
  | swap hr _ ih =>
      obtain ⟨hd, hr⟩ := mem_escaping_of_reference? hr
      rw [List.mem_append, List.mem_cons, ih]
      constructor
      · exact fun h => .inr (h.resolve_left fun hmem => hc (hr c hmem))
      · exact fun h => .inr (h.resolve_left fun heq => hc (heq ▸ hd))

theorem head?_iff {c : Char} (hc : c ∉ escaping) (h : Escaped t u) :
    u.head? = some c ↔ t.head? = some c := by
  cases h with
  | nil => rfl
  | keep d _ => rfl
  | swap hr _ =>
      rcases reference?_cases hr with ⟨rfl, rfl⟩ | ⟨rfl, rfl⟩ <;>
      · simp only [List.cons_append, List.head?_cons, Option.some.injEq]
        constructor <;> rintro rfl <;> exact absurd (by decide) hc

/-- A class without the characters of `escaping` is scanned to the same point. -/
theorem scan_outside {p : Char → Bool} (hp : ∀ c ∈ escaping, p c = false)
    (h : Escaped t u) :
    u.takeWhile p = t.takeWhile p ∧ Escaped (t.dropWhile p) (u.dropWhile p) := by
  induction h with
  | nil => exact ⟨rfl, .nil⟩
  | keep c h ih =>
      cases hc : p c with
      | true => simpa [List.takeWhile_cons, List.dropWhile_cons, hc] using ih
      | false => simpa [List.takeWhile_cons, List.dropWhile_cons, hc] using h.keep c
  | @swap c r _ _ hr h _ =>
      obtain ⟨hc, hrmem⟩ := mem_escaping_of_reference? hr
      rcases reference?_cases hr with ⟨rfl, rfl⟩ | ⟨rfl, rfl⟩ <;>
      · have hamp := hp '&' (by decide)
        have hpc := hp _ hc
        simpa [List.takeWhile_cons, List.dropWhile_cons, hamp, hpc] using swap hr h

/-- A class with all the characters of `escaping` is scanned to corresponding
points. -/
theorem scan_inside {p : Char → Bool} (hp : ∀ c ∈ escaping, p c = true)
    (h : Escaped t u) :
    Escaped (t.takeWhile p) (u.takeWhile p) ∧
      Escaped (t.dropWhile p) (u.dropWhile p) := by
  induction h with
  | nil => exact ⟨.nil, .nil⟩
  | keep c h ih =>
      cases hc : p c with
      | true => simpa [List.takeWhile_cons, List.dropWhile_cons, hc] using ⟨ih.1.keep c, ih.2⟩
      | false => simpa [List.takeWhile_cons, List.dropWhile_cons, hc] using ⟨.nil, h.keep c⟩
  | @swap c r _ _ hr _ ih =>
      obtain ⟨hc, hrmem⟩ := mem_escaping_of_reference? hr
      rw [List.takeWhile_cons_of_pos (hp c hc), List.dropWhile_cons_of_pos (hp c hc),
        List.takeWhile_append_of_pos fun d hd => hp d (hrmem d hd),
        List.dropWhile_append_of_pos fun d hd => hp d (hrmem d hd)]
      exact ⟨.swap hr ih.1, ih.2⟩

theorem restOfLine (h : Escaped t u) : Escaped (restOfLine t) (restOfLine u) :=
  (h.scan_inside (by simp [escaping])).1

theorem forall_mem {p : Char → Bool} (hp : ∀ c ∈ escaping, p c = true) (h : Escaped t u)
    (ht : ∀ c ∈ t, p c = true) : ∀ c ∈ u, p c = true := by
  intro c hc
  by_cases hmem : c ∈ escaping
  · exact hp c hmem
  · exact ht c ((h.mem_iff hmem).mp hc)

theorem all_eq {p : Char → Bool} (hp : ∀ c ∈ escaping, p c = false) (h : Escaped t u) :
    u.all p = t.all p := by
  induction h with
  | nil => rfl
  | keep c _ ih => rw [List.all_cons, List.all_cons, ih]
  | swap hr _ ih =>
      have hc := hp _ (mem_escaping_of_reference? hr).1
      have hamp := hp '&' (by decide)
      rcases reference?_cases hr with ⟨rfl, rfl⟩ | ⟨rfl, rfl⟩ <;> simp [hc, hamp]

end Escaped

/-! ## The searches -/

/-- Two texts cut in two, each part of the second escaped from the first. -/
def EscapedCut (x y : Text × Text) : Prop := Escaped x.1 y.1 ∧ Escaped x.2 y.2

/-- What was read before joins the code on both sides. -/
theorem EscapedCut.map {x y : Text} (h : Escaped x y) {o o' : Option (Text × Text)}
    (ho : Option.Rel EscapedCut o o') :
    Option.Rel EscapedCut (o.map fun (code, rest) => (x ++ code, rest))
      (o'.map fun (code, rest) => (y ++ code, rest)) := by
  cases ho with
  | none => exact .none
  | some hc => exact .some ⟨h.append hc.1, hc.2⟩

theorem outside_mark {f : Fence} (hm : isMark f.mark = true) :
    ∀ c ∈ escaping, (c == f.mark) = false := by
  intro c hc
  have : c ≠ f.mark := by
    intro heq
    subst heq
    exact not_mem_escaping_of_isMark hm hc
  simpa using this

theorem Fence.closer?_escaped {f : Fence} (hm : isMark f.mark = true) {s s' : Text}
    (h : Escaped s s') : Option.Rel EscapedCut (f.closer? s) (f.closer? s') := by
  obtain ⟨hindent, hfence⟩ := h.scan_outside (p := isIndent) (by simp [escaping, isIndent])
  obtain ⟨hrun, hafter⟩ := hfence.scan_outside (outside_mark hm)
  have hblank := hafter.restOfLine.all_eq (p := isClosingBlank)
    (by simp [escaping, isClosingBlank, isIndent])
  unfold closer?
  simp only [hindent, hrun, hblank]
  split
  · exact .some ⟨Escaped.refl _, hafter⟩
  · exact .none

theorem Fence.block?_escaped {f : Fence} (hm : isMark f.mark = true) {s s' : Text}
    (h : Escaped s s') : Option.Rel EscapedCut (f.block? s) (f.block? s') := by
  induction h with
  | nil => exact .none
  | @keep c s s' h ih =>
      have hhere : Option.Rel EscapedCut (if c == '\n' then f.closer? s else none)
          (if c == '\n' then f.closer? s' else none) := by
        split
        · exact closer?_escaped hm h
        · exact .none
      rw [block?, block?]
      refine EscapedCut.map (x := [c]) (Escaped.refl _) ?_
      generalize (if c == '\n' then f.closer? s else none) = here at hhere
      generalize (if c == '\n' then f.closer? s' else none) = here' at hhere
      cases hhere with
      | none => exact ih
      | some hc => exact .some hc
  | @swap c r s s' hr h ih =>
      have hplain : '\n' ∉ [c] ∧ '\n' ∉ r := by
        rcases reference?_cases hr with ⟨rfl, rfl⟩ | ⟨rfl, rfl⟩ <;> decide
      rw [← List.singleton_append, block?_append hplain.1, block?_append hplain.2]
      refine EscapedCut.map ?_ ih
      rw [← List.append_nil r]
      exact .swap hr .nil

theorem inlineCode?_escaped (n : Nat) {s s' : Text} (h : Escaped s s') :
    Option.Rel EscapedCut (inlineCode? n s) (inlineCode? n s') := by
  induction s using run_induction backtick generalizing s' with
  | nil =>
      rw [h.of_nil, inlineCode?]
      exact .none
  | other c s hc ih =>
      cases h with
      | @keep _ _ s' h =>
          by_cases hnl : c = '\n'
          · rw [hnl, inlineCode?_newline, inlineCode?_newline]
            exact .none
          · rw [inlineCode?_other hnl hc, inlineCode?_other hnl hc]
            exact EscapedCut.map (x := [c]) (Escaped.refl _) (ih h)
      | @swap _ r _ s' hr h =>
          have hadd := EscapedCut.map (.swap hr .nil) (ih h)
          rcases reference?_cases hr with ⟨rfl, rfl⟩ | ⟨rfl, rfl⟩ <;>
          · simp only [List.cons_append, List.nil_append]
            iterate 5 rw [inlineCode?_other (by decide) (by decide)]
            simpa [Option.map_map, Function.comp_def] using hadd
  | run k s hk hs ih =>
      have hplain : ∀ c ∈ List.replicate k backtick, reference? c = none := by
        intro c hc
        rw [List.eq_of_mem_replicate hc]
        rfl
      obtain ⟨s', rfl, hs'⟩ := Escaped.of_plain hplain h
      have hhead := fun hb => hs ((hs'.head?_iff (by decide)).mp hb)
      rw [inlineCode?_run hk hs, inlineCode?_run hk hhead]
      split
      · exact .some ⟨Escaped.refl _, hs'⟩
      · exact EscapedCut.map (Escaped.refl _) (ih hs')

theorem codeAfter?_escaped {c : Char} (hc : isMark c = true) (atIndent : Bool) (n : Nat)
    {s s' : Text} (h : Escaped s s') :
    Option.Rel EscapedCut (codeAfter? atIndent c n s) (codeAfter? atIndent c n s') := by
  have hopens : Fence.opens atIndent c n s' = Fence.opens atIndent c n s := by
    have hmem := h.restOfLine.mem_iff (c := backtick) (by decide)
    simp only [Fence.opens, List.contains_eq_mem, hmem]
  unfold codeAfter?
  rw [hopens]
  split
  · exact Fence.block?_escaped hc h
  · split
    · exact inlineCode?_escaped n h
    · exact .none

/-! ## The scan -/

/-- The second span is the first with some of its characters escaped. -/
inductive Span.Escaped : Span → Span → Prop where
  | prose {t u : Text} (h : MdxMend.Escaped t u) : Span.Escaped (.prose t) (.prose u)
  | code {t u : Text} (h : MdxMend.Escaped t u) : Span.Escaped (.code t) (.code u)

theorem Span.Escaped.content {x y : Span} (h : Span.Escaped x y) :
    MdxMend.Escaped x.content y.content := by
  cases h with
  | prose h => exact h
  | code h => exact h

theorem joinProse_escaped {t u : Text} (h : Escaped t u) {xs ys : List Span}
    (hs : List.Forall₂ Span.Escaped xs ys) :
    List.Forall₂ Span.Escaped (joinProse t xs) (joinProse u ys) := by
  cases hs with
  | nil => exact .cons (.prose h) .nil
  | cons hhead htail =>
      cases hhead with
      | prose h' => exact .cons (.prose (h.append h')) htail
      | code h' => exact .cons (.prose h) (.cons (.code h') htail)

/-- A character and its reference are read alike, as prose behind which no fence
can open on the line. -/
theorem segmentFrom_reference {c : Char} {r : Text} (hr : reference? c = some r)
    (atIndent : Bool) (s : Text) :
    segmentFrom atIndent (c :: s) = joinProse [c] (segmentFrom false s) ∧
      segmentFrom atIndent (r ++ s) = joinProse r (segmentFrom false s) := by
  rcases reference?_cases hr with ⟨rfl, rfl⟩ | ⟨rfl, rfl⟩
  all_goals
    refine ⟨?_, ?_⟩
    · rw [segmentFrom_other (by decide)]
      simp [isIndent]
    · simp only [List.cons_append, List.nil_append]
      iterate 4 rw [segmentFrom_other (by decide)]
      simp [isIndent]

theorem segmentFrom_escaped {atIndent : Bool} {s s' : Text} (h : Escaped s s') :
    List.Forall₂ Span.Escaped (segmentFrom atIndent s) (segmentFrom atIndent s') := by
  have hrun : ∀ {c : Char} {k : Nat}, isMark c = true →
      ∀ d ∈ List.replicate k c, reference? d = none := by
    intro c k hc d hd
    rw [List.eq_of_mem_replicate hd]
    exact reference?_of_not_mem (not_mem_escaping_of_isMark hc)
  induction atIndent, s using segment_induction generalizing s' with
  | nil atIndent =>
      rw [h.of_nil, segmentFrom_nil]
      exact .nil
  | other atIndent c s hc ih =>
      cases h with
      | keep _ h =>
          rw [segmentFrom_other hc, segmentFrom_other hc]
          exact joinProse_escaped (Escaped.refl _) (ih h)
      | @swap _ r _ s' hr h =>
          have hflag : (c == '\n' || (atIndent && isIndent c)) = false := by
            rcases reference?_cases hr with ⟨rfl, rfl⟩ | ⟨rfl, rfl⟩ <;> simp [isIndent]
          have hsame := ih h
          rw [hflag] at hsame
          rw [(segmentFrom_reference hr atIndent s).1, (segmentFrom_reference hr atIndent s').2]
          refine joinProse_escaped ?_ hsame
          rw [← List.append_nil r]
          exact .swap hr .nil
  | code atIndent c k s code rest hc hk hs hfound ih =>
      obtain ⟨s', rfl, hs'⟩ := Escaped.of_plain (hrun hc) h
      have hhead := fun hd => hs ((hs'.head?_iff (not_mem_escaping_of_isMark hc)).mp hd)
      have hrel := codeAfter?_escaped hc atIndent k hs'
      rw [segmentFrom_run hc hk hs, segmentFrom_run hc hk hhead, hfound]
      rw [hfound] at hrel
      generalize codeAfter? atIndent c k s' = found at hrel
      cases hrel with
      | some hcut => exact .cons (.code ((Escaped.refl _).append hcut.1)) (ih hcut.2)
  | left atIndent c k s hc hk hs hfound ih =>
      obtain ⟨s', rfl, hs'⟩ := Escaped.of_plain (hrun hc) h
      have hhead := fun hd => hs ((hs'.head?_iff (not_mem_escaping_of_isMark hc)).mp hd)
      have hrel := codeAfter?_escaped hc atIndent k hs'
      rw [segmentFrom_run hc hk hs, segmentFrom_run hc hk hhead, hfound]
      rw [hfound] at hrel
      generalize codeAfter? atIndent c k s' = found at hrel
      cases hrel with
      | none => exact joinProse_escaped (Escaped.refl _) (ih hs')

/-- An escaped document is cut where the document is cut. -/
theorem segment_escaped {t u : Text} (h : Escaped t u) :
    List.Forall₂ Span.Escaped (segment t) (segment u) := segmentFrom_escaped h

/-- Spans escaped from the same ones are equal once they make up the same text. -/
theorem escaped_spans_inj {xs ys zs : List Span} (hy : List.Forall₂ Span.Escaped xs ys)
    (hz : List.Forall₂ Span.Escaped xs zs) (h : reassemble ys = reassemble zs) : ys = zs := by
  induction hy generalizing zs with
  | nil =>
      cases hz
      rfl
  | cons hxy _ ih =>
      cases hz with
      | cons hxz hzs =>
          rw [reassemble_cons, reassemble_cons] at h
          obtain ⟨hhead, htail⟩ := hxy.content.append_inj hxz.content h
          rw [ih hzs htail]
          cases hxy <;> cases hxz <;> exact congrArg (· :: _) (congrArg _ hhead)

theorem reassemble_escaped {xs ys : List Span} (h : List.Forall₂ Span.Escaped xs ys) :
    Escaped (reassemble xs) (reassemble ys) := by
  induction h with
  | nil => exact .nil
  | cons hhead _ ih => exact hhead.content.append ih

/-- Escaping the spans of a document one by one moves no boundary between them. -/
theorem segment_reassemble_escaped {t : Text} {spans : List Span}
    (h : List.Forall₂ Span.Escaped (segment t) spans) : segment (reassemble spans) = spans := by
  have ht := reassemble_escaped h
  rw [reassemble_segment] at ht
  exact escaped_spans_inj (segment_escaped ht) h (reassemble_segment _)

end MdxMend
