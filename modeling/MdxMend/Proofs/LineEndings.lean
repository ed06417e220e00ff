import MdxMend.Proofs.FencePhase
import MdxMend.Proofs.LineByLine
import MdxMend.Proofs.Returns

/-!
# Line endings

A repair does the same to a document whichever way its lines end (`repair_crlf`). The second
phase does so because its readers take no notice of returns (`Escaper.Blind`): none of
them looks for one behind a bracket, and behind the line feed each has its first state,
whatever the return did to it before.

In the first phase a line is matched with either line break and keeps its own. But a tag may
not hold a return, so a second one in front of the line feed would hide the line from the rule.
It is only here that the document must have none of its own.
-/

namespace MdxMend

open Text Builtin

/-! ## Readers of prose -/

section Lookahead

variable (s : Text)

theorem startsDigit_crlf : startsDigit (Text.crlf s) = startsDigit s := by
  cases s with
  | nil => rfl
  | cons c s =>
      by_cases hc : c = '\n'
      · subst hc
        rfl
      · rw [crlf_other hc]
        rfl

theorem startsSpaceDigit_crlf : startsSpaceDigit (Text.crlf s) = startsSpaceDigit s := by
  have hspace := head?_crlf (c := ' ') (by decide) (by decide) s
  unfold startsSpaceDigit
  rw [dropWhile_crlf (by decide) (by decide), startsDigit_crlf]
  congr 1
  rw [Bool.eq_iff_iff, beq_iff_eq, beq_iff_eq, hspace]

theorem startsDigitTag_crlf : startsDigitTag (Text.crlf s) = startsDigitTag s := by
  cases s with
  | nil => rfl
  | cons c s =>
      unfold startsDigitTag
      by_cases hslash : c = '/'
      · subst hslash
        simpa [crlf_other] using startsDigit_crlf s
      · have hhead : (Text.crlf (c :: s)).head? ≠ some '/' := by
          rw [Ne, head?_crlf (by decide) (by decide)]
          simpa using hslash
        rw [if_neg (by simpa using hhead), if_neg (by simpa using hslash), startsDigit_crlf]

theorem isSome_spacedDigit?_crlf :
    (spacedDigit? (Text.crlf s)).isSome = (spacedDigit? s).isSome := by
  cases s with
  | nil => rfl
  | cons c s =>
      by_cases hnl : c = '\n'
      · subst hnl
        rfl
      · rw [crlf_other hnl, isSome_spacedDigit?, isSome_spacedDigit?, startsDigit_crlf]

end Lookahead

namespace Escaper

variable {σ : Type} {e : Escaper σ} {start : σ}

/-- The reader takes no notice of returns in what follows. -/
structure Blind (e : Escaper σ) : Prop where
  picks_eq : ∀ st c s, e.picks st c (Text.crlf s) = e.picks st c s
  next_eq : ∀ st c s, e.next st c (Text.crlf s) = e.next st c s

theorem blind_lessDigit : lessDigit.Blind where
  picks_eq := fun _ c s => congrArg (c == '<' && ·) (startsDigit_crlf s)
  next_eq := fun _ _ _ => rfl

theorem blind_lessSpaceDigit : lessSpaceDigit.Blind where
  picks_eq := fun _ c s => congrArg (c == '<' && ·) (startsSpaceDigit_crlf s)
  next_eq := fun _ _ _ => rfl

theorem blind_greaterDigit : greaterDigit.Blind where
  picks_eq := fun guarded c s => congrArg (c == '>' && !guarded && ·) (isSome_spacedDigit?_crlf s)
  next_eq := fun _ _ _ => rfl

theorem blind_digitTag : digitTag.Blind where
  picks_eq := fun inTag c s => congrArg (c == '<' && !inTag && ·) (startsDigitTag_crlf s)
  next_eq := fun inTag c s =>
    congrArg (fun b => (c == '<' && b) || (inTag && isTagBody c)) (startsDigitTag_crlf s)

/-- Behind a line feed a reader starts afresh, so it does not matter in which state the
return left it. -/
theorem Blind.read (h : e.Blind) (hline : e.ByLine start) (he : e.Steady) (st : σ) (t : Text) :
    e.text st (Text.crlf t) = Text.crlf (e.text st t) ∧
      e.fixes st (Text.crlf t) = e.fixes st t := by
  have hbreak : ∀ {c : Char}, c = '\n' ∨ c = '\r' → ∀ st s, e.picks st c s = false := by
    rintro c (rfl | rfl) st s <;> exact not_picks_of_plain he rfl st s
  induction t generalizing st with
  | nil => exact ⟨rfl, rfl⟩
  | cons c t ih =>
      by_cases hc : c = '\n'
      · subst hc
        obtain ⟨htext, hfixes⟩ := ih start
        have hnl := hbreak (.inl rfl)
        have hcr := hbreak (.inr rfl)
        rw [crlf_newline, text_of_not_picks (hcr _ _), text_of_not_picks (hnl _ _),
          text_of_not_picks (hnl _ _), fixes, fixes, fixes, hcr, hnl, hnl, hline.next_newline,
          hline.next_newline, crlf_newline, htext, hfixes]
        exact ⟨rfl, Nat.zero_add _⟩
      · obtain ⟨htext, hfixes⟩ := ih (e.next st c t)
        have hwritten : '\n' ∉ (if e.picks st c t then (reference? c).getD [c] else [c]) := by
          split
          · cases hr : reference? c with
            | none => simpa using Ne.symm hc
            | some r => rcases reference?_cases hr with ⟨-, rfl⟩ | ⟨-, rfl⟩ <;> simp
          · simpa using Ne.symm hc
        rw [crlf_other hc, text, text, fixes, fixes, h.picks_eq, h.next_eq, htext, hfixes,
          crlf_append, crlf_of_not_mem hwritten]
        exact ⟨rfl, rfl⟩

end Escaper

/-! ## The second phase -/

/-- The second text is the first, in the other form. -/
def InCrlf (t u : Text) : Prop := u = Text.crlf t

theorem piecewise_inCrlf : Piecewise InCrlf where
  nil := rfl
  append := by
    intro t u t' u' h h'
    rw [InCrlf, crlf_append, ← h, ← h']
  segment := by
    intro t u h
    rw [h, segment_crlf, List.forall₂_map_right_iff]
    refine List.forall₂_same.mpr fun span _ => ?_
    cases span with
    | prose t => exact .prose rfl
    | code t => exact .code rfl

/-- The rule does the same to a text in either form. -/
def Rule.Blind (r : Rule) : Prop :=
  ∀ p q : Progress, p.Abreast InCrlf q → (r.apply p).Abreast InCrlf (r.apply q)

theorem Escaper.Blind.rule {σ : Type} {e : Escaper σ} {start : σ} {r : Rule} (h : e.Blind)
    (hline : e.ByLine start) (he : e.Steady) (hruns : e.Runs start r) : r.Blind := by
  intro p q hpq
  obtain ⟨htext, hfixes⟩ := h.read hline he start p.text
  rw [hruns.apply he, hruns.apply he, hpq.text, hpq.tally_eq, htext, hfixes]
  exact ⟨rfl, rfl⟩

theorem Builtin.blind_of_mem : ∀ r ∈ Builtin.proseRules, r.Blind := by
  intro r hr
  rw [Builtin.proseRules_eq] at hr
  simp only [List.mem_cons, List.not_mem_nil, or_false] at hr
  rcases hr with rfl | rfl | rfl | rfl
  · exact Escaper.blind_lessDigit.rule Escaper.byLine_lessDigit Escaper.steady_lessDigit
      Escaper.runs_lessDigit
  · exact Escaper.blind_lessSpaceDigit.rule Escaper.byLine_lessSpaceDigit
      Escaper.steady_lessSpaceDigit Escaper.runs_lessSpaceDigit
  · exact Escaper.blind_greaterDigit.rule Escaper.byLine_greaterDigit
      Escaper.steady_greaterDigit Escaper.runs_greaterDigit
  · exact Escaper.blind_digitTag.rule Escaper.byLine_digitTag Escaper.steady_digitTag
      Escaper.runs_digitTag

theorem repairProse_crlf {o : Options} (ho : o.ruleList = Builtin.rules) {p q : Progress}
    (h : p.Abreast InCrlf q) : (repairProse o p).Abreast InCrlf (repairProse o q) := by
  have hrules : ∀ r ∈ o.proseRules, r.Blind := by
    intro r hr
    simp only [Options.proseRules, Options.activeRules, selectRules, ho, List.mem_filter] at hr
    exact Builtin.blind_of_mem r (List.mem_filter.mpr ⟨hr.1.1, hr.2⟩)
  exact (keepAbreast_of_rules hrules).repairProse piecewise_inCrlf rfl h

/-! ## The first phase -/

namespace FenceLine

/-- The line with a return in front of its line feed. -/
def crlf (f : FenceLine) : FenceLine := { f with eol := ['\r', '\n'], eol_cases := .inr rfl }

theorem eol_of_not_mem {f : FenceLine} (h : '\r' ∉ f.text) : f.eol = ['\n'] := by
  refine f.eol_cases.resolve_right fun heol => h ?_
  rw [text_eq, heol]
  simp

theorem text_crlf {f : FenceLine} (h : f.eol = ['\n']) : f.crlf.text = Text.crlf f.text := by
  rw [text_eq, text_eq, h, crlf_line f.newline_not_mem_front]
  rfl

theorem eol_retagged (f : FenceLine) : f.retagged.eol = f.eol := by
  unfold retagged
  split <;> rfl

theorem retagged_crlf (f : FenceLine) : f.crlf.retagged = f.retagged.crlf := by
  have htag : f.crlf.tag = f.tag := rfl
  unfold retagged
  split
  · next h =>
      rw [htag] at h
      split
      · rfl
      · next h' =>
          rw [h] at h'
          cases h'
  · next h =>
      rw [htag] at h
      split
      · next h' =>
          rw [h] at h'
          cases h'
      · next h' =>
          obtain rfl := Option.some.inj (h.symm.trans h')
          rfl

/-- A line in the other form that is a fence line was one. -/
theorem of_crlf {l : Text} (hl : IsLine l) (f : FenceLine) (h : Text.crlf l = f.text) :
    ∃ g : FenceLine, l = g.text := by
  obtain ⟨x, hx, rfl⟩ := hl
  rw [crlf_line hx, text_eq] at h
  rcases f.eol_cases with heol | heol
  · -- The return would stand in the indent, in the run or in the tag.
    have hfront : (x ++ ['\r']) ++ ['\n'] = f.front ++ ['\n'] := by simpa [heol] using h
    exact absurd (List.append_cancel_right hfront ▸ by simp) f.return_not_mem_front
  · have hfront : x ++ ['\r', '\n'] = f.front ++ ['\r', '\n'] := by simpa [heol] using h
    rw [List.append_cancel_right hfront]
    exact ⟨{ f with eol := ['\n'], eol_cases := .inl rfl }, by rw [text_eq]; rfl⟩

end FenceLine

theorem Text.IsLine.crlf {l : Text} (hl : IsLine l) : IsLine (Text.crlf l) := by
  obtain ⟨x, hx, rfl⟩ := hl
  refine ⟨x ++ ['\r'], by simp [hx], ?_⟩
  rw [crlf_line hx]
  simp

theorem retag_crlf {l : Text} (hl : IsLine l) (hcr : '\r' ∉ l) (open? : Option Fence) :
    retag open? (Text.crlf l) = (Text.crlf (retag open? l).1, (retag open? l).2) := by
  by_cases hfence : ∃ f : FenceLine, l = f.text
  · obtain ⟨f, rfl⟩ := hfence
    have heol := FenceLine.eol_of_not_mem hcr
    rw [← FenceLine.text_crlf heol]
    cases open? with
    | none =>
        rw [retag_none, retag_none, FenceLine.retagged_crlf,
          FenceLine.text_crlf (f.eol_retagged.trans heol)]
        rfl
    | some g =>
        rw [retag_some, retag_some, ← FenceLine.text_crlf heol]
        rfl
  · rw [retag_other hl fun f hf => hfence ⟨f, hf⟩,
      retag_other hl.crlf fun f hf => hfence (f.of_crlf hl hf)]

theorem flatten_crlf (ls : List Text) : (ls.map Text.crlf).flatten = Text.crlf ls.flatten := by
  induction ls with
  | nil => rfl
  | cons l ls ih => rw [List.map_cons, List.flatten_cons, List.flatten_cons, crlf_append, ih]

theorem lines_crlf (t : Text) : lines (Text.crlf t) = (lines t).map Text.crlf := by
  have hlined : ∀ ls, Lined ls → Lined (ls.map Text.crlf) := by
    intro ls hls
    induction hls with
    | nil => exact .nil
    | @last x hne hx =>
        rw [List.map_singleton, crlf_of_not_mem hx]
        exact .last hne hx
    | line hl _ ih => exact .line hl.crlf ih
  have h := (hlined _ (lined_lines t)).lines_flatten
  rwa [flatten_crlf, flatten_lines] at h

theorem retagLines_crlf {ls : List Text} (hls : Lined ls) (hcr : ∀ l ∈ ls, '\r' ∉ l)
    (open? : Option Fence) :
    retagLines open? (ls.map Text.crlf) = (retagLines open? ls).map Text.crlf := by
  induction hls generalizing open? with
  | nil => rfl
  | @last x hne hx =>
      rw [List.map_singleton, crlf_of_not_mem hx, retagLines, retag_last hx]
      simp [retagLines, crlf_of_not_mem hx]
  | @line l ls hl hls ih =>
      rw [List.map_cons, retagLines, retag_crlf hl (hcr l List.mem_cons_self),
        ih fun m hm => hcr m (List.mem_cons_of_mem l hm), retagLines, List.map_cons]

theorem changed_crlf (ls ms : List Text) :
    changed (ls.map Text.crlf) (ms.map Text.crlf) = changed ls ms := by
  rw [changed, List.zip_map, List.countP_map, changed]
  refine List.countP_congr fun p _ => ?_
  simp [crlf_injective.eq_iff]

theorem repairFences_crlf {o : Options} (ho : o.ruleList = Builtin.rules) {t : Text}
    (ht : '\r' ∉ t) :
    (repairFences o t).Abreast InCrlf (repairFences o (Text.crlf t)) := by
  have hcr : ∀ l ∈ lines t, '\r' ∉ l := by
    intro l hl hmem
    rw [← flatten_lines t] at ht
    exact ht (List.mem_flatten.mpr ⟨l, hl, hmem⟩)
  rw [repairFences, repairFences, Options.fenceRules_builtin ho]
  split
  · simp only [applyRules, List.foldl_cons, List.foldl_nil, apply_normalizeLanguage]
    rw [lines_crlf, retagLines_crlf (lined_lines t) hcr, flatten_crlf, changed_crlf]
    exact ⟨rfl, rfl⟩
  · exact ⟨rfl, rfl⟩

/-! ## The whole repair -/

/-- A document with line feeds is repaired as the same document with carriage returns in front
of them, whichever of the built-in rules are active and whether code is kept or not. -/
theorem repair_crlf (o : Options) (t : Text) (ho : o.ruleList = Builtin.rules) (ht : '\r' ∉ t) :
    (repair o (Text.crlf t)).text = Text.crlf (repair o t).text ∧
      (repair o (Text.crlf t)).tally = (repair o t).tally := by
  obtain ⟨htext, htally⟩ := repairProse_crlf ho (repairFences_crlf ho ht)
  exact ⟨htext, htally.symm⟩

/-- Without the rule on `<` and with one on code: a block gets its tag, a `>` at the start of a
line is escaped, and a tag ends with its line. -/
theorem repair_crlf_block :
    let o : Options := { disable := ["less-than-digit"] }
    let t : Text := "```none\n<5\n```  \n>6 `<7\n` </8\n".toList
    o.ruleList = Builtin.rules ∧ '\r' ∉ t ∧
      (repair o (Text.crlf t)).text = Text.crlf (repair o t).text ∧
      (repair o (Text.crlf t)).tally = (repair o t).tally := by
  intro o t
  have ht : '\r' ∉ t := by decide
  exact ⟨rfl, ht, repair_crlf o t rfl ht⟩

/-- A second return in front of the line feed hides a fence line from its rule. -/
example :
    let t : Text := "```\r\n".toList
    (repair {} (Text.crlf t)).text = Text.crlf t ∧ (repair {} t).text = "```text\r\n".toList := by
  decide +kernel

end MdxMend
