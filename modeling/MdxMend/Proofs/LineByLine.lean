import MdxMend.Proofs.Counting

/-!
# Prose is repaired line by line

No rule on prose looks further than the line it is on. The patterns say so in
different ways: what may stand between a bracket and its digit is never a line feed,
no tag goes on over one, and a `>` behind one is as free as at the start of the
text. For a reader it comes to two things. Of what follows it sees nothing behind the
next line feed, and behind a line feed its state is the one it starts in (`ByLine`).

So a text that is cut behind a line feed is repaired piece by piece, and the counts
of the pieces add up (`applyRules_line`). The induction over the rules needs the cut to
be there still when the next rule comes; what a reader writes has the line
feed in its place.
-/

namespace MdxMend

open Text Builtin

/-! ## What follows a bracket on its line -/

section Lookahead

variable (s v : Text)

theorem startsDigit_line : startsDigit (s ++ '\n' :: v) = startsDigit (s ++ ['\n']) := by
  cases s <;> rfl

theorem dropWhile_line {p : Char → Bool} (hp : p '\n' = false) :
    (s ++ '\n' :: v).dropWhile p = s.dropWhile p ++ '\n' :: v := by
  induction s with
  | nil => rw [List.nil_append, List.dropWhile_cons_of_neg (by simp [hp])]; rfl
  | cons c s ih =>
      rw [List.cons_append]
      cases hc : p c with
      | true => rw [List.dropWhile_cons_of_pos hc, List.dropWhile_cons_of_pos hc, ih]
      | false =>
          rw [List.dropWhile_cons_of_neg (by simp [hc]), List.dropWhile_cons_of_neg (by simp [hc])]
          rfl

theorem startsSpaceDigit_line :
    startsSpaceDigit (s ++ '\n' :: v) = startsSpaceDigit (s ++ ['\n']) := by
  unfold startsSpaceDigit
  rw [dropWhile_line s v (by decide), dropWhile_line s [] (by decide), startsDigit_line]
  cases s <;> rfl

theorem startsDigitTag_line :
    startsDigitTag (s ++ '\n' :: v) = startsDigitTag (s ++ ['\n']) := by
  cases s with
  | nil => rfl
  | cons c s =>
      unfold startsDigitTag
      by_cases hc : c = '/'
      · simpa [hc] using startsDigit_line s v
      · simp [hc, startsDigit]

theorem spacedDigit?_line :
    (spacedDigit? (s ++ '\n' :: v)).isSome = (spacedDigit? (s ++ ['\n'])).isSome := by
  cases s with
  | nil => rfl
  | cons c s =>
      rw [List.cons_append, List.cons_append, isSome_spacedDigit?, isSome_spacedDigit?,
        startsDigit_line]

end Lookahead

/-! ## Readers -/

namespace Escaper

variable {σ : Type} {e : Escaper σ} {start : σ}

/-- The reader sees nothing behind the next line feed, and behind a line feed it
starts afresh. -/
structure ByLine (e : Escaper σ) (start : σ) : Prop where
  picks_eq : ∀ st c s v, e.picks st c (s ++ '\n' :: v) = e.picks st c (s ++ ['\n'])
  next_eq : ∀ st c s v, e.next st c (s ++ '\n' :: v) = e.next st c (s ++ ['\n'])
  next_newline : ∀ st v, e.next st '\n' v = start

/-- What is read up to a line feed and what is read behind it, each by itself. -/
theorem ByLine.read (h : e.ByLine start) (he : e.Steady) (st : σ) (x v : Text) :
    ∃ y, e.text st (x ++ ['\n']) = y ++ ['\n'] ∧
      e.text st (x ++ '\n' :: v) = y ++ '\n' :: e.text start v ∧
      e.fixes st (x ++ '\n' :: v) = e.fixes st (x ++ ['\n']) + e.fixes start v := by
  -- On the text in front of the line feed; from there on the state is the first one.
  induction x generalizing st with
  | nil =>
      have hbreak : ∀ v, e.picks st '\n' v = false := not_picks_of_plain he rfl st
      refine ⟨[], text_of_not_picks (hbreak []), ?_, ?_⟩
      · rw [List.nil_append, text_of_not_picks (hbreak v), h.next_newline]
        rfl
      · rw [List.nil_append, List.nil_append, fixes, fixes, hbreak, hbreak, h.next_newline]
        rfl
  | cons c x ih =>
      obtain ⟨y, hfirst, htext, hfixes⟩ := ih (e.next st c (x ++ ['\n']))
      refine ⟨(if e.picks st c (x ++ ['\n']) then (reference? c).getD [c] else [c]) ++ y,
        ?_, ?_, ?_⟩
      · rw [List.cons_append, text, hfirst, List.append_assoc]
      · rw [List.cons_append, text, h.picks_eq, h.next_eq, htext, List.append_assoc]
      · rw [List.cons_append, List.cons_append, fixes, fixes, h.picks_eq, h.next_eq, hfixes,
          Nat.add_assoc]

theorem byLine_lessDigit : lessDigit.ByLine () where
  picks_eq := fun _ c s v => congrArg (c == '<' && ·) (startsDigit_line s v)
  next_eq := fun _ _ _ _ => rfl
  next_newline := fun _ _ => rfl

theorem byLine_lessSpaceDigit : lessSpaceDigit.ByLine () where
  picks_eq := fun _ c s v => congrArg (c == '<' && ·) (startsSpaceDigit_line s v)
  next_eq := fun _ _ _ _ => rfl
  next_newline := fun _ _ => rfl

theorem byLine_greaterDigit : greaterDigit.ByLine false where
  picks_eq := fun guarded c s v =>
    congrArg (c == '>' && !guarded && ·) (spacedDigit?_line s v)
  next_eq := fun _ _ _ _ => rfl
  next_newline := fun _ _ => rfl

theorem byLine_digitTag : digitTag.ByLine false where
  picks_eq := fun inTag c s v => congrArg (c == '<' && !inTag && ·) (startsDigitTag_line s v)
  next_eq := fun inTag c s v =>
    congrArg (fun b => (c == '<' && b) || (inTag && isTagBody c)) (startsDigitTag_line s v)
  next_newline := by
    intro inTag v
    cases inTag <;> rfl

end Escaper

/-! ## Rules -/

/-- The rule escapes brackets, on each line by itself. -/
def Rule.ByLine (r : Rule) : Prop :=
  ∃ (σ : Type) (e : Escaper σ) (start : σ), e.Steady ∧ e.Runs start r ∧ e.ByLine start

theorem Rule.ByLine.apply {r : Rule} (h : r.ByLine) (x v : Text) :
    ∃ y, (r.apply { text := x ++ ['\n'] }).text = y ++ ['\n'] ∧
      (r.apply { text := x ++ '\n' :: v }).text = y ++ '\n' :: (r.apply { text := v }).text ∧
      r.fixes (x ++ '\n' :: v) = r.fixes (x ++ ['\n']) + r.fixes v := by
  obtain ⟨σ, e, start, he, hruns, hline⟩ := h
  simp only [hruns.apply he, hruns.fixes_eq]
  exact hline.read he start x v

/-- Rules that go by lines make of the text up to a line feed and of the text behind
it what they make of each by itself. -/
theorem applyRules_line {rules : List Rule} (h : ∀ r ∈ rules, r.ByLine) (x v : Text) :
    ∃ y, (applyRules rules { text := x ++ ['\n'] }).text = y ++ ['\n'] ∧
      (applyRules rules { text := x ++ '\n' :: v }).text =
        y ++ '\n' :: (applyRules rules { text := v }).text ∧
      ∀ name, fixesOf name rules (x ++ '\n' :: v) =
        fixesOf name rules (x ++ ['\n']) + fixesOf name rules v := by
  induction rules generalizing x v with
  | nil => exact ⟨x, rfl, rfl, fun _ => rfl⟩
  | cons r rules ih =>
      obtain ⟨y, hfirst, htext, hfixes⟩ := (h r List.mem_cons_self).apply x v
      obtain ⟨z, hfirst', htext', hfixes'⟩ :=
        ih (fun r' hr' => h r' (List.mem_cons_of_mem r hr')) y (r.apply { text := v }).text
      have hcons : ∀ t u, (r.apply { text := t }).text = u →
          (applyRules (r :: rules) { text := t }).text =
            (applyRules rules { text := u }).text :=
        fun t u hu => applyRules_text rules hu
      refine ⟨z, ?_, ?_, fun name => ?_⟩
      · rw [hcons _ _ hfirst, hfirst']
      · rw [hcons _ _ htext, htext', hcons v _ rfl]
      · rw [fixesOf, fixesOf, fixesOf, hfirst, htext, hfixes', hfixes]
        split <;> omega

theorem Builtin.byLine_of_mem : ∀ r ∈ Builtin.proseRules, r.ByLine := by
  intro r hr
  rw [Builtin.proseRules_eq] at hr
  simp only [List.mem_cons, List.not_mem_nil, or_false] at hr
  rcases hr with rfl | rfl | rfl | rfl
  · exact ⟨_, _, _, Escaper.steady_lessDigit, Escaper.runs_lessDigit, Escaper.byLine_lessDigit⟩
  · exact ⟨_, _, _, Escaper.steady_lessSpaceDigit, Escaper.runs_lessSpaceDigit,
      Escaper.byLine_lessSpaceDigit⟩
  · exact ⟨_, _, _, Escaper.steady_greaterDigit, Escaper.runs_greaterDigit,
      Escaper.byLine_greaterDigit⟩
  · exact ⟨_, _, _, Escaper.steady_digitTag, Escaper.runs_digitTag, Escaper.byLine_digitTag⟩

end MdxMend
