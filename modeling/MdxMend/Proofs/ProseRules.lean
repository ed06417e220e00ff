import MdxMend.Rule.Builtin
import MdxMend.Proofs.Escaper

/-!
# The rules on prose as readers

Each of the four rules is a reader of its own: two of them need no state, the
rule on `>` remembers whether the last character was one behind which it leaves
`>` alone, and the rule on tags remembers whether it is inside what its last
match covered.

The patterns take neighbours of a bracket into their matches, and matches
cannot overlap, so it has to be shown that none of them hides a bracket from its
own rule. For `<` nothing in a match but its first character is a `<`. For `>` the
last character of a match is a digit, behind which no `>` is escaped. For tags
it is not so: a match runs on over whatever looks like more of the tag, and the
state is there to say what it runs over.
-/

namespace MdxMend

open Text Builtin

theorem reference?_of_isDigit {c : Char} (h : isDigit c = true) : reference? c = none := by
  refine reference?_of_not_mem fun hc => ?_
  simp only [escaping, List.mem_cons, List.not_mem_nil, or_false] at hc
  rcases hc with rfl | rfl | rfl | rfl | rfl | rfl | rfl <;> exact absurd h (by decide)

/-! ## What follows a bracket -/

/-- A digit follows. -/
def startsDigit (s : Text) : Bool := s.head?.any isDigit

/-- Spaces follow, and then a digit. -/
def startsSpaceDigit (s : Text) : Bool :=
  s.head? == some ' ' && startsDigit (s.dropWhile (· == ' '))

/-- The name of a tag follows that begins with a digit. -/
def startsDigitTag (s : Text) : Bool :=
  startsDigit (if s.head? == some '/' then s.tail else s)

theorem isSome_spacedDigit? (c : Char) (s : Text) :
    (spacedDigit? (c :: s)).isSome = if c = ' ' then startsDigit s else isDigit c := by
  by_cases hc : c = ' '
  · rw [if_pos hc, hc]
    cases s with
    | nil => rfl
    | cons d s =>
        simp only [spacedDigit?, startsDigit, List.head?_cons, Option.any_some]
        cases isDigit d <;> rfl
  · rw [if_neg hc]
    unfold spacedDigit?
    split
    · next heq => exact absurd (List.cons.inj heq).1 hc
    · next heq =>
        obtain ⟨rfl, rfl⟩ := List.cons.inj heq
        cases isDigit c <;> rfl
    · next heq => cases heq

section Escaped

variable {s u : Text}

theorem Escaped.startsDigit_eq (h : Escaped s u) : startsDigit u = startsDigit s := by
  cases h with
  | nil => rfl
  | keep c _ => rfl
  | swap hr _ => rcases reference?_cases hr with ⟨rfl, rfl⟩ | ⟨rfl, rfl⟩ <;> rfl

theorem Escaped.startsSpaceDigit_eq (h : Escaped s u) :
    startsSpaceDigit u = startsSpaceDigit s := by
  have hspace := h.head?_iff (c := ' ') (by decide)
  have hrest := (h.scan_outside (p := (· == ' ')) (by simp [escaping])).2.startsDigit_eq
  rw [startsSpaceDigit, startsSpaceDigit, hrest]
  congr 1
  rw [Bool.eq_iff_iff, beq_iff_eq, beq_iff_eq, hspace]

theorem Escaped.startsDigitTag_eq (h : Escaped s u) :
    startsDigitTag u = startsDigitTag s := by
  cases h with
  | nil => rfl
  | keep c h =>
      unfold startsDigitTag
      by_cases hc : c = '/'
      · simpa [hc] using h.startsDigit_eq
      · simp [hc, startsDigit]
  | swap hr _ => rcases reference?_cases hr with ⟨rfl, rfl⟩ | ⟨rfl, rfl⟩ <;> rfl

theorem Escaped.spacedDigit?_eq (h : Escaped s u) :
    (spacedDigit? u).isSome = (spacedDigit? s).isSome := by
  cases h with
  | nil => rfl
  | keep c h => rw [isSome_spacedDigit?, isSome_spacedDigit?, h.startsDigit_eq]
  | swap hr _ => rcases reference?_cases hr with ⟨rfl, rfl⟩ | ⟨rfl, rfl⟩ <;> rfl

end Escaped

/-! ## The four readers -/

namespace Escaper

/-- Picks `<` in front of a digit. -/
def lessDigit : Escaper Unit where
  picks _ c s := c == '<' && startsDigit s
  next _ _ _ := ()

/-- Picks `<` in front of spaces and a digit. -/
def lessSpaceDigit : Escaper Unit where
  picks _ c s := c == '<' && startsSpaceDigit s
  next _ _ _ := ()

/-- Picks `>` in front of a digit or of one space and a digit. The state tells
whether it stands behind a character that guards it. -/
def greaterDigit : Escaper Bool where
  picks guarded c s := c == '>' && !guarded && (spacedDigit? s).isSome
  next _ c _ := isGuard c

/-- Picks `<` in front of the name of a tag, unless it stands in a tag already. -/
def digitTag : Escaper Bool where
  picks inTag c s := c == '<' && !inTag && startsDigitTag s
  next inTag c s := (c == '<' && startsDigitTag s) || (inTag && isTagBody c)

theorem isSome_reference? {c : Char} (h : c = '<' ∨ c = '>') :
    (reference? c).isSome = true := by
  rcases h with rfl | rfl <;> rfl

theorem steady_lessDigit : lessDigit.Steady where
  isSome := fun h => isSome_reference? (.inl (by simp_all [lessDigit]))
  picks_eq := fun h _ _ => by simp only [lessDigit, h.startsDigit_eq]
  next_eq := fun _ _ _ => rfl

theorem steady_lessSpaceDigit : lessSpaceDigit.Steady where
  isSome := fun h => isSome_reference? (.inl (by simp_all [lessSpaceDigit]))
  picks_eq := fun h _ _ => by simp only [lessSpaceDigit, h.startsSpaceDigit_eq]
  next_eq := fun _ _ _ => rfl

theorem steady_greaterDigit : greaterDigit.Steady where
  isSome := fun h => isSome_reference? (.inr (by simp_all [greaterDigit]))
  picks_eq := fun h _ _ => by simp only [greaterDigit, h.spacedDigit?_eq]
  next_eq := fun _ _ _ => rfl

theorem steady_digitTag : digitTag.Steady where
  isSome := fun h => isSome_reference? (.inl (by simp_all [digitTag]))
  picks_eq := fun h _ _ => by simp only [digitTag, h.startsDigitTag_eq]
  next_eq := fun h _ _ => by simp only [digitTag, h.startsDigitTag_eq]

/-! ## The matches of each rule -/

theorem expand_escapedLess (n : Nat) (rest : Text) :
    escapedLess.expand ⟨n, '<' :: rest, [(1, ⟨1, rest⟩)], []⟩ = ['&', 'l', 't', ';'] ++ rest := by
  simp [Template.expand, escapedLess, Template.Part.expand, Match.group?, List.lookup_cons]

theorem expand_escapedGreater (n k : Nat) (x guard digit : Text) :
    escapedGreater.expand ⟨n, x, [(1, ⟨0, guard⟩), (2, ⟨k, digit⟩)], []⟩ =
      guard ++ (['&', 'g', 't', ';'] ++ digit) := by
  simp [Template.expand, escapedGreater, Template.Part.expand, Match.group?, List.lookup_cons]

/-- A match that begins with a picked `<` and goes on over what is copied. -/
theorem hit_less {σ : Type} {e : Escaper σ} {st st' : σ} {rest s : Text} (n : Nat)
    (hpick : e.picks st '<' (rest ++ s) = true)
    (htext : e.text (e.next st '<' (rest ++ s)) (rest ++ s) = rest ++ e.text st' s)
    (hfixes : e.fixes (e.next st '<' (rest ++ s)) (rest ++ s) = e.fixes st' s) :
    let new := escapedLess.expand ⟨n, '<' :: rest, [(1, ⟨1, rest⟩)], []⟩
    e.text st ('<' :: (rest ++ s)) = new ++ e.text st' s ∧
      e.fixes st ('<' :: (rest ++ s)) = e.fixes st' s + 1 ∧ new ≠ '<' :: rest := by
  have hnew := expand_escapedLess n rest
  simp only []
  rw [hnew]
  refine ⟨?_, ?_, ?_⟩
  · rw [text_of_picks (r := ['&', 'l', 't', ';']) hpick rfl, htext]
    simp
  · rw [fixes, hpick, hfixes, if_pos rfl, Nat.add_comm]
  · intro heq
    exact absurd (List.cons.inj heq).1 (by decide)

theorem lessDigitAt?_eq_some {b : Option Char} {t : Text} {σ : Sighting}
    (h : lessDigitAt? ⟨b, t⟩ = some σ) :
    ∃ d s, t = '<' :: d :: s ∧ isDigit d = true ∧ σ = lessBefore [d] := by
  unfold lessDigitAt? at h
  split at h
  · next d s heq =>
      split at h
      · next hd => exact ⟨d, s, heq, hd, (Option.some.inj h).symm⟩
      · cases h
  · cases h

theorem lessDigitAt?_eq_none {b : Option Char} {s : Text}
    (h : lessDigitAt? ⟨b, '<' :: s⟩ = none) : startsDigit s = false := by
  cases s with
  | nil => rfl
  | cons d s =>
      cases hd : isDigit d with
      | false => simp [startsDigit, hd]
      | true => simp [lessDigitAt?, hd] at h

theorem follows_lessDigit :
    lessDigit.Follows lessDigitAt? escapedLess.expand fun _ _ => True where
  miss := by
    intro _ b c s _ h
    refine ⟨?_, trivial⟩
    by_cases hc : c = '<'
    · subst hc
      simp [lessDigit, lessDigitAt?_eq_none h]
    · simp [lessDigit, hc]
  hit := by
    intro st b t σ n _ h
    obtain ⟨d, s, rfl, hd, rfl⟩ := lessDigitAt?_eq_some h
    have hplain : ∀ c ∈ [d], reference? c = none := by
      simpa using reference?_of_isDigit hd
    obtain ⟨htext, hfixes⟩ := text_plain steady_lessDigit hplain () s
    have hpick : lessDigit.picks () '<' ([d] ++ s) = true := by simp [lessDigit, startsDigit, hd]
    obtain ⟨h1, h2, h3⟩ := hit_less n hpick htext hfixes
    exact ⟨'<' :: [d], s, (), rfl, rfl, by simp, h1, h2, h3, trivial⟩

theorem lessSpaceDigitAt?_eq_some {b : Option Char} {t : Text} {σ : Sighting}
    (h : lessSpaceDigitAt? ⟨b, t⟩ = some σ) :
    ∃ n d s, t = '<' :: (List.replicate (n + 1) ' ' ++ [d] ++ s) ∧ isDigit d = true ∧
      σ = lessBefore (List.replicate (n + 1) ' ' ++ [d]) := by
  unfold lessSpaceDigitAt? at h
  split at h
  · next s heq =>
      simp only [] at h heq
      split at h
      · next d s' hrest =>
          split at h
          · next hif =>
              rw [Bool.and_eq_true, Bool.not_eq_true'] at hif
              have hs := List.takeWhile_append_dropWhile (p := (· == ' ')) (l := s)
              have hspaces := takeWhile_beq ' ' s
              rw [hrest] at hs
              cases hlen : (s.takeWhile (· == ' ')).length with
              | zero =>
                  rw [List.eq_nil_of_length_eq_zero hlen] at hif
                  exact absurd hif.1 (by decide)
              | succ n =>
                  rw [hlen] at hspaces
                  rw [hspaces] at hs h
                  refine ⟨n, d, s', ?_, hif.2, (Option.some.inj h).symm⟩
                  rw [heq, ← hs, List.append_assoc]
                  rfl
          · cases h
      · cases h
  · cases h

theorem lessSpaceDigitAt?_eq_none {b : Option Char} {s : Text}
    (h : lessSpaceDigitAt? ⟨b, '<' :: s⟩ = none) : startsSpaceDigit s = false := by
  cases s with
  | nil => rfl
  | cons c s =>
      by_cases hc : c = ' '
      · subst hc
        simp only [lessSpaceDigitAt?, List.takeWhile_cons, List.dropWhile_cons, beq_self_eq_true,
          if_true, List.isEmpty_cons, Bool.not_false, Bool.true_and] at h
        simp only [startsSpaceDigit, startsDigit, List.head?_cons, beq_self_eq_true, Bool.true_and,
          List.dropWhile_cons, if_true]
        cases hrest : s.dropWhile (· == ' ') with
        | nil => rfl
        | cons d s' =>
            rw [hrest] at h
            cases hd : isDigit d with
            | false => simp [hd]
            | true => simp [hd] at h
      · simp [startsSpaceDigit, hc]

theorem follows_lessSpaceDigit :
    lessSpaceDigit.Follows lessSpaceDigitAt? escapedLess.expand fun _ _ => True where
  miss := by
    intro _ b c s _ h
    refine ⟨?_, trivial⟩
    by_cases hc : c = '<'
    · subst hc
      simp [lessSpaceDigit, lessSpaceDigitAt?_eq_none h]
    · simp [lessSpaceDigit, hc]
  hit := by
    intro st b t σ start _ h
    obtain ⟨n, d, s, rfl, hd, rfl⟩ := lessSpaceDigitAt?_eq_some h
    have hplain : ∀ c ∈ List.replicate (n + 1) ' ' ++ [d], reference? c = none := by
      intro c hc
      rcases List.mem_append.mp hc with hc | hc
      · rw [List.eq_of_mem_replicate hc]
        rfl
      · rw [List.mem_singleton.mp hc]
        exact reference?_of_isDigit hd
    have hspace : ((d :: s).head? ≠ some ' ') := by
      intro heq
      obtain rfl := Option.some.inj heq
      exact absurd hd (by decide)
    have hpick : lessSpaceDigit.picks () '<' (List.replicate (n + 1) ' ' ++ [d] ++ s) = true := by
      rw [List.append_assoc]
      simp only [lessSpaceDigit, startsSpaceDigit]
      change (_ && (_ && startsDigit ((List.replicate (n + 1) ' ' ++ (d :: s)).dropWhile _))) = _
      rw [dropWhile_run hspace]
      simp [List.replicate_succ, startsDigit, hd]
    obtain ⟨htext, hfixes⟩ := text_plain steady_lessSpaceDigit hplain () s
    obtain ⟨h1, h2, h3⟩ := hit_less n hpick htext hfixes
    exact ⟨'<' :: (List.replicate (n + 1) ' ' ++ [d]), s, (), rfl, rfl, by simp, h1, h2, h3,
      trivial⟩

theorem spacedDigit?_eq_some {t digit : Text} (h : spacedDigit? t = some digit) :
    ∃ spaces d s, digit = spaces ++ [d] ∧ t = digit ++ s ∧ (∀ c ∈ spaces, c = ' ') ∧
      isDigit d = true := by
  unfold spacedDigit? at h
  split at h
  · next d s =>
      split at h
      · next hd =>
          obtain rfl := Option.some.inj h
          exact ⟨[' '], d, s, rfl, rfl, by simp, hd⟩
      · cases h
  · next d s _ =>
      split at h
      · next hd =>
          obtain rfl := Option.some.inj h
          exact ⟨[], d, s, rfl, rfl, by simp, hd⟩
      · cases h
  · cases h

theorem greaterAfter?_eq_some {guard t : Text} {σ : Sighting}
    (h : greaterAfter? guard t = some σ) :
    ∃ digit s, t = '>' :: s ∧ spacedDigit? s = some digit ∧
      σ = {
        length := guard.length + 1 + digit.length
        groups := [(1, ⟨0, guard⟩), (2, ⟨byteLength guard + 1, digit⟩)] } := by
  unfold greaterAfter? at h
  split at h
  · next s =>
      rw [Option.map_eq_some_iff] at h
      obtain ⟨digit, hdigit, hσ⟩ := h
      exact ⟨digit, s, rfl, hdigit, hσ.symm⟩
  · cases h

theorem greaterAfter?_eq_none {guard s : Text} (h : greaterAfter? guard ('>' :: s) = none) :
    spacedDigit? s = none := by
  simpa [greaterAfter?] using h

theorem greaterDigitAt?_eq_some {b : Option Char} {t : Text} {σ : Sighting}
    (h : greaterDigitAt? ⟨b, t⟩ = some σ) :
    ∃ guard s, t = guard ++ s ∧ greaterAfter? guard s = some σ ∧
      ((guard = [] ∧ b = none) ∨ ∃ c, guard = [c] ∧ isGuard c = false) := by
  unfold greaterDigitAt? at h
  rw [Option.or_eq_some_iff] at h
  rcases h with h | ⟨-, h⟩
  · split at h
    · next hstart => exact ⟨[], t, rfl, h, .inl ⟨rfl, Option.isNone_iff_eq_none.mp hstart⟩⟩
    · cases h
  · split at h
    · next c s heq =>
        simp only [] at heq
        split at h
        · cases h
        · next hguard => exact ⟨[c], s, heq, h, .inr ⟨c, rfl, by simpa using hguard⟩⟩
    · cases h

theorem greaterDigitAt?_eq_none {b : Option Char} {c : Char} {s : Text}
    (h : greaterDigitAt? ⟨b, c :: s⟩ = none) :
    (b = none → c = '>' → spacedDigit? s = none) ∧
      (isGuard c = false → ∀ s', s = '>' :: s' → spacedDigit? s' = none) := by
  unfold greaterDigitAt? at h
  rw [Option.or_eq_none_iff] at h
  obtain ⟨hstart, hguard⟩ := h
  constructor
  · rintro rfl rfl
    exact greaterAfter?_eq_none hstart
  · rintro hc s' rfl
    simp only [hc, Bool.false_eq_true, if_false] at hguard
    exact greaterAfter?_eq_none hguard

theorem isGuard_of_isDigit {c : Char} (h : isDigit c = true) : isGuard c = true := by
  simp [isGuard, h]

theorem walk_greaterDigit (guarded : Bool) {x : Text} {c : Char} (hx : x.getLast? = some c)
    (s : Text) : greaterDigit.walk guarded x s = isGuard c := by
  induction x generalizing guarded with
  | nil => cases hx
  | cons d x ih =>
      cases x with
      | nil =>
          obtain rfl := Option.some.inj hx
          rfl
      | cons d' x =>
          rw [List.getLast?_cons_cons] at hx
          exact ih _ hx

/-- Where the scan for `>` goes on, no `>` that its rule escapes was passed: one
stands behind a character that guards it, unless it begins the text. -/
def GreaterInv (guarded : Bool) (p : Place) : Prop :=
  guarded = p.before.any isGuard ∧
    (p.before ≠ none → guarded = false → ∀ s, p.after = '>' :: s → spacedDigit? s = none)

theorem follows_greaterDigit :
    greaterDigit.Follows greaterDigitAt? escapedGreater.expand GreaterInv where
  miss := by
    intro guarded b c s hinv h
    obtain ⟨hguarded, hpassed⟩ := hinv
    obtain ⟨hstart, hnext⟩ := greaterDigitAt?_eq_none h
    refine ⟨?_, rfl, fun _ => hnext⟩
    by_cases hc : c = '>'
    · subst hc
      have hnone : guarded = false → spacedDigit? s = none := by
        intro hg
        by_cases hb : b = none
        · exact hstart hb rfl
        · exact hpassed hb hg s rfl
      cases guarded with
      | true => rfl
      | false => simp [greaterDigit, hnone rfl]
    · simp [greaterDigit, hc]
  hit := by
    rintro guarded b t σ n ⟨hguarded, -⟩ h
    obtain ⟨guard, t, rfl, hafter, hguard⟩ := greaterDigitAt?_eq_some h
    obtain ⟨digit, u, rfl, hspaced, rfl⟩ := greaterAfter?_eq_some hafter
    obtain ⟨spaces, d, s, rfl, rfl, hspaces, hd⟩ := spacedDigit?_eq_some hspaced
    have hplain : ∀ c ∈ spaces ++ [d], reference? c = none := by
      intro c hc
      rcases List.mem_append.mp hc with hc | hc
      · rw [hspaces c hc]
        rfl
      · rw [List.mem_singleton.mp hc]
        exact reference?_of_isDigit hd
    obtain ⟨htext, hfixes⟩ := text_plain steady_greaterDigit hplain (isGuard '>') s
    rw [walk_greaterDigit _ (List.getLast?_concat ..), isGuard_of_isDigit hd] at htext hfixes
    have hpick : greaterDigit.picks false '>' (spaces ++ [d] ++ s) = true := by
      simp only [greaterDigit, hspaced]
      rfl
    -- The bracket and the digit are the same for both kinds of match.
    have hrest : greaterDigit.text false ('>' :: (spaces ++ [d] ++ s)) =
          ['&', 'g', 't', ';'] ++ (spaces ++ [d]) ++ greaterDigit.text true s ∧
        greaterDigit.fixes false ('>' :: (spaces ++ [d] ++ s)) =
          greaterDigit.fixes true s + 1 := by
      constructor
      · rw [text_of_picks (r := ['&', 'g', 't', ';']) hpick rfl]
        exact (congrArg _ htext).trans (List.append_assoc ..).symm
      · rw [fixes, hpick, if_pos rfl, Nat.add_comm]
        exact congrArg (· + 1) hfixes
    have hwhole : greaterDigit.text guarded (guard ++ '>' :: (spaces ++ [d] ++ s)) =
          guard ++ greaterDigit.text false ('>' :: (spaces ++ [d] ++ s)) ∧
        greaterDigit.fixes guarded (guard ++ '>' :: (spaces ++ [d] ++ s)) =
          greaterDigit.fixes false ('>' :: (spaces ++ [d] ++ s)) := by
      rcases hguard with ⟨rfl, rfl⟩ | ⟨c, rfl, hc⟩
      · rw [hguarded]
        exact ⟨rfl, rfl⟩
      · have hskip : greaterDigit.picks guarded c ('>' :: (spaces ++ [d] ++ s)) = false := by
          simp [greaterDigit, spacedDigit?, show isDigit '>' = false by decide]
        have hnext : greaterDigit.next guarded c ('>' :: (spaces ++ [d] ++ s)) = false := hc
        rw [List.singleton_append, text_of_not_picks hskip, fixes, hskip, hnext]
        exact ⟨rfl, Nat.zero_add _⟩
    refine ⟨guard ++ '>' :: (spaces ++ [d]), s, true, by simp, ?_, by simp, ?_, ?_, ?_, ?_⟩
    · simp only [List.length_append, List.length_cons]
      omega
    · have htext' := hwhole.1.trans (congrArg (guard ++ ·) hrest.1)
      rw [htext', expand_escapedGreater]
      exact (List.append_assoc ..).symm
    · rw [hwhole.2, hrest.2]
    · rw [expand_escapedGreater]
      intro heq
      exact absurd (List.cons.inj (List.append_cancel_left heq)).1 (by decide)
    · rw [← List.cons_append, ← List.append_assoc, List.getLast?_concat]
      exact ⟨(isGuard_of_isDigit hd).symm, fun _ hfalse => absurd hfalse (by decide)⟩

theorem isTagBody_of_isDigit {c : Char} (h : isDigit c = true) : isTagBody c = true := by
  have hc : 48 ≤ c.toNat ∧ c.toNat ≤ 57 := by
    simpa [isDigit, Char.le_def, UInt32.le_iff_toNat_le] using h
  have hne : c ≠ '>' := by
    intro heq
    subst heq
    exact absurd h (by decide)
  have hblank : isBlank c = false := by
    simp only [isBlank]
    generalize c.toNat = n at hc
    simp only [Bool.or_eq_false_iff, Bool.and_eq_false_iff, decide_eq_false_iff_not,
      beq_eq_false_iff_ne]
    omega
  simp [isTagBody, hne, hblank]

theorem digitTagAt?_eq_some {b : Option Char} {t : Text} {σ : Sighting}
    (h : digitTagAt? ⟨b, t⟩ = some σ) :
    ∃ x s, t = '<' :: (x ++ s) ∧ startsDigitTag (x ++ s) = true ∧
      (∀ c ∈ x, isTagBody c = true) ∧ (∀ c ∈ s.head?, isTagBody c = false) ∧
      σ = lessBefore x := by
  unfold digitTagAt? at h
  split at h
  · next s heq =>
      simp only [] at heq
      have hname : ∀ (slash : Text) {d : Char} {body : Text}, s = slash ++ d :: body →
          (∀ c ∈ slash, isTagBody c = true) → startsDigitTag s = isDigit d →
          (if isDigit d then some (lessBefore (slash ++ d :: body.takeWhile isTagBody)) else none)
            = some σ →
          ∃ x u, t = '<' :: (x ++ u) ∧ startsDigitTag (x ++ u) = true ∧
            (∀ c ∈ x, isTagBody c = true) ∧ (∀ c ∈ u.head?, isTagBody c = false) ∧
            σ = lessBefore x := by
        intro slash d body hs hslash htag h
        split at h
        · next hd =>
            have hsplit : s =
                slash ++ d :: body.takeWhile isTagBody ++ body.dropWhile isTagBody := by
              rw [List.append_assoc, List.cons_append, List.takeWhile_append_dropWhile, hs]
            refine ⟨slash ++ d :: body.takeWhile isTagBody, body.dropWhile isTagBody, ?_, ?_, ?_,
              head?_dropWhile, (Option.some.inj h).symm⟩
            · rw [heq, hsplit]
            · rw [← hsplit, htag, hd]
            · intro c hc
              rcases List.mem_append.mp hc with hc | hc
              · exact hslash c hc
              · rcases List.mem_cons.mp hc with rfl | hc
                · exact isTagBody_of_isDigit hd
                · exact of_mem_takeWhile c hc
        · cases h
      by_cases hslash : s.head? = some '/'
      · obtain ⟨s, rfl⟩ := List.head?_eq_some_iff.mp hslash
        simp only [List.head?_cons, beq_self_eq_true, if_true, List.tail_cons] at h
        cases s with
        | nil => cases h
        | cons d body =>
            exact hname ['/'] rfl (by simp; rfl) (by simp [startsDigitTag, startsDigit]) h
      · rw [if_neg (by simpa using hslash)] at h
        cases s with
        | nil => cases h
        | cons d body =>
            refine hname [] rfl (by simp) ?_ h
            rw [startsDigitTag, if_neg (by simpa using hslash)]
            rfl
  · cases h

theorem digitTagAt?_eq_none {b : Option Char} {s : Text}
    (h : digitTagAt? ⟨b, '<' :: s⟩ = none) : startsDigitTag s = false := by
  unfold digitTagAt? at h
  unfold startsDigitTag startsDigit
  by_cases hslash : s.head? = some '/'
  · simp only [hslash, beq_self_eq_true, if_true] at h ⊢
    cases hs : s.tail with
    | nil => rfl
    | cons d body => simpa [hs] using h
  · simp only [beq_iff_eq, hslash, if_false] at h ⊢
    cases hs : s with
    | nil => rfl
    | cons d body => simpa [hs] using h

/-- Inside a tag nothing is picked, and the tag goes on as far as it looks like
one. -/
theorem text_inTag {x : Text} (hx : ∀ c ∈ x, isTagBody c = true) (s : Text) :
    digitTag.text true (x ++ s) = x ++ digitTag.text true s ∧
      digitTag.fixes true (x ++ s) = digitTag.fixes true s := by
  induction x with
  | nil => exact ⟨rfl, rfl⟩
  | cons c x ih =>
      obtain ⟨htext, hfixes⟩ := ih fun d hd => hx d (List.mem_cons_of_mem c hd)
      have hpick : digitTag.picks true c (x ++ s) = false := by simp [digitTag]
      have hnext : digitTag.next true c (x ++ s) = true := by
        simp [digitTag, hx c List.mem_cons_self]
      rw [List.cons_append, text_of_not_picks hpick, fixes, hpick, hnext, htext, hfixes]
      exact ⟨rfl, Nat.zero_add _⟩

/-- The scan goes on in a tag only where the tag has just ended. -/
def TagInv (inTag : Bool) (p : Place) : Prop :=
  inTag = true → ∀ c ∈ p.after.head?, isTagBody c = false

theorem follows_digitTag :
    digitTag.Follows digitTagAt? escapedLess.expand TagInv where
  miss := by
    intro inTag b c s hinv h
    have htag : c = '<' → startsDigitTag s = false := by
      intro heq
      subst heq
      exact digitTagAt?_eq_none h
    have hlast : (inTag && isTagBody c) = false := by
      cases inTag with
      | false => rfl
      | true => exact hinv rfl c rfl
    have hopen : (c == '<' && startsDigitTag s) = false := by
      by_cases hc : c = '<'
      · rw [htag hc, Bool.and_false]
      · simp [hc]
    constructor
    · simp only [digitTag]
      rw [Bool.and_right_comm, hopen, Bool.false_and]
    · have hnext : digitTag.next inTag c s = false := by
        simp only [digitTag, hopen, hlast, Bool.or_self]
      rw [hnext]
      exact fun hfalse => absurd hfalse (by decide)
  hit := by
    intro inTag b t σ n hinv h
    obtain ⟨x, s, rfl, htag, hx, hs, rfl⟩ := digitTagAt?_eq_some h
    obtain rfl : inTag = false := by
      cases inTag with
      | false => rfl
      | true => exact absurd (hinv rfl '<' rfl) (by decide)
    have hpick : digitTag.picks false '<' (x ++ s) = true := by simp [digitTag, htag]
    have hnext : digitTag.next false '<' (x ++ s) = true := by simp [digitTag, htag]
    obtain ⟨htext, hfixes⟩ := text_inTag hx s
    rw [← hnext] at htext hfixes
    obtain ⟨h1, h2, h3⟩ := hit_less n hpick htext hfixes
    rw [hnext] at h1 h2
    exact ⟨'<' :: x, s, true, rfl, rfl, by simp, h1, h2, h3, fun _ => hs⟩

/-! ## The rules -/

theorem covers_lessBefore {recognize : Place → Option Sighting}
    (h : ∀ b t σ, recognize ⟨b, t⟩ = some σ →
      ∃ x s, t = '<' :: (x ++ s) ∧ σ = lessBefore x) : Pattern.Covers recognize := by
  intro p σ hσ
  obtain ⟨b, t⟩ := p
  obtain ⟨x, s, rfl, rfl⟩ := h b t σ hσ
  simp only [lessBefore, List.length_cons, List.length_append]
  omega

theorem covers_greaterDigit : Pattern.Covers greaterDigitAt? := by
  intro p σ hσ
  obtain ⟨b, t⟩ := p
  obtain ⟨guard, t, rfl, hafter, -⟩ := greaterDigitAt?_eq_some hσ
  obtain ⟨digit, u, rfl, hspaced, rfl⟩ := greaterAfter?_eq_some hafter
  obtain ⟨spaces, d, s, rfl, rfl, -, -⟩ := spacedDigit?_eq_some hspaced
  simp only [List.length_cons, List.length_append]
  omega

theorem runs_of_follows {σ : Type} {e : Escaper σ} {recognize : Place → Option Sighting}
    {inv : σ → Place → Prop} {template : Template}
    (h : e.Follows recognize template.expand inv) (hcov : Pattern.Covers recognize)
    {start : σ} (hstart : ∀ t, inv start (.start t)) {r : Rule} {source : String}
    (hpattern : r.pattern = .direct source [] recognize)
    (hreplacement : r.replacement = .template template) (hscope : r.scope = .prose) :
    e.Runs start r := by
  intro t
  have hscan := h.scan hcov source t (n := 0) (hstart t)
  simp only [] at hscan
  have hstart : (Pattern.direct source [] recognize).scan t =
      (Pattern.direct source [] recognize).scanFrom 0 ⟨none, t⟩ false := rfl
  rw [Rule.pass_all hscope (f := template.expand) (fun m => by rw [hreplacement]; rfl), hpattern,
    hstart, hscan.1, hscan.2]

theorem runs_lessDigit : lessDigit.Runs () Builtin.lessDigit :=
  runs_of_follows follows_lessDigit
    (covers_lessBefore fun b t σ h => by
      obtain ⟨d, s, rfl, -, rfl⟩ := lessDigitAt?_eq_some h
      exact ⟨[d], s, rfl, rfl⟩)
    (fun _ => trivial) rfl rfl rfl

theorem runs_lessSpaceDigit : lessSpaceDigit.Runs () Builtin.lessSpaceDigit :=
  runs_of_follows follows_lessSpaceDigit
    (covers_lessBefore fun b t σ h => by
      obtain ⟨n, d, s, rfl, -, rfl⟩ := lessSpaceDigitAt?_eq_some h
      exact ⟨_, s, rfl, rfl⟩)
    (fun _ => trivial) rfl rfl rfl

theorem greaterInv_start (t : Text) : GreaterInv false (.start t) :=
  ⟨rfl, fun h => absurd rfl h⟩

theorem runs_greaterDigit : greaterDigit.Runs false Builtin.greaterDigit :=
  runs_of_follows follows_greaterDigit covers_greaterDigit greaterInv_start rfl rfl rfl

theorem runs_digitTag : digitTag.Runs false Builtin.digitTag :=
  runs_of_follows follows_digitTag
    (covers_lessBefore fun b t σ h => by
      obtain ⟨x, s, rfl, -, -, -, rfl⟩ := digitTagAt?_eq_some h
      exact ⟨x, s, rfl, rfl⟩)
    (fun _ h => absurd h (by decide)) rfl rfl rfl

end Escaper

end MdxMend
