import MdxMend.Proofs.ProsePhase
import MdxMend.Proofs.Tallies

/-!
# What the rules on prose escape, judged on the text as it was

Each rule on prose runs on what the one before has left. Still, the four of them
come to one decision for each character of the text, and it can be made by looking
at that text alone. A `Spot` is a character with what stands around it, and the
predicates on spots say when its rule escapes it. For three rules this is what
follows the character and, for `>`, the character in front. The rule on tags is the
exception, since its match covers more than it changes: of the closing tags in one
`Stretch` of text it escapes the first.

The readers decide from a state, so what has to be shown is what the state knows
about the text in front of it. The counts follow from the lengths: every fix
adds three characters, and no character is escaped by two rules.
-/

namespace MdxMend

open Text Builtin

/-- A character of a text, and the text on both sides of it. -/
structure Spot where
  before : Text
  char : Char
  after : Text

/-- The characters of a text in their places, where `before` stands in front of it. -/
def spotsFrom (before : Text) : Text → List Spot
  | [] => []
  | c :: s => ⟨before, c, s⟩ :: spotsFrom (before ++ [c]) s

def spots (t : Text) : List Spot := spotsFrom [] t

/-- The number of characters of a text that the predicate holds of. -/
def countSpots (P : Spot → Prop) [DecidablePred P] (t : Text) : Nat :=
  (spots t).countP fun p => P p

/-- A digit follows behind `n` spaces. -/
def DigitBehind (n : Nat) (s : Text) : Prop :=
  ∃ d rest, s = List.replicate n ' ' ++ d :: rest ∧ isDigit d = true

namespace Spot

/-- `<` directly in front of a digit. -/
def LessDigit (p : Spot) : Prop := p.char = '<' ∧ DigitBehind 0 p.after

/-- `<` in front of one space or more and a digit. -/
def LessSpaceDigit (p : Spot) : Prop := p.char = '<' ∧ ∃ n, 0 < n ∧ DigitBehind n p.after

/-- `>` in front of at most one space and a digit, at the start of the text or behind
a character that does not guard it. -/
def GreaterDigit (p : Spot) : Prop :=
  p.char = '>' ∧ (∀ c ∈ p.before.getLast?, isGuard c = false) ∧
    ∃ n, n ≤ 1 ∧ DigitBehind n p.after

/-- `<` in front of a slash and a digit. -/
def ClosingTag (p : Spot) : Prop :=
  p.char = '<' ∧ ∃ rest, p.after = '/' :: rest ∧ DigitBehind 0 rest

/-- A character that no tag goes on over: a blank, or a `>` that is not escaped. -/
def Break (p : Spot) : Prop :=
  isBlank p.char = true ∨ p.char = '>' ∧ ¬ p.GreaterDigit

end Spot

/-- No character of the piece is a break. -/
def Unbroken (before piece after : Text) : Prop :=
  ∀ x c y, piece = x ++ c :: y → ¬ Spot.Break ⟨before ++ x, c, y ++ after⟩

/-- A piece of a text without a break, as long as it can be. -/
structure Stretch (before piece after : Text) : Prop where
  unbroken : Unbroken before piece after
  front : ∀ x c, before = x ++ [c] → Spot.Break ⟨x, c, piece ++ after⟩
  back : ∀ c y, after = c :: y → Spot.Break ⟨before ++ piece, c, y⟩

/-- A closing tag that is the first one in its stretch. -/
def Spot.FirstClosingTag (p : Spot) : Prop :=
  p.ClosingTag ∧ ∃ a x y b, Stretch a (x ++ p.char :: y) b ∧ p.before = a ++ x ∧
    p.after = y ++ b ∧
    ∀ u c v, x = u ++ c :: v → ¬ Spot.ClosingTag ⟨a ++ u, c, v ++ p.char :: p.after⟩

/-! ## The tests of the readers -/

theorem digitBehind_zero (s : Text) : DigitBehind 0 s ↔ startsDigit s = true := by
  cases s with
  | nil => simp [DigitBehind, startsDigit]
  | cons c s => simp [DigitBehind, startsDigit]

theorem digitBehind_succ (n : Nat) (c : Char) (s : Text) :
    DigitBehind (n + 1) (c :: s) ↔ c = ' ' ∧ DigitBehind n s := by
  constructor
  · rintro ⟨d, rest, heq, hd⟩
    obtain ⟨rfl, rfl⟩ := List.cons.inj heq
    exact ⟨rfl, d, rest, rfl, hd⟩
  · rintro ⟨rfl, d, rest, rfl, hd⟩
    exact ⟨d, rest, rfl, hd⟩

theorem not_digitBehind_nil (n : Nat) : ¬ DigitBehind n [] := by
  simp [DigitBehind]

theorem digitBehind_spaces (s : Text) :
    (∃ n, 0 < n ∧ DigitBehind n s) ↔ startsSpaceDigit s = true := by
  constructor
  · rintro ⟨n, hn, d, rest, rfl, hd⟩
    obtain ⟨k, rfl⟩ : ∃ k, n = k + 1 := ⟨n - 1, by omega⟩
    have hspace : (d :: rest).head? ≠ some ' ' := by
      intro h
      rw [Option.some.inj h] at hd
      exact absurd hd (by decide)
    rw [startsSpaceDigit, dropWhile_run hspace]
    simpa [List.replicate_succ, startsDigit] using hd
  · intro h
    rw [startsSpaceDigit, Bool.and_eq_true, beq_iff_eq, ← digitBehind_zero] at h
    obtain ⟨hspace, d, rest, hrest, hd⟩ := h
    obtain ⟨s, rfl⟩ := List.head?_eq_some_iff.mp hspace
    have hsplit := List.takeWhile_append_dropWhile (p := (· == ' ')) (l := ' ' :: s)
    rw [takeWhile_beq, hrest] at hsplit
    exact ⟨_, by simp, d, rest, hsplit.symm, hd⟩

theorem digitBehind_spaced (s : Text) :
    (∃ n, n ≤ 1 ∧ DigitBehind n s) ↔ (spacedDigit? s).isSome = true := by
  have hcases : (∃ n, n ≤ 1 ∧ DigitBehind n s) ↔ DigitBehind 0 s ∨ DigitBehind 1 s := by
    constructor
    · rintro ⟨n, hn, h⟩
      obtain rfl | rfl : n = 0 ∨ n = 1 := by omega
      · exact .inl h
      · exact .inr h
    · rintro (h | h)
      · exact ⟨0, by omega, h⟩
      · exact ⟨1, by omega, h⟩
  rw [hcases]
  cases s with
  | nil => simp [not_digitBehind_nil, spacedDigit?]
  | cons c s =>
      rw [digitBehind_succ, digitBehind_zero, digitBehind_zero]
      by_cases hc : c = ' '
      · subst hc
        cases s with
        | nil => simp [startsDigit, spacedDigit?, isDigit]
        | cons d s => simp [startsDigit, spacedDigit?, isDigit]
      · by_cases hd : isDigit c = true <;> simp [startsDigit, spacedDigit?, hc, hd]

namespace Spot

variable (p : Spot)

theorem lessDigit_iff : p.LessDigit ↔ p.char = '<' ∧ startsDigit p.after = true := by
  rw [LessDigit, digitBehind_zero]

theorem lessSpaceDigit_iff :
    p.LessSpaceDigit ↔ p.char = '<' ∧ startsSpaceDigit p.after = true := by
  rw [LessSpaceDigit, digitBehind_spaces]

theorem greaterDigit_iff :
    p.GreaterDigit ↔ p.char = '>' ∧ p.before.getLast?.all (fun c => !isGuard c) = true ∧
      (spacedDigit? p.after).isSome = true := by
  rw [GreaterDigit, digitBehind_spaced]
  cases p.before.getLast? <;> simp

theorem closingTag_iff : p.ClosingTag ↔ p.char = '<' ∧ startsSlashDigit p.after = true := by
  rw [ClosingTag, startsSlashDigit]
  refine and_congr Iff.rfl ?_
  cases p.after with
  | nil => simp
  | cons c s =>
      simp only [List.cons.injEq, List.head?_cons, List.tail_cons, Bool.and_eq_true, beq_iff_eq,
        Option.some.injEq, ← digitBehind_zero]
      constructor
      · rintro ⟨rest, ⟨rfl, rfl⟩, h⟩
        exact ⟨rfl, h⟩
      · rintro ⟨rfl, h⟩
        exact ⟨s, ⟨rfl, rfl⟩, h⟩

instance : Decidable p.LessDigit := decidable_of_iff _ p.lessDigit_iff.symm

instance : Decidable p.LessSpaceDigit := decidable_of_iff _ p.lessSpaceDigit_iff.symm

instance : Decidable p.GreaterDigit := decidable_of_iff _ p.greaterDigit_iff.symm

instance : Decidable p.ClosingTag := decidable_of_iff _ p.closingTag_iff.symm

end Spot

/-! ## Stretches -/

theorem unbroken_singleton (before : Text) (c : Char) (after : Text) :
    Unbroken before [c] after ↔ ¬ Spot.Break ⟨before, c, after⟩ := by
  constructor
  · intro h
    simpa using h [] c [] rfl
  · intro h x d y heq
    obtain ⟨rfl, rfl, rfl⟩ : x = [] ∧ c = d ∧ y = [] := by
      cases x <;> simp_all
    simpa using h

theorem unbroken_append (before x y after : Text) :
    Unbroken before (x ++ y) after ↔
      Unbroken before x (y ++ after) ∧ Unbroken (before ++ x) y after := by
  constructor
  · intro h
    refine ⟨?_, ?_⟩
    · rintro u c v rfl
      have := h u c (v ++ y) (by simp)
      rwa [List.append_assoc] at this
    · rintro u c v rfl
      have := h (x ++ u) c v (by simp)
      rwa [← List.append_assoc] at this
  · rintro ⟨hx, hy⟩ u c v heq
    rcases List.append_eq_append_iff.mp heq with ⟨z, rfl, rfl⟩ | ⟨z, rfl, hz⟩
    · have := hy z c v rfl
      rwa [List.append_assoc] at this
    · cases z with
      | nil =>
          simpa using hy [] c v hz.symm
      | cons d z =>
          obtain ⟨rfl, rfl⟩ := List.cons.inj hz
          have := hx u c z rfl
          rwa [← List.append_assoc] at this

theorem Spot.not_break_iff (p : Spot) : ¬ p.Break ↔ isTagBody p.char = true ∨ p.GreaterDigit := by
  by_cases hc : p.char = '>'
  · have hbody : isTagBody '>' = false := by decide
    have hblank : isBlank '>' = false := by decide
    simp [Break, hbody, hblank, hc]
  · have hgreater : ¬ p.GreaterDigit := fun h => hc h.1
    simp [Break, isTagBody, hc, hgreater]

theorem Spot.not_break_of_less {p : Spot} (h : p.char = '<') : ¬ p.Break := by
  rw [not_break_iff, h]
  exact .inl (by decide)

/-- A piece reaches to a break in front of it or to the start of the text. -/
theorem Unbroken.exists_front {before piece after : Text} (h : Unbroken before piece after) :
    ∃ a x, before = a ++ x ∧ Unbroken a (x ++ piece) after ∧
      ∀ z c, a = z ++ [c] → Spot.Break ⟨z, c, x ++ piece ++ after⟩ := by
  induction before using List.reverseRecOn generalizing piece with
  | nil => exact ⟨[], [], rfl, h, fun z c hz => by simp at hz⟩
  | append_singleton before c ih =>
      by_cases hbreak : Spot.Break ⟨before, c, piece ++ after⟩
      · refine ⟨before ++ [c], [], by simp, h, fun z d hz => ?_⟩
        obtain ⟨rfl, hd⟩ := List.append_singleton_inj.mp hz
        exact hd ▸ hbreak
      · have hlonger : Unbroken before ([c] ++ piece) after :=
          (unbroken_append before [c] piece after).mpr
            ⟨(unbroken_singleton before c _).mpr hbreak, h⟩
        obtain ⟨a, x, rfl, hx, hfront⟩ := ih hlonger
        refine ⟨a, x ++ [c], (List.append_assoc ..), ?_, ?_⟩
        · rwa [List.append_assoc]
        · rwa [List.append_assoc x]

/-- A piece reaches to a break behind it or to the end of the text. -/
theorem Unbroken.exists_back {before piece after : Text} (h : Unbroken before piece after) :
    ∃ y b, after = y ++ b ∧ Unbroken before (piece ++ y) b ∧
      ∀ c z, b = c :: z → Spot.Break ⟨before ++ (piece ++ y), c, z⟩ := by
  induction after generalizing piece with
  | nil => exact ⟨[], [], rfl, by rwa [List.append_nil], fun c z hz => by simp at hz⟩
  | cons c after ih =>
      by_cases hbreak : Spot.Break ⟨before ++ piece, c, after⟩
      · refine ⟨[], c :: after, rfl, by rwa [List.append_nil], fun d z hz => ?_⟩
        obtain ⟨rfl, rfl⟩ := List.cons.inj hz
        rwa [List.append_nil]
      · have hlonger : Unbroken before (piece ++ [c]) after :=
          (unbroken_append before piece [c] after).mpr
            ⟨h, (unbroken_singleton _ c after).mpr hbreak⟩
        obtain ⟨y, b, rfl, hy, hback⟩ := ih hlonger
        rw [List.append_assoc] at hy hback
        exact ⟨c :: y, b, rfl, hy, hback⟩

theorem exists_stretch {p : Spot} (h : ¬ p.Break) :
    ∃ a x y b, Stretch a (x ++ p.char :: y) b ∧ p.before = a ++ x ∧ p.after = y ++ b := by
  obtain ⟨y, b, hafter, hy, hback⟩ :=
    ((unbroken_singleton p.before p.char p.after).mpr h).exists_back
  obtain ⟨a, x, hbefore, hx, hfront⟩ := hy.exists_front
  refine ⟨a, x, y, b, ⟨hx, hfront, ?_⟩, hbefore, hafter⟩
  intro c z hz
  have := hback c z hz
  rwa [hbefore, List.append_assoc] at this

/-! ## What the joint reader knows -/

theorem joint_guarded (x s : Text) :
    (Escaper.joint.walk {} x s).guarded = x.getLast?.any isGuard := by
  cases hx : x.getLast? with
  | none =>
      rw [List.getLast?_eq_none_iff.mp hx]
      rfl
  | some c => exact Escaper.joint_walk_guarded hx s

/-- The reader is in a tag where a closing tag stands in front with no break behind
it. -/
theorem joint_inTag_spot {a s : Text} :
    (Escaper.joint.walk {} a s).inTag = true ↔
      ∃ x b, a = x ++ '<' :: b ∧ Spot.ClosingTag ⟨x, '<', b ++ s⟩ ∧
        Unbroken x ('<' :: b) s := by
  rw [Escaper.joint_inTag_iff]
  refine exists_congr fun x => exists_congr fun b => and_congr Iff.rfl (and_congr ?_ ?_)
  · rw [Spot.closingTag_iff]
    exact (and_iff_right rfl).symm
  · rw [← List.singleton_append, unbroken_append, unbroken_singleton,
      and_iff_right (Spot.not_break_of_less rfl)]
    refine forall_congr' fun y => forall_congr' fun e => forall_congr' fun z =>
      imp_congr Iff.rfl ?_
    rw [Spot.not_break_iff, Spot.GreaterDigit, digitBehind_spaced]
    have hlast : (x ++ ['<'] ++ y).getLast? = ('<' :: y).getLast? := by
      rw [List.append_assoc, List.singleton_append, List.getLast?_append]
      cases h : ('<' :: y).getLast? with
      | none => simp at h
      | some c => rfl
    simp only [hlast]

/-- The first closing tag of a stretch is one that the reader meets outside a tag. -/
theorem Spot.firstClosingTag_iff (p : Spot) :
    p.FirstClosingTag ↔
      p.ClosingTag ∧ (Escaper.joint.walk {} p.before (p.char :: p.after)).inTag = false := by
  rw [FirstClosingTag, ← Bool.not_eq_true, joint_inTag_spot]
  refine and_congr_right fun hclosing => ?_
  constructor
  · rintro ⟨a, x, y, b, hstretch, hbefore, hafter, hfirst⟩ ⟨x', b', hsplit, htag, hopen⟩
    rw [hbefore] at hsplit
    -- The closing tag in front stands in the stretch, where this one is the first, or in
    -- front of the break before the stretch, which it would have to go on over.
    rcases List.append_eq_append_iff.mp hsplit with ⟨u, rfl, rfl⟩ | ⟨u, rfl, hu⟩
    · exact hfirst u '<' b' rfl htag
    · rcases List.eq_nil_or_concat u with rfl | ⟨u, c, rfl⟩
      · refine hfirst [] '<' b' hu.symm ?_
        rwa [List.append_nil, List.append_nil]
      · rw [List.concat_eq_append] at hu hstretch
        rw [hu, unbroken_append, unbroken_append, unbroken_singleton] at hopen
        refine hopen.1.2 ?_
        have := hstretch.front (x' ++ u) c (List.append_assoc ..).symm
        rwa [hafter, List.append_assoc, List.cons_append] at *
  · intro hnone
    obtain ⟨a, x, y, b, hstretch, hbefore, hafter⟩ :=
      exists_stretch (not_break_of_less hclosing.1)
    refine ⟨a, x, y, b, hstretch, hbefore, hafter, ?_⟩
    rintro u c v rfl htag
    obtain rfl : c = '<' := htag.1
    refine hnone ⟨a ++ u, v, by rw [hbefore, List.append_assoc], htag, ?_⟩
    have hopen := hstretch.unbroken
    rw [List.append_assoc, unbroken_append, unbroken_append] at hopen
    rw [hafter]
    exact hopen.2.1

instance (p : Spot) : Decidable p.FirstClosingTag := decidable_of_iff _ p.firstClosingTag_iff.symm

/-! ## Readers at spots -/

namespace Escaper

variable {σ τ : Type}

/-- What a reader writes and counts, where its state always leads to the same decision
as a predicate on spots. -/
theorem read_spotsFrom {e : Escaper σ} {b : σ} {P : Spot → Prop} [DecidablePred P]
    (h : ∀ p : Spot, e.picks (e.walk b p.before (p.char :: p.after)) p.char p.after =
      decide (P p)) (x s : Text) :
    e.text (e.walk b x s) s = (spotsFrom x s).flatMap (fun p =>
        if P p then (reference? p.char).getD [p.char] else [p.char]) ∧
      e.fixes (e.walk b x s) s = (spotsFrom x s).countP fun p => P p := by
  induction s generalizing x with
  | nil => exact ⟨rfl, rfl⟩
  | cons c s ih =>
      have hpicks := h ⟨x, c, s⟩
      obtain ⟨htext, hfixes⟩ := ih (x ++ [c])
      rw [walk_concat] at htext hfixes
      simp only [] at hpicks
      rw [text, fixes, spotsFrom, List.flatMap_cons, List.countP_cons, hpicks, htext, hfixes]
      by_cases hp : P ⟨x, c, s⟩
      · simp [hp, Nat.add_comm]
      · simp [hp]

/-- A reader that goes on behind a reference as behind its character does not notice
what another reader has escaped, as long as they do not pick the same. -/
theorem fixes_text {e : Escaper σ} {f : Escaper τ} (he : e.Steady) (hf : f.Steady)
    (hnext : ∀ {c r}, reference? c = some r → ∀ b s, f.walk b r s = f.next b c s)
    (hpicks : ∀ {a c s}, e.picks a c s = true → ∀ b, f.picks b c s = false)
    (a : σ) (b : τ) (t : Text) : f.fixes b (e.text a t) = f.fixes b t := by
  induction t generalizing a b with
  | nil => rfl
  | cons c t ih =>
      have hesc := escaped_text e (e.next a c t) t
      cases h : e.picks a c t with
      | true =>
          obtain ⟨r, hr⟩ := Option.isSome_iff_exists.mp (he.isSome h)
          rw [text_of_picks h hr, (text_plain hf (reference?_of_mem hr) b _).2, hf.walk_eq hesc,
            hnext hr, ih, fixes, hpicks h b]
          exact (Nat.zero_add _).symm
      | false =>
          rw [text_of_not_picks h, fixes, hf.picks_eq hesc, hf.next_eq hesc, ih, fixes]

theorem fixes_lessDigit (t : Text) :
    lessDigit.fixes () t = countSpots Spot.LessDigit t := by
  refine (read_spotsFrom (b := ()) (P := Spot.LessDigit) (fun p => ?_) [] t).2
  rw [Bool.eq_iff_iff]
  simp [lessDigit, Spot.lessDigit_iff]

theorem fixes_lessSpaceDigit (t : Text) :
    lessSpaceDigit.fixes () t = countSpots Spot.LessSpaceDigit t := by
  refine (read_spotsFrom (b := ()) (P := Spot.LessSpaceDigit) (fun p => ?_) [] t).2
  rw [Bool.eq_iff_iff]
  simp [lessSpaceDigit, Spot.lessSpaceDigit_iff]

theorem greaterDigit_guarded (x s : Text) :
    greaterDigit.walk false x s = x.getLast?.any isGuard := by
  cases h : x.getLast? with
  | none =>
      rw [List.getLast?_eq_none_iff.mp h]
      rfl
  | some c => exact walk_greaterDigit false h s

theorem greaterDigit_picks_spot (p : Spot) :
    greaterDigit.picks (greaterDigit.walk false p.before (p.char :: p.after)) p.char p.after =
      decide p.GreaterDigit := by
  rw [greaterDigit_guarded, Bool.eq_iff_iff, decide_eq_true_eq, Spot.greaterDigit_iff]
  cases p.before.getLast? <;> simp [greaterDigit, and_assoc]

theorem fixes_greaterDigit (t : Text) :
    greaterDigit.fixes false t = countSpots Spot.GreaterDigit t :=
  (read_spotsFrom greaterDigit_picks_spot [] t).2

theorem joint_picks_spot (p : Spot) :
    joint.picks (joint.walk {} p.before (p.char :: p.after)) p.char p.after =
      decide ((p.LessDigit ∨ p.LessSpaceDigit ∨ p.FirstClosingTag) ∨ p.GreaterDigit) := by
  have hguarded := joint_guarded p.before (p.char :: p.after)
  rw [Bool.eq_iff_iff, decide_eq_true_eq, Spot.lessDigit_iff, Spot.lessSpaceDigit_iff,
    Spot.firstClosingTag_iff, Spot.closingTag_iff, Spot.greaterDigit_iff]
  generalize joint.walk {} p.before (p.char :: p.after) = st at hguarded
  obtain ⟨guarded, inTag⟩ := st
  simp only [] at hguarded
  rw [hguarded]
  have hnot : p.before.getLast?.all (fun c => !isGuard c) = !p.before.getLast?.any isGuard := by
    cases p.before.getLast? <;> rfl
  rw [hnot]
  simp only [joint, startsDigitTag_eq]
  cases startsDigit p.after <;> cases startsSpaceDigit p.after <;>
    cases startsSlashDigit p.after <;> cases inTag <;> simp [and_assoc]

end Escaper

theorem countP_or {P Q : Spot → Prop} [DecidablePred P] [DecidablePred Q]
    (h : ∀ p, P p → ¬ Q p) (ps : List Spot) :
    ps.countP (fun p => P p ∨ Q p) = ps.countP (fun p => P p) + ps.countP fun p => Q p := by
  induction ps with
  | nil => rfl
  | cons p ps ih =>
      simp only [List.countP_cons, ih]
      have := h p
      by_cases hP : P p <;> by_cases hQ : Q p <;> simp_all <;> omega

/-- No character is escaped by two rules. -/
theorem countP_escaped (ps : List Spot) :
    ps.countP (fun p => (p.LessDigit ∨ p.LessSpaceDigit ∨ p.FirstClosingTag) ∨ p.GreaterDigit) =
      ps.countP (fun p => p.LessDigit) + (ps.countP (fun p => p.LessSpaceDigit) +
        ps.countP fun p => p.FirstClosingTag) + ps.countP fun p => p.GreaterDigit := by
  have hless : ∀ {p : Spot}, p.char = '<' → ¬ p.GreaterDigit := by
    intro p h h'
    exact absurd (h.symm.trans h'.1) (by decide)
  rw [countP_or, countP_or, countP_or]
  · rintro p ⟨-, h⟩ ⟨⟨-, rest, hafter, -⟩, -⟩
    rw [digitBehind_spaces, hafter] at h
    exact absurd h (by simp [startsSpaceDigit])
  · rintro p ⟨-, h⟩ (⟨-, h'⟩ | ⟨⟨-, rest, hafter, -⟩, -⟩)
    · rw [digitBehind_zero] at h
      obtain ⟨n, hn, d, rest, hafter, -⟩ := h'
      obtain ⟨k, rfl⟩ : ∃ k, n = k + 1 := ⟨n - 1, by omega⟩
      rw [hafter, List.replicate_succ] at h
      exact absurd h (by simp [startsDigit, isDigit])
    · rw [digitBehind_zero, hafter] at h
      exact absurd h (by simp [startsDigit, isDigit])
  · rintro p (h | h | h)
    · exact hless h.1
    · exact hless h.1
    · exact hless h.1.1

/-! ## The rules -/

/-- What the four rules make of a character. -/
def Spot.written (p : Spot) : Text :=
  if p.LessDigit ∨ p.LessSpaceDigit ∨ p.FirstClosingTag then ['&', 'l', 't', ';']
  else if p.GreaterDigit then ['&', 'g', 't', ';']
  else [p.char]

theorem Spot.written_eq (p : Spot) :
    p.written =
      if (p.LessDigit ∨ p.LessSpaceDigit ∨ p.FirstClosingTag) ∨ p.GreaterDigit then
        (reference? p.char).getD [p.char]
      else [p.char] := by
  unfold written
  by_cases hless : p.LessDigit ∨ p.LessSpaceDigit ∨ p.FirstClosingTag
  · have hc : p.char = '<' := by
      rcases hless with h | h | h
      · exact h.1
      · exact h.1
      · exact h.1.1
    rw [if_pos hless, if_pos (.inl hless), hc]
    rfl
  · by_cases hgreater : p.GreaterDigit
    · rw [if_neg hless, if_pos hgreater, if_pos (.inr hgreater), hgreater.1]
      rfl
    · rw [if_neg hless, if_neg hgreater, if_neg (not_or.mpr ⟨hless, hgreater⟩)]

namespace Escaper

theorem joint_spots (t : Text) :
    joint.text {} t = (spots t).flatMap Spot.written ∧
      joint.fixes {} t =
        countSpots Spot.LessDigit t +
          (countSpots Spot.LessSpaceDigit t + countSpots Spot.FirstClosingTag t) +
          countSpots Spot.GreaterDigit t := by
  obtain ⟨htext, hfixes⟩ := read_spotsFrom (b := ({} : Look)) joint_picks_spot [] t
  refine ⟨htext.trans ?_, hfixes.trans (countP_escaped _)⟩
  exact congrArg (spotsFrom [] t).flatMap (funext fun p => p.written_eq.symm)

/-- Each rule counts on what the rules before it have left what there was to count in
the text. -/
theorem fixes_in_turn (t : Text) :
    lessSpaceDigit.fixes () (lessDigit.text () t) = countSpots Spot.LessSpaceDigit t ∧
      greaterDigit.fixes false (lessSpaceDigit.text () (lessDigit.text () t)) =
        countSpots Spot.GreaterDigit t ∧
      digitTag.fixes false
          (greaterDigit.text false (lessSpaceDigit.text () (lessDigit.text () t))) =
        countSpots Spot.FirstClosingTag t := by
  have hspace : lessSpaceDigit.fixes () (lessDigit.text () t) =
      countSpots Spot.LessSpaceDigit t := by
    rw [fixes_text steady_lessDigit steady_lessSpaceDigit (fun _ _ _ => rfl),
      fixes_lessSpaceDigit]
    intro _ c s h _
    cases s with
    | nil => simp [lessSpaceDigit, startsSpaceDigit]
    | cons d s =>
        have hd : isDigit d = true := by
          simp only [lessDigit, Bool.and_eq_true] at h
          exact h.2
        have hne : d ≠ ' ' := by
          rintro rfl
          exact absurd hd (by decide)
        simp [lessSpaceDigit, startsSpaceDigit, hne]
  have hgreater : greaterDigit.fixes false (lessSpaceDigit.text () (lessDigit.text () t)) =
      countSpots Spot.GreaterDigit t := by
    have hnext : ∀ {c r}, reference? c = some r → ∀ g s,
        greaterDigit.walk g r s = greaterDigit.next g c s := by
      intro c r hr g s
      rcases reference?_cases hr with ⟨rfl, rfl⟩ | ⟨rfl, rfl⟩ <;> rfl
    have hpicks : ∀ {c : Char} {s : Text}, c = '<' → ∀ g, greaterDigit.picks g c s = false := by
      rintro c s rfl g
      rfl
    rw [fixes_text steady_lessSpaceDigit steady_greaterDigit hnext
        (fun h => hpicks (by simp_all [lessSpaceDigit])),
      fixes_text steady_lessDigit steady_greaterDigit hnext
        (fun h => hpicks (by simp_all [lessDigit])), fixes_greaterDigit]
  refine ⟨hspace, hgreater, ?_⟩
  -- The last count is what the lengths leave for it.
  have hall := congrArg List.length (text_joint t)
  rw [length_text steady_digitTag, length_text steady_greaterDigit,
    length_text steady_lessSpaceDigit, length_text steady_lessDigit, length_text steady_joint,
    hspace, hgreater, fixes_lessDigit, (joint_spots t).2] at hall
  omega

end Escaper

theorem applyRules_spots (t : Text) (tally : Tally) (log : Log) :
    applyRules Builtin.proseRules ⟨t, tally, log⟩ =
      ⟨(spots t).flatMap Spot.written,
        (((tally.record Builtin.lessDigit.name (countSpots Spot.LessDigit t)).record
            Builtin.lessSpaceDigit.name (countSpots Spot.LessSpaceDigit t)).record
            Builtin.greaterDigit.name (countSpots Spot.GreaterDigit t)).record
          Builtin.digitTag.name (countSpots Spot.FirstClosingTag t), log⟩ := by
  obtain ⟨hspace, hgreater, htag⟩ := Escaper.fixes_in_turn t
  rw [Builtin.proseRules_eq]
  simp only [applyRules, List.foldl_cons, List.foldl_nil,
    Escaper.runs_lessDigit.apply Escaper.steady_lessDigit,
    Escaper.runs_lessSpaceDigit.apply Escaper.steady_lessSpaceDigit,
    Escaper.runs_greaterDigit.apply Escaper.steady_greaterDigit,
    Escaper.runs_digitTag.apply Escaper.steady_digitTag, Escaper.text_joint,
    (Escaper.joint_spots t).1, Escaper.fixes_lessDigit, hspace, hgreater, htag]

/-- The four rules on prose, run one after the other, escape the characters that their
predicates hold of in the text as it was, and copy all others; and each counts the
characters that its own predicate holds of. -/
theorem applyRules_proseRules (t : Text) (tally : Tally) (log : Log) :
    (applyRules Builtin.proseRules ⟨t, tally, log⟩).text = (spots t).flatMap Spot.written ∧
      let found := (applyRules Builtin.proseRules ⟨t, {}, log⟩).tally
      found.count Builtin.lessDigit.name = countSpots Spot.LessDigit t ∧
        found.count Builtin.lessSpaceDigit.name = countSpots Spot.LessSpaceDigit t ∧
        found.count Builtin.greaterDigit.name = countSpots Spot.GreaterDigit t ∧
        found.count Builtin.digitTag.name = countSpots Spot.FirstClosingTag t := by
  have h₁ := Tally.sound_empty.record Builtin.lessDigit.name (countSpots Spot.LessDigit t)
  have h₂ := h₁.record Builtin.lessSpaceDigit.name (countSpots Spot.LessSpaceDigit t)
  have h₃ := h₂.record Builtin.greaterDigit.name (countSpots Spot.GreaterDigit t)
  have hnone : ∀ name, Tally.count {} name = 0 := fun _ => rfl
  simp only [applyRules_spots, h₃.count_record, h₂.count_record, h₁.count_record,
    Tally.sound_empty.count_record, hnone, true_and]
  simp [Builtin.lessDigit, Builtin.lessSpaceDigit, Builtin.greaterDigit, Builtin.digitTag]

example : (spots "</1</2>".toList).flatMap Spot.written = "&lt;/1</2>".toList := by
  decide +kernel

end MdxMend
