import MdxMend.Proofs.ProseRules
import Mathlib.Data.List.Induction

/-!
# What a second reading of prose finds

Run one after the other, the four rules on prose are one reader (`joint`), and
what it escapes can be told from the text alone. Read again, its output gives it
nothing to do, with one exception. The match of a tag runs on to the next blank or
the next `>` that is left, and over any further tag in between. That tag is not
escaped, and when the output is read again nothing stands in front of it any more.

`Crowded` is that situation, seen in the text before the first reading: two
closing tags with nothing between them that ends the first.
-/

namespace MdxMend

open Text Builtin

/-- A closing tag follows whose name begins with a digit. -/
def startsSlashDigit (s : Text) : Bool := s.head? == some '/' && startsDigit s.tail

theorem startsDigitTag_eq (s : Text) :
    startsDigitTag s = (startsDigit s || startsSlashDigit s) := by
  unfold startsDigitTag startsSlashDigit
  by_cases h : s.head? = some '/'
  · have hdigit : startsDigit s = false := by
      rw [startsDigit, h]
      rfl
    simp [h, hdigit]
  · simp [h]

/-- What the joint reader remembers: whether the last character guards a `>`, and
whether what stands here belongs to a tag that was escaped or would have been. -/
structure Look where
  guarded : Bool := false
  inTag : Bool := false

namespace Escaper

/-- The four rules on prose in one. -/
def joint : Escaper Look where
  picks st c s :=
    c == '<' && (startsDigit s || startsSpaceDigit s || (startsDigitTag s && !st.inTag)) ||
      c == '>' && !st.guarded && (spacedDigit? s).isSome
  next st c s :=
    { guarded := isGuard c
      inTag := (c == '<' && startsSlashDigit s) ||
        (st.inTag && (isTagBody c ||
          (c == '>' && !st.guarded && (spacedDigit? s).isSome))) }

theorem steady_joint : joint.Steady where
  isSome := by
    intro st c s h
    refine isSome_reference? ?_
    simp only [joint, Bool.or_eq_true, Bool.and_eq_true, beq_iff_eq] at h
    rcases h with ⟨hc, -⟩ | ⟨⟨hc, -⟩, -⟩
    · exact .inl hc
    · exact .inr hc
  picks_eq := by
    intro s u h st c
    simp only [joint, h.startsDigit_eq, h.startsSpaceDigit_eq, h.startsDigitTag_eq,
      h.spacedDigit?_eq]
  next_eq := by
    intro s u h st c
    have hslash : startsSlashDigit u = startsSlashDigit s := by
      cases h with
      | nil => rfl
      | keep c h => simp only [startsSlashDigit, List.head?_cons, List.tail_cons, h.startsDigit_eq]
      | swap hr _ => rcases reference?_cases hr with ⟨rfl, rfl⟩ | ⟨rfl, rfl⟩ <;> rfl
    simp only [joint, hslash, h.spacedDigit?_eq]

/-- Readers that pick alike in related states write the same. -/
theorem text_congr {σ τ : Type} {e : Escaper σ} {f : Escaper τ} {R : σ → τ → Prop}
    (hpicks : ∀ {a b}, R a b → ∀ c s, e.picks a c s = f.picks b c s)
    (hnext : ∀ {a b}, R a b → ∀ c s, R (e.next a c s) (f.next b c s))
    {a : σ} {b : τ} (h : R a b) (t : Text) : e.text a t = f.text b t := by
  induction t generalizing a b with
  | nil => rfl
  | cons c t ih => rw [text, text, hpicks h, ih (hnext h c t)]

theorem bracket_cases (c : Char) : c = '<' ∨ c = '>' ∨ (c ≠ '<' ∧ c ≠ '>') := by
  by_cases hl : c = '<'
  · exact .inl hl
  · by_cases hg : c = '>'
    · exact .inr (.inl hg)
    · exact .inr (.inr ⟨hl, hg⟩)

/-- A reference leaves no guard behind it, and a tag goes on over it. -/
theorem walk_reference {r : Text} (hr : r ∈ [['&', 'l', 't', ';'], ['&', 'g', 't', ';']])
    (s : Text) : (∀ g, greaterDigit.walk g r s = false) ∧ ∀ i, digitTag.walk i r s = i := by
  simp only [List.mem_cons, List.not_mem_nil, or_false] at hr
  rcases hr with rfl | rfl <;> refine ⟨fun _ => rfl, fun i => ?_⟩ <;> cases i <;> rfl

theorem of_startsSlashDigit {s : Text} (h : startsSlashDigit s = true) :
    startsDigit s = false ∧ startsSpaceDigit s = false := by
  cases s with
  | nil => exact absurd h (by decide)
  | cons c s =>
      obtain rfl : c = '/' := by
        simp only [startsSlashDigit, List.head?_cons, Bool.and_eq_true, beq_iff_eq,
          Option.some.injEq] at h
        exact h.1
      exact ⟨by simp [startsDigit, isDigit], by simp [startsSpaceDigit]⟩

/-- The four readers one after the other. -/
theorem text_joint (t : Text) :
    digitTag.text false (greaterDigit.text false (lessSpaceDigit.text () (lessDigit.text () t))) =
      joint.text {} t := by
  rw [text_andThen steady_lessDigit steady_lessSpaceDigit,
    text_andThen (steady_lessDigit.andThen steady_lessSpaceDigit) steady_greaterDigit,
    text_andThen ((steady_lessDigit.andThen steady_lessSpaceDigit).andThen steady_greaterDigit)
      steady_digitTag]
  refine text_congr (R := fun a b => a.1.2 = b.guarded ∧ a.2 = b.inTag) ?_ ?_ ⟨rfl, rfl⟩ t
  · rintro ⟨⟨⟨_, _⟩, g⟩, i⟩ ⟨_, _⟩ ⟨rfl, rfl⟩ c s
    simp only [andThen, joint, lessDigit, lessSpaceDigit, greaterDigit, digitTag]
    cases c == '<' <;> cases c == '>' <;> cases startsDigit s <;> cases startsSpaceDigit s <;>
      cases startsDigitTag s <;> cases i <;> simp
  · rintro ⟨⟨⟨_, _⟩, g⟩, i⟩ ⟨_, _⟩ ⟨rfl, rfl⟩ c s
    rcases bracket_cases c with rfl | rfl | ⟨hl, hg⟩
    · obtain ⟨hguard, htag⟩ := walk_reference (r := ['&', 'l', 't', ';']) (by simp) s
      have hl : isGuard '<' = false := by decide
      have hbody : isTagBody '<' = true := by decide
      simp only [andThen, reference?, Option.getD_some, hguard, htag]
      simp only [joint, lessDigit, lessSpaceDigit, greaterDigit, digitTag, startsDigitTag_eq]
      rcases Bool.eq_false_or_eq_true (startsSlashDigit s) with hs | hs
      · obtain ⟨hd, hsd⟩ := of_startsSlashDigit hs
        simp [hs, hd, hsd, hl]
      · by_cases hd : startsDigit s = true <;> by_cases hsd : startsSpaceDigit s = true <;>
          simp [hs, hd, hsd, hl, hbody]
    · obtain ⟨hguard, htag⟩ := walk_reference (r := ['&', 'g', 't', ';']) (by simp) s
      have hg : isGuard '>' = false := by decide
      have hbody : isTagBody '>' = false := by decide
      simp only [andThen, reference?, Option.getD_some, hguard, htag]
      simp only [joint, lessDigit, lessSpaceDigit, greaterDigit, digitTag]
      by_cases hpick : (!g && (spacedDigit? s).isSome) = true <;> simp [hpick, hg, hbody]
    · simp [andThen, joint, lessDigit, lessSpaceDigit, greaterDigit, digitTag, hl, hg,
        beq_eq_false_iff_ne.mpr hl, beq_eq_false_iff_ne.mpr hg]

/-- What the second reading does not pick, because the first one wrote it. -/
theorem joint_reference {c : Char} {r : Text} (hr : reference? c = some r) (g : Bool)
    (s : Text) : joint.fixes ⟨g, false⟩ (r ++ s) = joint.fixes ⟨isGuard c, false⟩ s := by
  rw [(text_plain steady_joint (reference?_of_mem hr) _ s).2]
  rcases reference?_cases hr with ⟨rfl, rfl⟩ | ⟨rfl, rfl⟩ <;> rfl

/-- A second reading finds the closing tags that stand in a tag, and nothing
else. -/
theorem joint_again (g i : Bool) (t : Text) :
    joint.fixes ⟨g, false⟩ (joint.text ⟨g, i⟩ t) = 0 ↔
      ∀ x s, t = x ++ '<' :: s → startsSlashDigit s = true →
        (joint.walk ⟨g, i⟩ x ('<' :: s)).inTag = false := by
  induction t generalizing g i with
  | nil =>
      refine ⟨fun _ x s h => ?_, fun _ => rfl⟩
      simp at h
  | cons c t ih =>
      -- Both readings go on in the same state but for the tag the first one is in.
      have hrest : (∀ x s, c :: t = x ++ '<' :: s → startsSlashDigit s = true →
            (joint.walk ⟨g, i⟩ x ('<' :: s)).inTag = false) ↔
          (c = '<' → startsSlashDigit t = true → i = false) ∧
            ∀ x s, t = x ++ '<' :: s → startsSlashDigit s = true →
              (joint.walk (joint.next ⟨g, i⟩ c t) x ('<' :: s)).inTag = false := by
        constructor
        · intro h
          refine ⟨?_, ?_⟩
          · rintro rfl hs
            exact h [] t rfl hs
          · rintro x s rfl hs
            exact h (c :: x) s rfl hs
        · intro hboth x s hxs hs
          obtain ⟨hhere, hlater⟩ := hboth
          cases x with
          | nil =>
              obtain ⟨rfl, rfl⟩ := List.cons.inj hxs
              exact hhere rfl hs
          | cons d x =>
              obtain ⟨rfl, rfl⟩ := List.cons.inj hxs
              exact hlater x s rfl hs
      rw [hrest]
      have hnext := ih (isGuard c) (joint.next ⟨g, i⟩ c t).inTag
      cases hp : joint.picks ⟨g, i⟩ c t with
      | true =>
          obtain ⟨r, hr⟩ := Option.isSome_iff_exists.mp (steady_joint.isSome hp)
          rw [text_of_picks hp hr, joint_reference hr]
          refine Iff.trans hnext ⟨fun h => ⟨?_, h⟩, fun h => h.2⟩
          rintro rfl hs
          obtain ⟨hd, hsd⟩ := of_startsSlashDigit hs
          simpa [joint, startsDigitTag_eq, hs, hd, hsd] using hp
      | false =>
          have hsecond : joint.picks ⟨g, false⟩ c t = true ↔
              c = '<' ∧ startsSlashDigit t = true ∧ i = true := by
            rcases bracket_cases c with rfl | rfl | ⟨hl, hg⟩
            · simp only [joint, startsDigitTag_eq] at hp ⊢
              cases i <;> simp_all
            · simp_all [joint]
            · simp [joint, hl, hg]
          have hesc := escaped_text joint (joint.next ⟨g, i⟩ c t) t
          rw [text_of_not_picks hp, fixes, steady_joint.picks_eq hesc, steady_joint.next_eq hesc]
          cases hp2 : joint.picks ⟨g, false⟩ c t with
          | true =>
              obtain ⟨rfl, hs, rfl⟩ := hsecond.mp hp2
              simp [hs]
          | false =>
              have hnone : ¬ (c = '<' ∧ startsSlashDigit t = true) := by
                rintro ⟨rfl, hs⟩
                cases i with
                | true => exact absurd (hsecond.mpr ⟨rfl, hs, rfl⟩) (by simp [hp2])
                | false => simp [joint, startsDigitTag_eq, hs] at hp
              have hstate : joint.next ⟨g, false⟩ c t = ⟨isGuard c, false⟩ := by
                by_cases hc : c = '<'
                · have hs : startsSlashDigit t = false := by
                    simpa using fun hs => hnone ⟨hc, hs⟩
                  simp [joint, hs]
                · simp [joint, hc]
              rw [hstate, if_neg (by decide), Nat.zero_add]
              exact Iff.trans hnext
                ⟨fun h => ⟨fun hc hs => absurd ⟨hc, hs⟩ hnone, h⟩, fun h => h.2⟩

end Escaper

/-- A closing tag that begins with a digit stands in the match of one before it:
no blank is between them and no `>` but such as are escaped. -/
def Crowded (t : Text) : Prop :=
  ∃ a b c, t = a ++ '<' :: (b ++ '<' :: c) ∧ startsSlashDigit (b ++ '<' :: c) = true ∧
    startsSlashDigit c = true ∧
    ∀ x e y, b = x ++ e :: y → isTagBody e = true ∨
      e = '>' ∧ (∀ g ∈ ('<' :: x).getLast?, isGuard g = false) ∧
        (spacedDigit? (y ++ '<' :: c)).isSome = true

namespace Escaper

theorem walk_concat {σ : Type} (e : Escaper σ) (st : σ) (x : Text) (c : Char) (s : Text) :
    e.walk st (x ++ [c]) s = e.next (e.walk st x (c :: s)) c s := walk_append e st x [c] s

theorem joint_walk_guarded {st : Look} {x : Text} {c : Char} (hx : x.getLast? = some c)
    (s : Text) : (joint.walk st x s).guarded = isGuard c := by
  obtain ⟨x, rfl⟩ := List.getLast?_eq_some_iff.mp hx
  rw [walk_concat]
  rfl

/-- How the reader comes to be in a tag, and how it stays there. -/
theorem joint_walk_inTag (st : Look) (x : Text) (c : Char) (s : Text) :
    (joint.walk st (x ++ [c]) s).inTag = true ↔
      (c = '<' ∧ startsSlashDigit s = true) ∨
      ((joint.walk st x (c :: s)).inTag = true ∧ (isTagBody c = true ∨
        c = '>' ∧ (joint.walk st x (c :: s)).guarded = false ∧
          (spacedDigit? s).isSome = true)) := by
  rw [walk_concat]
  simp [joint, and_assoc]

/-- Inside a tag is inside the match of a closing tag further in front. -/
theorem joint_inTag_iff {a s : Text} :
    (joint.walk {} a s).inTag = true ↔
      ∃ x b, a = x ++ '<' :: b ∧ startsSlashDigit (b ++ s) = true ∧
        ∀ y e z, b = y ++ e :: z → isTagBody e = true ∨
          e = '>' ∧ (∀ g ∈ ('<' :: y).getLast?, isGuard g = false) ∧
            (spacedDigit? (z ++ s)).isSome = true := by
  induction a using List.reverseRecOn generalizing s with
  | nil =>
      refine ⟨fun h => absurd h (by simp [walk]), ?_⟩
      rintro ⟨x, b, h, -⟩
      simp at h
  | append_singleton a c ih =>
      have hguard : ∀ {x b : Text}, a = x ++ '<' :: b →
          ((joint.walk {} a (c :: s)).guarded = false ↔
            ∀ g ∈ ('<' :: b).getLast?, isGuard g = false) := by
        rintro x b rfl
        obtain ⟨d, hd⟩ := Option.ne_none_iff_exists'.mp
          (List.getLast?_eq_none_iff.not.mpr (List.cons_ne_nil '<' b))
        have hlast : (x ++ '<' :: b).getLast? = some d := by
          rw [List.getLast?_append, hd]
          rfl
        rw [joint_walk_guarded hlast, hd]
        simp
      rw [joint_walk_inTag, ih]
      constructor
      · rintro (⟨rfl, hs⟩ | ⟨⟨x, b, hx, hb, hall⟩, hc⟩)
        · exact ⟨a, [], rfl, hs, fun y e z h => by simp at h⟩
        · refine ⟨x, b ++ [c], by rw [hx, List.append_assoc, List.cons_append],
            by simpa using hb, ?_⟩
          intro y e z h
          rcases List.eq_nil_or_concat z with rfl | ⟨z, d, rfl⟩
          · obtain ⟨rfl, rfl⟩ := List.append_singleton_inj.mp h
            rwa [hguard hx] at hc
          · rw [List.concat_eq_append, ← List.cons_append, ← List.append_assoc] at h
            obtain ⟨rfl, rfl⟩ := List.append_singleton_inj.mp h
            simpa using hall y e z rfl
      · intro h
        obtain ⟨x, b, hx, hb, hall⟩ := h
        rcases List.eq_nil_or_concat b with rfl | ⟨b, d, rfl⟩
        · obtain ⟨rfl, rfl⟩ := List.append_singleton_inj.mp hx
          exact .inl ⟨rfl, hb⟩
        · rw [List.concat_eq_append, ← List.cons_append, ← List.append_assoc] at hx
          obtain ⟨rfl, rfl⟩ := List.append_singleton_inj.mp hx
          refine .inr ⟨⟨x, b, rfl, by simpa using hb, ?_⟩, ?_⟩
          · rintro y e z rfl
            simpa using hall y e (z ++ [c]) (by simp)
          · rw [hguard rfl]
            simpa using hall b c [] (by simp)

/-- The readers' own account of `Crowded`. -/
theorem not_crowded_iff (t : Text) :
    ¬ Crowded t ↔ ∀ x s, t = x ++ '<' :: s → startsSlashDigit s = true →
      (joint.walk {} x ('<' :: s)).inTag = false := by
  constructor
  · intro h x s hxs hs
    rw [← Bool.not_eq_true]
    intro htag
    obtain ⟨a, b, rfl, hb, hall⟩ := joint_inTag_iff.mp htag
    exact h ⟨a, b, s, by rw [hxs, List.append_assoc, List.cons_append], hb, hs, hall⟩
  · rintro h ⟨a, b, c, rfl, hb, hc, hall⟩
    have := h (a ++ '<' :: b) c (by rw [List.append_assoc, List.cons_append]) hc
    rw [← Bool.not_eq_true] at this
    exact this (joint_inTag_iff.mpr ⟨a, b, rfl, hb, hall⟩)

/-- A second reading of prose has nothing to do, unless it is crowded. -/
theorem joint_fixed_iff (t : Text) :
    joint.text {} (joint.text {} t) = joint.text {} t ↔ ¬ Crowded t := by
  rw [← fixes_eq_zero_iff steady_joint, not_crowded_iff]
  exact joint_again false false t

end Escaper

end MdxMend
