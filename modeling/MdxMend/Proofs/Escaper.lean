import MdxMend.Proofs.Escaping
import MdxMend.Proofs.Matches

/-!
# Escaping in one reading

A pass over prose finds matches, skips what lies between them and writes each
match anew. What it comes to is simpler: it reads the text once, keeps a little
state, and decides at each character, from the state and from what follows,
whether to write the character or its reference. An `Escaper` is such a reader.

Two passes one after the other are again one reading (`text_andThen`), judged on
the text that the first of them was given. This is because a reader of angle brackets
does not see the difference between a text and an escaped form of it: what it
looks for behind a bracket is never a bracket. `Steady` says so.
-/

namespace MdxMend

open Text

/-- A reader that escapes some characters: which ones, and how its state goes on
behind a character. Both may look at the text that follows. -/
structure Escaper (σ : Type) where
  picks : σ → Char → Text → Bool
  next : σ → Char → Text → σ

namespace Escaper

variable {σ τ : Type}

/-- The text with the picked characters escaped. -/
def text (e : Escaper σ) : σ → Text → Text
  | _, [] => []
  | st, c :: s =>
    (if e.picks st c s then (reference? c).getD [c] else [c]) ++ text e (e.next st c s) s

/-- The number of picked characters. -/
def fixes (e : Escaper σ) : σ → Text → Nat
  | _, [] => 0
  | st, c :: s => (if e.picks st c s then 1 else 0) + fixes e (e.next st c s) s

/-- The state behind `x`, where `s` follows it. -/
def walk (e : Escaper σ) : σ → Text → Text → σ
  | st, [], _ => st
  | st, c :: x, s => walk e (e.next st c (x ++ s)) x s

theorem walk_append (e : Escaper σ) (st : σ) (x y s : Text) :
    e.walk st (x ++ y) s = e.walk (e.walk st x (y ++ s)) y s := by
  induction x generalizing st with
  | nil => rfl
  | cons c x ih =>
      rw [List.cons_append, walk, walk, ih, List.append_assoc]

/-- Only brackets are picked, and what follows is judged alike once it is
escaped. -/
structure Steady (e : Escaper σ) : Prop where
  isSome : ∀ {st c s}, e.picks st c s = true → (reference? c).isSome = true
  picks_eq : ∀ {s u}, Escaped s u → ∀ st c, e.picks st c u = e.picks st c s
  next_eq : ∀ {s u}, Escaped s u → ∀ st c, e.next st c u = e.next st c s

theorem text_of_not_picks {e : Escaper σ} {st : σ} {c : Char} {s : Text}
    (h : e.picks st c s = false) : e.text st (c :: s) = c :: e.text (e.next st c s) s := by
  rw [text, h]
  rfl

theorem text_of_picks {e : Escaper σ} {st : σ} {c : Char} {s r : Text}
    (h : e.picks st c s = true) (hr : reference? c = some r) :
    e.text st (c :: s) = r ++ e.text (e.next st c s) s := by
  rw [text, h, hr]
  rfl

/-- What a reader writes is an escaped form of what it reads. -/
theorem escaped_text (e : Escaper σ) (st : σ) (t : Text) : Escaped t (e.text st t) := by
  induction t generalizing st with
  | nil => exact .nil
  | cons c t ih =>
      cases h : e.picks st c t with
      | false =>
          rw [text_of_not_picks h]
          exact .keep c (ih _)
      | true =>
          cases hr : reference? c with
          | none =>
              rw [text, h, hr]
              exact .keep c (ih _)
          | some r =>
              rw [text_of_picks h hr]
              exact .swap hr (ih _)

/-- Each picked character makes the text longer by three. -/
theorem length_text {e : Escaper σ} (he : e.Steady) (st : σ) (t : Text) :
    (e.text st t).length = t.length + 3 * e.fixes st t := by
  induction t generalizing st with
  | nil => rfl
  | cons c t ih =>
      have hrec := ih (e.next st c t)
      cases h : e.picks st c t with
      | false =>
          rw [text_of_not_picks h, fixes, h, if_neg (by simp), List.length_cons, List.length_cons]
          omega
      | true =>
          obtain ⟨r, hr⟩ := Option.isSome_iff_exists.mp (he.isSome h)
          have hlen : r.length = 4 := by
            rcases reference?_cases hr with ⟨-, rfl⟩ | ⟨-, rfl⟩ <;> rfl
          rw [text_of_picks h hr, fixes, h, if_pos rfl, List.length_append, List.length_cons]
          omega

theorem fixes_eq_zero_iff {e : Escaper σ} (he : e.Steady) (st : σ) (t : Text) :
    e.fixes st t = 0 ↔ e.text st t = t := by
  have hlen := length_text he st t
  constructor
  · intro h
    exact (escaped_text e st t).eq_of_length_le (by omega)
  · intro h
    rw [h] at hlen
    omega

theorem not_picks_of_plain {e : Escaper σ} (he : e.Steady) {c : Char}
    (hc : reference? c = none) (st : σ) (s : Text) : e.picks st c s = false := by
  cases h : e.picks st c s with
  | false => rfl
  | true =>
      have := he.isSome h
      rw [hc] at this
      exact absurd this (by decide)

/-- Characters without a reference are copied. -/
theorem text_plain {e : Escaper σ} (he : e.Steady) {x : Text}
    (hx : ∀ c ∈ x, reference? c = none) (st : σ) (s : Text) :
    e.text st (x ++ s) = x ++ e.text (e.walk st x s) s ∧
      e.fixes st (x ++ s) = e.fixes (e.walk st x s) s := by
  induction x generalizing st with
  | nil => exact ⟨rfl, rfl⟩
  | cons c x ih =>
      have hc := not_picks_of_plain he (hx c List.mem_cons_self) st (x ++ s)
      obtain ⟨htext, hfixes⟩ := ih (fun d hd => hx d (List.mem_cons_of_mem c hd))
        (e.next st c (x ++ s))
      rw [List.cons_append, text_of_not_picks hc, htext, fixes, hc, hfixes, walk]
      exact ⟨rfl, Nat.zero_add _⟩

theorem Steady.walk_eq {e : Escaper σ} (he : e.Steady) {s u : Text} (h : Escaped s u)
    (st : σ) (x : Text) : e.walk st x u = e.walk st x s := by
  induction x generalizing st with
  | nil => rfl
  | cons c x ih => rw [walk, walk, he.next_eq ((Escaped.refl x).append h), ih]

/-! ## Two readers, one after the other -/

/-- One reading for two: the second reader walks over what the first one
writes. -/
def andThen (e : Escaper σ) (f : Escaper τ) : Escaper (σ × τ) where
  picks st c s := e.picks st.1 c s || f.picks st.2 c s
  next st c s :=
    (e.next st.1 c s,
      if e.picks st.1 c s then f.walk st.2 ((reference? c).getD [c]) s else f.next st.2 c s)

theorem text_andThen {e : Escaper σ} {f : Escaper τ} (he : e.Steady) (hf : f.Steady)
    (a : σ) (b : τ) (t : Text) : f.text b (e.text a t) = (e.andThen f).text (a, b) t := by
  induction t generalizing a b with
  | nil => rfl
  | cons c t ih =>
      have hesc := escaped_text e (e.next a c t) t
      cases hpe : e.picks a c t with
      | true =>
          obtain ⟨r, hr⟩ := Option.isSome_iff_exists.mp (he.isSome hpe)
          have hpick : (e.andThen f).picks (a, b) c t = true := by simp [andThen, hpe]
          have hnext : (e.andThen f).next (a, b) c t = (e.next a c t, f.walk b r t) := by
            simp [andThen, hpe, hr]
          rw [text_of_picks hpe hr, text_of_picks hpick hr, hnext, ← ih,
            (text_plain hf (reference?_of_mem hr) b _).1, hf.walk_eq hesc]
      | false =>
          have hnext : (e.andThen f).next (a, b) c t = (e.next a c t, f.next b c t) := by
            simp [andThen, hpe]
          rw [text_of_not_picks hpe, text, hf.picks_eq hesc, hf.next_eq hesc, ih, text, hnext]
          simp only [andThen, hpe, Bool.false_or]

theorem Steady.andThen {e : Escaper σ} {f : Escaper τ} (he : e.Steady) (hf : f.Steady) :
    (e.andThen f).Steady where
  isSome := by
    intro st c s h
    rcases Bool.or_eq_true_iff.mp h with h | h
    · exact he.isSome h
    · exact hf.isSome h
  picks_eq := by
    intro s u h st c
    simp only [Escaper.andThen, he.picks_eq h, hf.picks_eq h]
  next_eq := by
    intro s u h st c
    simp only [Escaper.andThen, he.picks_eq h, he.next_eq h, hf.next_eq h, hf.walk_eq h]

/-! ## Readers and scans -/

/-- The reader writes what the matches of `recognize` are renewed to. `inv` tells
in which states it may be where the scan goes on. -/
structure Follows (e : Escaper σ) (recognize : Place → Option Sighting) (f : Match → Text)
    (inv : σ → Place → Prop) : Prop where
  miss : ∀ {st b c s}, inv st ⟨b, c :: s⟩ → recognize ⟨b, c :: s⟩ = none →
    e.picks st c s = false ∧ inv (e.next st c s) ⟨some c, s⟩
  hit : ∀ {st b t σ} (n : Nat), inv st ⟨b, t⟩ → recognize ⟨b, t⟩ = some σ →
    ∃ x s st', t = x ++ s ∧ x.length = σ.length ∧ x ≠ [] ∧
      e.text st t = f ⟨n, x, σ.groups, []⟩ ++ e.text st' s ∧ e.fixes st t = e.fixes st' s + 1 ∧
      f ⟨n, x, σ.groups, []⟩ ≠ x ∧ inv st' ⟨x.getLast?.or b, s⟩

theorem Follows.scan {e : Escaper σ} {recognize : Place → Option Sighting} {f : Match → Text}
    {inv : σ → Place → Prop} (h : e.Follows recognize f inv)
    (hcov : Pattern.Covers recognize) (source : String) (t : Text) :
    ∀ {n st b}, inv st ⟨b, t⟩ →
      let scan := (Pattern.direct source [] recognize).scanFrom n ⟨b, t⟩ false
      scan.rewritten f = e.text st t ∧ scan.changes f = e.fixes st t := by
  induction hlen : t.length using Nat.strongRecOn generalizing t with
  | ind k ih =>
      intro n st b hinv
      subst hlen
      simp only []
      cases hrec : recognize ⟨b, t⟩ with
      | some sighting =>
          obtain ⟨x, s, st', rfl, hx, hne, htext, hfixes, hnew, hinv'⟩ := h.hit n hinv hrec
          have hpos : x.length ≠ 0 := fun h0 => hne (List.eq_nil_of_length_eq_zero h0)
          have hplace : (⟨b, x ++ s⟩ : Place).advance sighting.length =
              ⟨x.getLast?.or b, s⟩ := by
            simp [Place.advance, ← hx]
          have hrest := ih s.length (by rw [List.length_append]; omega) s rfl hinv'
            (n := n + byteLength x)
          simp only [] at hrest
          rw [Pattern.scanFrom_hit hcov n hrec, hplace]
          simp only [Scan.rewritten_add, Scan.changes_add, hrest, htext, hfixes, ← hx,
            List.take_left', List.nil_append, ne_eq, hnew, not_false_eq_true, if_true, and_self]
      | none =>
          cases t with
          | nil =>
              rw [Pattern.scanFrom_nil hcov]
              exact ⟨rfl, rfl⟩
          | cons c s =>
              obtain ⟨hpick, hinv'⟩ := h.miss hinv hrec
              have hrest := ih s.length (by rw [List.length_cons]; omega) s rfl hinv'
                (n := n + c.utf8Size)
              simp only [] at hrest
              rw [Pattern.scanFrom_miss hcov n hrec, Scan.rewritten_push, Scan.changes_push,
                hrest.1, hrest.2, text_of_not_picks hpick, fixes, hpick]
              exact ⟨rfl, (Nat.zero_add _).symm⟩

/-- The rule does what the reader does. -/
def Runs (e : Escaper σ) (start : σ) (r : Rule) : Prop :=
  ∀ t, r.pass t =
    .ok (if e.fixes start t = 0 then none else some ⟨e.text start t, e.fixes start t⟩)

theorem Runs.apply {e : Escaper σ} (he : e.Steady) {start : σ} {r : Rule} (h : e.Runs start r)
    (p : Progress) :
    r.apply p =
      ⟨e.text start p.text, p.tally.record r.name (e.fixes start p.text), p.log⟩ := by
  unfold Rule.apply
  rw [h p.text]
  by_cases h0 : e.fixes start p.text = 0
  · rw [if_pos h0, h0, (fixes_eq_zero_iff he _ _).mp h0]
    rfl
  · rw [if_neg h0]

end Escaper

end MdxMend
