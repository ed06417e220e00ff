import MdxMend.Repair
import MdxMend.Proofs.Spans
import Mathlib.Data.List.Forall2

/-!
# How a repair carries a property

A repair folds rules over a text and, in its second phase, over one stretch of prose
after the other, with one tally that goes through all of them. What is to be said of a
repair is therefore shown of a rule and carried through. There are two shapes of it.

`Stepwise` is for a relation between a text and what becomes of it. `Abreast` is for two
runs side by side, of other rules or on other texts, that are to keep the same counts.

Neither looks at the log, and no rule does. Without the log the second phase has no
short cut, since a document that is cut into spans for no rule at all comes out as it
was (`repairProse_abreast`).
-/

namespace MdxMend

open Text

/-! ## Rules look at the text alone -/

theorem Rule.apply_text (r : Rule) {p q : Progress} (h : p.text = q.text) :
    (r.apply p).text = (r.apply q).text := by
  unfold Rule.apply
  rw [h]
  cases r.pass q.text with
  | error e => rfl
  | ok found =>
      cases found with
      | none => exact h
      | some new => rfl

/-- What rules make of a text does not depend on what was counted before. -/
theorem applyRules_text (rules : List Rule) {p q : Progress} (h : p.text = q.text) :
    (applyRules rules p).text = (applyRules rules q).text := by
  induction rules generalizing p q with
  | nil => exact h
  | cons r rules ih => exact ih (r.apply_text h)

/-- The number of fixes that a pass of the rule makes. -/
def Rule.fixes (r : Rule) (t : Text) : Nat :=
  match r.pass t with
  | .ok (some new) => new.fixes
  | _ => 0

theorem Rule.apply_tally (r : Rule) (p : Progress) :
    (r.apply p).tally = p.tally.record r.name (r.fixes p.text) := by
  unfold Rule.apply Rule.fixes
  cases r.pass p.text with
  | error e => rfl
  | ok found =>
      cases found with
      | none => rfl
      | some new => rfl

theorem repairSpans_nil (tally : Tally) (log : Log) (spans : List Span) :
    repairSpans [] tally log spans = ⟨reassemble spans, tally, log⟩ := by
  induction spans generalizing tally log with
  | nil => rfl
  | cons span spans ih => cases span <;> simp [repairSpans, applyRules, ih, Span.content]

theorem mem_activeRules_of_mem_fenceRules {o : Options} {r : Rule} (h : r ∈ o.fenceRules) :
    r ∈ o.activeRules := List.mem_of_mem_filter h

theorem mem_activeRules_of_mem_proseRules {o : Options} {r : Rule} (h : r ∈ o.proseRules) :
    r ∈ o.activeRules := List.mem_of_mem_filter h

namespace Progress

/-! ## From before to behind -/

/-- A relation that holds of a repair if it holds of each rule. -/
structure Stepwise (R : Progress → Progress → Prop) : Prop where
  refl : ∀ p, R p p
  trans : ∀ {p q r}, R p q → R q r → R p r
  append : ∀ {t u : Text} {tally : Tally} {log : Log} {p q : Progress}, R ⟨t, tally, log⟩ p →
    R ⟨u, p.tally, p.log⟩ q → R ⟨t ++ u, tally, log⟩ ⟨p.text ++ q.text, q.tally, q.log⟩
  log : ∀ {t : Text} {tally : Tally} {log log' : Log} {q : Progress}, R ⟨t, tally, log⟩ q →
    R ⟨t, tally, log'⟩ q

namespace Stepwise

variable {R : Progress → Progress → Prop} (h : Stepwise R)

include h

theorem applyRules {rules : List Rule} (hrules : ∀ r ∈ rules, ∀ p, R p (r.apply p))
    (p : Progress) : R p (applyRules rules p) := by
  induction rules generalizing p with
  | nil => exact h.refl p
  | cons r rules ih =>
      exact h.trans (hrules r List.mem_cons_self p)
        (ih (fun s hs => hrules s (List.mem_cons_of_mem r hs)) (r.apply p))

theorem repairSpans {rules : List Rule} (hrules : ∀ r ∈ rules, ∀ p, R p (r.apply p))
    (tally : Tally) (log : Log) (spans : List Span) :
    R ⟨reassemble spans, tally, log⟩ (repairSpans rules tally log spans) := by
  induction spans generalizing tally log with
  | nil => exact h.refl _
  | cons span spans ih =>
      rw [reassemble_cons]
      cases span with
      | code t => exact h.append (h.refl ⟨t, tally, log⟩) (ih tally log)
      | prose t => exact h.append (h.applyRules hrules ⟨t, tally, log⟩) (ih _ _)

theorem repairProse {o : Options} (hrules : ∀ r ∈ o.proseRules, ∀ p, R p (r.apply p))
    (p : Progress) : R p (repairProse o p) := by
  unfold MdxMend.repairProse
  split
  · exact h.refl p
  · split
    · have hspans := h.repairSpans hrules p.tally (p.log ++ [segmented p.text (segment p.text)])
        (segment p.text)
      rw [reassemble_segment] at hspans
      exact h.log hspans
    · exact h.applyRules hrules p

theorem repair {o : Options} (hrules : ∀ r ∈ o.activeRules, ∀ p, R p (r.apply p)) (t : Text) :
    R { text := t } (MdxMend.repairProse o (repairFences o t)) :=
  h.trans (h.applyRules (fun r hr => hrules r (mem_activeRules_of_mem_fenceRules hr)) _)
    (h.repairProse (fun r hr => hrules r (mem_activeRules_of_mem_proseRules hr)) _)

end Stepwise

/-- What is said of tallies alone goes from one to the next. -/
theorem stepwise_tally (P : Tally → Prop) : Stepwise fun p q => P p.tally → P q.tally where
  refl := fun _ h => h
  trans := fun h h' hp => h' (h hp)
  append := fun h h' hp => h' (h hp)
  log := fun h => h

/-! ## Two runs side by side -/

/-- Related texts with the same counts. -/
structure Abreast (T : Text → Text → Prop) (p q : Progress) : Prop where
  text : T p.text q.text
  tally_eq : p.tally = q.tally

end Progress

/-- Two spans of one kind with related contents. -/
inductive Span.Like (T : Text → Text → Prop) : Span → Span → Prop where
  | prose {t u : Text} (h : T t u) : Span.Like T (.prose t) (.prose u)
  | code {t u : Text} (h : T t u) : Span.Like T (.code t) (.code u)

/-- A relation between texts that are cut alike and may be put together piece by piece. -/
structure Piecewise (T : Text → Text → Prop) : Prop where
  nil : T [] []
  append : ∀ {t u t' u' : Text}, T t u → T t' u' → T (t ++ t') (u ++ u')
  segment : ∀ {t u : Text}, T t u → List.Forall₂ (Span.Like T) (segment t) (segment u)

theorem piecewise_eq : Piecewise Eq where
  nil := rfl
  append := congrArg₂ (· ++ ·)
  segment := by
    intro t u htu
    rw [htu]
    refine List.forall₂_same.mpr fun span _ => ?_
    cases span with
    | prose t => exact .prose rfl
    | code t => exact .code rfl

/-- Two lists of rules that keep texts related and count the same. -/
def KeepAbreast (T : Text → Text → Prop) (rs ss : List Rule) : Prop :=
  ∀ p q : Progress, p.Abreast T q → (applyRules rs p).Abreast T (applyRules ss q)

theorem keepAbreast_of_rules {T : Text → Text → Prop} {rules : List Rule}
    (h : ∀ r ∈ rules, ∀ p q : Progress, p.Abreast T q → (r.apply p).Abreast T (r.apply q)) :
    KeepAbreast T rules rules := by
  induction rules with
  | nil => exact fun p q hpq => hpq
  | cons r rules ih =>
      intro p q hpq
      exact ih (fun s hs => h s (List.mem_cons_of_mem r hs)) _ _ (h r List.mem_cons_self p q hpq)

theorem KeepAbreast.repairSpans {T : Text → Text → Prop} (hT : Piecewise T) {rs ss : List Rule}
    (h : KeepAbreast T rs ss) {xs ys : List Span} (hspans : List.Forall₂ (Span.Like T) xs ys)
    (tally : Tally) (log log' : Log) :
    (repairSpans rs tally log xs).Abreast T (repairSpans ss tally log' ys) := by
  induction hspans generalizing tally log log' with
  | nil => exact ⟨hT.nil, rfl⟩
  | cons hspan _ ih =>
      cases hspan with
      | @code t u htu =>
          have hrest := ih tally log log'
          exact ⟨hT.append htu hrest.text, hrest.tally_eq⟩
      | @prose t u htu =>
          have hhere := h ⟨t, tally, log⟩ ⟨u, tally, log'⟩ ⟨htu, rfl⟩
          have hrest := ih (applyRules rs ⟨t, tally, log⟩).tally
            (applyRules rs ⟨t, tally, log⟩).log (applyRules ss ⟨u, tally, log'⟩).log
          simp only [MdxMend.repairSpans]
          rw [← hhere.tally_eq]
          exact ⟨hT.append hhere.text hrest.text, hrest.tally_eq⟩

theorem keepAbreast_eq (rules : List Rule) : KeepAbreast Eq rules rules := by
  refine keepAbreast_of_rules fun r _ p q hpq => ⟨r.apply_text hpq.text, ?_⟩
  rw [r.apply_tally, r.apply_tally, hpq.text, hpq.tally_eq]

/-- The second phase without its short cut. -/
theorem repairProse_abreast (o : Options) (p : Progress) :
    (repairProse o p).Abreast Eq
      (if o.keepCode then repairSpans o.proseRules p.tally p.log (segment p.text)
        else applyRules o.proseRules p) := by
  unfold repairProse
  split
  · next hempty =>
      rw [List.isEmpty_iff.mp hempty, repairSpans_nil, reassemble_segment]
      split <;> exact ⟨rfl, rfl⟩
  · split
    · exact (keepAbreast_eq _).repairSpans piecewise_eq (piecewise_eq.segment rfl) _ _ _
    · exact ⟨rfl, rfl⟩

theorem KeepAbreast.repairProse {T : Text → Text → Prop} (hT : Piecewise T) {o o' : Options}
    (h : KeepAbreast T o.proseRules o'.proseRules) (hkeep : o.keepCode = o'.keepCode)
    {p q : Progress} (hpq : p.Abreast T q) : (repairProse o p).Abreast T (repairProse o' q) := by
  have hleft := repairProse_abreast o p
  have hright := repairProse_abreast o' q
  have hmiddle : (if o.keepCode then MdxMend.repairSpans o.proseRules p.tally p.log
        (segment p.text) else applyRules o.proseRules p).Abreast T
      (if o.keepCode then MdxMend.repairSpans o'.proseRules q.tally q.log (segment q.text)
        else applyRules o'.proseRules q) := by
    split
    · rw [← hpq.tally_eq]
      exact h.repairSpans hT (hT.segment hpq.text) _ _ _
    · exact h p q hpq
  rw [← hkeep] at hright
  constructor
  · rw [hleft.text, hright.text]
    exact hmiddle.text
  · rw [hleft.tally_eq, hright.tally_eq]
    exact hmiddle.tally_eq

end MdxMend
