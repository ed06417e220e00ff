import MdxMend.Proofs.Counting
import MdxMend.Proofs.Passes

/-!
# Rules that fail

A rule that fails on a text leaves nothing behind but a line in the log, and no rule
reads the log. So the run with the rule and the run without it stay abreast, whatever
rules come behind it (`applyRules_skip`).

For a rule that always fails there is one more thing to see. If it is the only active
rule on prose, the document is cut into spans for its sake, and without it the document
is not looked at. That both come to the same is `KeepAbreast.repairProse`.

A rule may also fail in one stretch of prose and not in the next. The last part of the
theorem is about that: each stretch goes its own way.
-/

namespace MdxMend

open Text

theorem applyRules_append (rs ss : List Rule) (p : Progress) :
    applyRules (rs ++ ss) p = applyRules ss (applyRules rs p) := List.foldl_append

theorem applyRules_skip {f : Rule} (pre post : List Rule) {p : Progress}
    (h : (f.apply (applyRules pre p)).Abreast Eq (applyRules pre p)) :
    (applyRules (pre ++ f :: post) p).Abreast Eq (applyRules (pre ++ post) p) := by
  rw [applyRules_append, applyRules_append]
  exact keepAbreast_eq post _ _ h

theorem Rule.FailsOn.abreast {f : Rule} {p : Progress} (h : f.FailsOn p.text) :
    (f.apply p).Abreast Eq p := by
  obtain ⟨e, he⟩ := Rule.apply_of_failsOn h
  rw [he]
  exact ⟨rfl, rfl⟩

theorem Rule.FailsOn.fixes_eq {f : Rule} {t : Text} (h : f.FailsOn t) : f.fixes t = 0 := by
  obtain ⟨e, he⟩ := Rule.pass_of_failsOn h
  rw [Rule.fixes, he]

theorem Rule.fixes_of_not_failsOn {f : Rule} {t : Text} (h : ¬ f.FailsOn t) :
    f.fixes t = f.changes t := by
  rw [Rule.fixes, Rule.pass_of_not_failsOn h]
  by_cases h0 : f.changes t = 0
  · rw [if_pos h0, h0]
  · rw [if_neg h0]

/-! ## Rules that always fail -/

/-- The replacement has a text for no match that the rule may ever change. -/
def Rule.Broken (f : Rule) : Prop :=
  ∀ t, ∀ x ∈ f.hits t, x.2 = true → ∃ e, f.replacement.render x.1.found = .error e

theorem Rule.Broken.abreast {f : Rule} (hf : f.Broken) (p : Progress) :
    (f.apply p).Abreast Eq p := by
  by_cases hfails : f.FailsOn p.text
  · exact hfails.abreast
  · -- A broken rule that does not fail has no match that it may change.
    have hkept : ∀ x ∈ f.hits p.text,
        renewed f.replacement.renderOrKeep x = x.1.found.text := by
      intro x hx
      exact if_neg fun hacc => hfails ⟨x, hx, hacc, hf p.text x hx hacc⟩
    rw [Rule.apply_of_not_failsOn hfails, Rule.rewritten_eq hkept, Rule.changes_eq_zero.mpr hkept]
    exact ⟨rfl, rfl⟩

/-- A broken rule makes no difference, and neither does it where rules are selected,
whether it is selected or not. -/
theorem Rule.Broken.keepAbreast {f : Rule} (hf : f.Broken) (pre post : List Rule)
    (keep : Rule → Bool) :
    KeepAbreast Eq ((pre ++ f :: post).filter keep) ((pre ++ post).filter keep) := by
  intro p q hpq
  rw [List.filter_append, List.filter_append, List.filter_cons]
  split
  · have hskip := applyRules_skip (pre.filter keep) (post.filter keep) (hf.abreast _) (p := p)
    have hrest := keepAbreast_eq (pre.filter keep ++ post.filter keep) p q hpq
    exact ⟨hskip.text.trans hrest.text, hskip.tally_eq.trans hrest.tally_eq⟩
  · exact keepAbreast_eq _ p q hpq

/-! ## Stretches of prose -/

theorem fixesOf_append (name : String) (rs ss : List Rule) (t : Text) :
    fixesOf name (rs ++ ss) t =
      fixesOf name rs t + fixesOf name ss (applyRules rs { text := t }).text := by
  induction rs generalizing t with
  | nil => exact (Nat.zero_add _).symm
  | cons r rs ih =>
      have htext : (applyRules rs { text := (r.apply { text := t }).text }).text =
          (applyRules (r :: rs) { text := t }).text := applyRules_text rs rfl
      rw [List.cons_append, fixesOf, ih, htext, fixesOf, Nat.add_assoc]

section Stretch

variable (pre post : List Rule) {f : Rule} {u : Text}

/-- A stretch of prose where a rule fails, behind the rules before it. -/
theorem stretch_of_failsOn (h : f.FailsOn (applyRules pre { text := u }).text) :
    (applyRules (pre ++ f :: post) { text := u }).text =
        (applyRules (pre ++ post) { text := u }).text ∧
      ∀ name, fixesOf name (pre ++ f :: post) u = fixesOf name (pre ++ post) u := by
  refine ⟨(applyRules_skip pre post h.abreast).text, fun name => ?_⟩
  have hkept := (Rule.FailsOn.abreast (p := { text := (applyRules pre { text := u }).text }) h).text
  rw [fixesOf_append, fixesOf, h.fixes_eq, hkept, ite_self, Nat.zero_add, fixesOf_append]

/-- A stretch of prose where it does not. -/
theorem stretch_of_not_failsOn (h : ¬ f.FailsOn (applyRules pre { text := u }).text) :
    let v := (applyRules pre { text := u }).text
    (applyRules (pre ++ f :: post) { text := u }).text =
        (applyRules post { text := f.rewritten v }).text ∧
      ∀ name, fixesOf name (pre ++ f :: post) u =
        fixesOf name pre u + ((if name = f.name then f.changes v else 0) +
          fixesOf name post (f.rewritten v)) := by
  intro v
  refine ⟨?_, fun name => ?_⟩
  · rw [applyRules_append]
    refine applyRules_text post ?_
    rw [Rule.apply_of_not_failsOn h]
  · rw [fixesOf_append, fixesOf, Rule.fixes_of_not_failsOn h,
      Rule.apply_of_not_failsOn (p := { text := v }) h]

end Stretch

/-- A rule that fails is as good as absent where it fails, and nowhere else: in a text
that goes through rules; in a whole repair, if it always fails; and in each stretch of
prose of a document by itself. -/
theorem failing_rule_skipped (pre post : List Rule) (f : Rule) :
    (∀ p : Progress, f.FailsOn (applyRules pre p).text →
      (applyRules (pre ++ f :: post) p).text = (applyRules (pre ++ post) p).text ∧
        (applyRules (pre ++ f :: post) p).tally = (applyRules (pre ++ post) p).tally) ∧
    (∀ (o : Options) (t : Text), o.ruleList = pre ++ post → f.Broken →
      let o' : Options := { o with rules := some (pre ++ f :: post) }
      (repair o' t).text = (repair o t).text ∧ (repair o' t).tally = (repair o t).tally) ∧
    (∀ (o : Options) (t : Text), o.keepCode = true → o.proseRules = pre ++ f :: post →
      let spans := segment (repairFences o t).text
      (repair o t).text = reassemble (spans.map (Span.repaired o.proseRules)) ∧
      (∀ name, (repair o t).tally.count name =
        (repairFences o t).tally.count name + (spans.map (Span.fixes name o.proseRules)).sum) ∧
      ∀ u, Span.prose u ∈ spans →
        let v := (applyRules pre { text := u }).text
        (f.FailsOn v →
          Span.repaired o.proseRules (.prose u) = Span.repaired (pre ++ post) (.prose u) ∧
          ∀ name, Span.fixes name o.proseRules (.prose u) =
            Span.fixes name (pre ++ post) (.prose u)) ∧
        (¬ f.FailsOn v →
          Span.repaired o.proseRules (.prose u) =
            .prose (applyRules post { text := f.rewritten v }).text ∧
          ∀ name, Span.fixes name o.proseRules (.prose u) =
            fixesOf name pre u + ((if name = f.name then f.changes v else 0) +
              fixesOf name post (f.rewritten v)))) := by
  refine ⟨fun p hfails => ?_, fun o t hlist hf => ?_, fun o t hkeep hrules => ?_⟩
  · have hskip := applyRules_skip pre post hfails.abreast
    exact ⟨hskip.text, hskip.tally_eq⟩
  · intro o'
    have hrules : ∀ s : Scope, KeepAbreast Eq (o'.activeRules.filter (·.scope == s))
        (o.activeRules.filter (·.scope == s)) := by
      intro s
      simp only [Options.activeRules, selectRules, List.filter_filter]
      rw [hlist]
      exact hf.keepAbreast pre post _
    have hfences : (repairFences o' t).Abreast Eq (repairFences o t) :=
      hrules .fenceOpening _ _ ⟨rfl, rfl⟩
    have hboth := KeepAbreast.repairProse piecewise_eq (hrules .prose) rfl hfences
    exact ⟨hboth.text, hboth.tally_eq⟩
  · intro spans
    refine ⟨repairProse_text hkeep _,
      (Tally.Sound.repairFences o t).count_repairProse hkeep, fun u _ => ?_⟩
    intro v
    rw [hrules]
    refine ⟨fun hfails => ?_, fun hfails => ?_⟩
    · obtain ⟨htext, hfixes⟩ := stretch_of_failsOn pre post hfails
      exact ⟨congrArg Span.prose htext, hfixes⟩
    · obtain ⟨htext, hfixes⟩ := stretch_of_not_failsOn pre post hfails
      exact ⟨congrArg Span.prose htext, hfixes⟩

/-- A rule that gives up on `<2` does not touch the first stretch of prose, where it had
already replaced `<1`, and is applied in the second. One that always gives up, put in the
middle of the built-in rules, changes nothing. -/
theorem failing_rule_skipped_stretch :
    let f : Rule := { Builtin.lessDigit with
      name := "less-small-digit"
      replacement := .compute fun m =>
        if m.text = "<2".toList then .error ⟨"no twos"⟩ else .ok ("&lt;".toList ++ m.text.drop 1) }
    let g : Rule := { f with replacement := .compute fun _ => .error ⟨"no digits"⟩ }
    let pre := [Builtin.greaterDigit]
    let post := [Builtin.lessSpaceDigit]
    let o : Options := { rules := some (pre ++ f :: post) }
    let t : Text := "<1 <2 >6 \x60x\x60 <3 < 4".toList
    let u : Text := "<1 <2 >6 ".toList
    let w : Text := " <3 < 4".toList
    (f.FailsOn (applyRules pre { text := u }).text ∧
      (applyRules (pre ++ f :: post) { text := u }).text =
        (applyRules (pre ++ post) { text := u }).text) ∧
    (g.Broken ∧
      (repair { rules := some (Builtin.rules.take 2 ++ g :: Builtin.rules.drop 2) } t).text =
        (repair {} t).text) ∧
    (segment (repairFences o t).text = [.prose u, .code "\x60x\x60".toList, .prose w] ∧
      ¬ f.FailsOn (applyRules pre { text := w }).text ∧
      Span.repaired o.proseRules (.prose w) =
        .prose (applyRules post { text := f.rewritten (applyRules pre { text := w }).text }).text ∧
      (repair o t).text = "<1 <2 &gt;6 \x60x\x60 &lt;3 &lt; 4".toList ∧
      (repair o t).tally.count "less-small-digit" = 1) := by
  intro f g pre post o t u w
  have hfails : f.FailsOn (applyRules pre { text := u }).text := by decide +kernel
  have hholds : ¬ f.FailsOn (applyRules pre { text := w }).text := by decide +kernel
  have hspans : segment (repairFences o t).text =
      [.prose u, .code "\x60x\x60".toList, .prose w] := by decide +kernel
  have hbroken : g.Broken := fun _ _ _ _ => ⟨_, rfl⟩
  have hlist : ({} : Options).ruleList = Builtin.rules.take 2 ++ Builtin.rules.drop 2 := rfl
  have hstretch := ((failing_rule_skipped pre post f).2.2 o t rfl rfl).2.2 w
    (by rw [hspans]; decide)
  exact ⟨⟨hfails, ((failing_rule_skipped pre post f).1 _ hfails).1⟩,
    ⟨hbroken, ((failing_rule_skipped _ _ g).2.1 {} t hlist hbroken).1⟩,
    hspans, hholds, (hstretch.2 hholds).1, by decide +kernel, by decide +kernel⟩

end MdxMend
