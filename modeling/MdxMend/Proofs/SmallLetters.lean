import MdxMend.Proofs.Tags

/-!
# Lower case is settled

No small letter of the case table is one of its capitals. So a character that lower case has
written stays when a text is written in lower case again: the second time changes nothing.

Blanks and dots have no case. The table neither names one as a capital nor as a small letter, so
lower case takes none away and brings none in, and where a text has blanks or dots its lower-case
form has them too.

The facts about the table are closed and are checked by evaluation. Of two runs nearly always one
lies behind the other; only where they overlap is it gone through letter by letter.
-/

namespace MdxMend.Text

namespace CaseRun

/-- How far the capitals of the run lie behind its first one. -/
def offsets (r : CaseRun) : List Nat :=
  (List.range (r.last - r.first + 1)).filter (· % r.step == 0)

/-- Whether no small letter of `r` is a capital of `q`. -/
def avoids (r q : CaseRun) : Bool :=
  Nat.blt q.last r.image || (Nat.blt (r.last - r.first + r.image) q.first ||
    r.offsets.all fun k => (q.small? (k + r.image)).isNone)

variable {r q : CaseRun} {n m : Nat}

theorem small?_eq_some (h : r.small? n = some m) :
    ∃ k ∈ r.offsets, k + r.first = n ∧ k + r.image = m := by
  unfold small? at h
  split at h
  · next hn =>
      simp only [Bool.and_eq_true, decide_eq_true_eq] at hn
      refine ⟨n - r.first, ?_, by omega, Option.some.inj h⟩
      rw [offsets, List.mem_filter, List.mem_range]
      exact ⟨by omega, hn.2⟩
  · cases h

theorem small?_eq_none (h : n < q.first ∨ q.last < n) : q.small? n = none := by
  unfold small?
  rw [if_neg]
  simp only [Bool.and_eq_true, decide_eq_true_eq]
  omega

theorem small?_of_avoids (h : r.avoids q = true) (hn : r.small? n = some m) :
    q.small? m = none := by
  obtain ⟨k, hk, -, rfl⟩ := small?_eq_some hn
  have hlast : k < r.last - r.first + 1 :=
    List.mem_range.mp (List.mem_of_mem_filter hk)
  simp only [avoids, Bool.or_eq_true, Nat.blt_eq, List.all_eq_true, Option.isNone_iff_eq_none] at h
  rcases h with h | h | h
  · exact small?_eq_none (.inr (by omega))
  · exact small?_eq_none (.inl (by omega))
  · exact h k hk

end CaseRun

open CaseRun

theorem runs_avoid : (lowercaseRuns.all fun r => lowercaseRuns.all r.avoids) = true := by
  decide +kernel

/-! ## Letters -/

theorem small?_ascii (c : Char) :
    small? ⟨0x41, 0x5a, 1, 0x61⟩ c.toNat =
      if 'A' ≤ c && c ≤ 'Z' then some (c.toNat + 32) else none := by
  have hrange : ('A' ≤ c && c ≤ 'Z') = (0x41 ≤ c.toNat && c.toNat ≤ 0x5a) := by
    simp [Char.le_def, UInt32.le_iff_toNat_le]
  rw [hrange, small?, Nat.mod_one, beq_self_eq_true, Bool.and_true]
  split
  · next hc =>
      simp only [Bool.and_eq_true, decide_eq_true_eq] at hc
      rw [Option.some_inj]
      show c.toNat - 0x41 + 0x61 = _
      omega
  · rfl

theorem smallLetter_eq_self {c : Char} (h : ∀ r ∈ lowercaseRuns, r.small? c.toNat = none) :
    smallLetter c = c := by
  unfold smallLetter
  split
  · have hnone := h _ List.mem_cons_self
    rw [small?_ascii] at hnone
    split at hnone
    · cases hnone
    · next hc => rw [if_neg hc]
  · rw [List.findSome?_eq_none_iff.mpr h]
    rfl

theorem toNat_image : ∀ r ∈ lowercaseRuns, ∀ k ∈ r.offsets,
    (Char.ofNat (k + r.image)).toNat = k + r.image := by
  decide +kernel

theorem smallLetter_cases (c : Char) :
    smallLetter c = c ∨ ∃ r ∈ lowercaseRuns, r.small? c.toNat = some (smallLetter c).toNat := by
  have hrun : ∀ r ∈ lowercaseRuns, ∀ m, r.small? c.toNat = some m →
      r.small? c.toNat = some (Char.ofNat m).toNat := by
    intro r hr m hm
    obtain ⟨k, hk, -, rfl⟩ := small?_eq_some hm
    rw [hm, toNat_image r hr k hk]
  unfold smallLetter
  split
  · split
    · next hc =>
        refine .inr ⟨_, List.mem_cons_self, hrun _ List.mem_cons_self _ ?_⟩
        rw [small?_ascii, if_pos hc]
    · exact .inl rfl
  · cases hfind : lowercaseRuns.findSome? (·.small? c.toNat) with
    | none => exact .inl rfl
    | some m =>
        obtain ⟨r, hr, hm⟩ := List.exists_of_findSome?_eq_some hfind
        exact .inr ⟨r, hr, hrun r hr m hm⟩

/-- A small letter has no other small letter. -/
theorem smallLetter_smallLetter (c : Char) : smallLetter (smallLetter c) = smallLetter c := by
  rcases smallLetter_cases c with h | ⟨r, hr, hsmall⟩
  · rw [h, h]
  · refine smallLetter_eq_self fun q hq => ?_
    have havoids := List.all_eq_true.mp (List.all_eq_true.mp runs_avoid r hr) q hq
    exact small?_of_avoids havoids hsmall

/-! ## Characters without case -/

/-- Where the blanks, the dot and the dotted capital I are. -/
def markRanges : List (Nat × Nat) := [
  (0x9, 0xd), (0x20, 0x20), (0x2e, 0x2e), (0x85, 0x85), (0xa0, 0xa0), (0x130, 0x130),
  (0x1680, 0x1680), (0x2000, 0x200a), (0x2028, 0x2029), (0x202f, 0x202f), (0x205f, 0x205f),
  (0x3000, 0x3000)]

/-- Whether the capitals and the small letters of a run all lie outside of a range. -/
def CaseRun.misses (r : CaseRun) (range : Nat × Nat) : Bool :=
  [r.first, r.image].all fun start =>
    Nat.blt range.2 start || Nat.blt (r.last - r.first + start) range.1

theorem runs_miss : (lowercaseRuns.all fun r => markRanges.all r.misses) = true := by
  decide +kernel

theorem not_mark_of_small? {r : CaseRun} (hr : r ∈ lowercaseRuns) {n m : Nat}
    (h : r.small? n = some m) :
    ∀ range ∈ markRanges, ¬ (range.1 ≤ n ∧ n ≤ range.2) ∧ ¬ (range.1 ≤ m ∧ m ≤ range.2) := by
  intro range hrange
  have hmisses := List.all_eq_true.mp (List.all_eq_true.mp runs_miss r hr) range hrange
  simp only [misses, List.all_cons, List.all_nil, Bool.and_eq_true, Bool.or_eq_true,
    Nat.blt_eq] at hmisses
  obtain ⟨k, hk, rfl, rfl⟩ := small?_eq_some h
  have hlast := List.mem_range.mp (List.mem_of_mem_filter hk)
  omega

/-- Lower case neither takes a mark away nor brings one in. -/
theorem smallLetter_mark {p : Char → Bool} (hp : ∀ c, p c = true → inRanges markRanges c = true)
    (c : Char) : p (smallLetter c) = p c := by
  have hnot : ∀ d : Char, (∀ range ∈ markRanges, ¬ (range.1 ≤ d.toNat ∧ d.toNat ≤ range.2)) →
      p d = false := by
    intro d hd
    rw [Bool.eq_false_iff]
    intro h
    obtain ⟨range, hrange, hin⟩ := List.any_eq_true.mp (hp d h)
    exact hd range hrange (by simpa using hin)
  rcases smallLetter_cases c with h | ⟨r, hr, hsmall⟩
  · rw [h]
  · have hmark := not_mark_of_small? hr hsmall
    rw [hnot c fun range hrange => (hmark range hrange).1,
      hnot (smallLetter c) fun range hrange => (hmark range hrange).2]

theorem isBlank_smallLetter (c : Char) : isBlank (smallLetter c) = isBlank c := by
  refine smallLetter_mark (fun c hc => ?_) c
  simp only [isBlank, inRanges, markRanges, List.any_cons, List.any_nil, Bool.or_eq_true,
    Bool.and_eq_true, decide_eq_true_eq, beq_iff_eq] at hc ⊢
  omega

theorem smallLetter_beq_dot (c : Char) : (smallLetter c == '.') = (c == '.') :=
  smallLetter_mark (p := (· == '.')) (fun c hc => beq_iff_eq.mp hc ▸ by decide) c

theorem smallLetter_beq_dottedI (c : Char) : (smallLetter c == 'İ') = (c == 'İ') :=
  smallLetter_mark (p := (· == 'İ')) (fun c hc => beq_iff_eq.mp hc ▸ by decide) c

/-! ## Texts in lower case -/

/-- Whether lower case leaves the character as it is, wherever it stands. -/
def Settled (c : Char) : Prop := smallLetter c = c ∧ (c == 'Σ') = false ∧ (c == 'İ') = false

instance (c : Char) : Decidable (Settled c) := inferInstanceAs (Decidable (_ ∧ _))

theorem settled_smallLetter {c : Char} (hdotted : (c == 'İ') = false) :
    Settled (smallLetter c) := by
  refine ⟨smallLetter_smallLetter c, ?_, ?_⟩
  · rw [beq_eq_false_iff_ne]
    intro hsigma
    have h := smallLetter_smallLetter c
    rw [hsigma] at h
    exact absurd h (by decide +kernel)
  · rw [smallLetter_beq_dottedI, hdotted]

theorem settled_of_mem_lowercaseAfter {c : Char} {before t : Text}
    (h : c ∈ lowercaseAfter before t) : Settled c := by
  induction t generalizing before with
  | nil => cases h
  | cons d t ih =>
      rw [lowercaseAfter, List.mem_append] at h
      rcases h with h | h
      · split at h
        · rw [List.mem_singleton] at h
          subst h
          split <;> decide +kernel
        · split at h
          · simp only [List.mem_cons, List.not_mem_nil, or_false] at h
            rcases h with rfl | rfl <;> decide +kernel
          · next hdotted =>
              rw [List.mem_singleton] at h
              subst h
              exact settled_smallLetter (Bool.eq_false_iff.mpr hdotted)
      · exact ih h

theorem settled_of_mem_lowercase {c : Char} {t : Text} (h : c ∈ lowercase t) : Settled c :=
  settled_of_mem_lowercaseAfter h

theorem lowercase_eq_self {t : Text} (h : ∀ c ∈ t, Settled c) : lowercase t = t := by
  have hafter : ∀ before, lowercaseAfter before t = t := by
    induction t with
    | nil => exact fun _ => rfl
    | cons c t ih =>
        intro before
        obtain ⟨hsmall, hsigma, hdotted⟩ := h c List.mem_cons_self
        rw [lowercaseAfter, hsigma, hdotted, hsmall, ih fun d hd => h d (List.mem_cons_of_mem c hd)]
        rfl
  exact hafter []

/-- Behind blanks, lower case shows a dot where there was one. -/
theorem head?_dropWhile_lowercase (t : Text) :
    ((lowercase t).dropWhile isBlank).head? = some '.' ↔
      (t.dropWhile isBlank).head? = some '.' := by
  have hafter : ∀ before, ((lowercaseAfter before t).dropWhile isBlank).head? = some '.' ↔
      (t.dropWhile isBlank).head? = some '.' := by
    induction t with
    | nil => exact fun _ => .rfl
    | cons c t ih =>
        intro before
        by_cases hcase : (c == 'Σ') = true ∨ (c == 'İ') = true
        · -- What is written for these two begins with a letter, and they are no dots either.
          simp only [beq_iff_eq] at hcase
          rcases hcase with rfl | rfl
          · show (((if meetsLetter before && !meetsLetter t then 'ς' else 'σ') ::
              lowercaseAfter _ t).dropWhile isBlank).head? = some '.' ↔ _
            split <;> simp [isBlank]
          · show ((('i' :: '\u0307' :: lowercaseAfter _ t).dropWhile isBlank).head? = some '.' ↔ _)
            simp [isBlank]
        · simp only [not_or, Bool.not_eq_true] at hcase
          rw [lowercaseAfter, hcase.1, hcase.2]
          show (((smallLetter c :: lowercaseAfter _ t).dropWhile isBlank).head? = some '.' ↔ _)
          rw [List.dropWhile_cons, List.dropWhile_cons, isBlank_smallLetter]
          split
          · exact ih _
          · simpa using congrArg (· = true) (smallLetter_beq_dot c)
  exact hafter []

end MdxMend.Text
