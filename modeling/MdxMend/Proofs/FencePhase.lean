import MdxMend.Proofs.Escaping
import MdxMend.Proofs.FenceLines

/-!
# The rule on fences has nothing to do twice

A line that the rule has given a tag is a fence line still, with the same
fence, and its tag stays. So the walk over the new lines keeps the
same account of open fences and changes none of them. Escaping brackets later on does
not undo this: it can only put into a tag what makes it stay.
-/

namespace MdxMend

open Text

namespace FenceLine

/-- A fence line whose tag stays. -/
theorem retagged_of_stays {f : FenceLine} (h : Language.Stays f.tag) : f.retagged = f := by
  unfold retagged
  split
  · rfl
  · next heq =>
      rw [h] at heq
      cases heq

theorem stays_retagged (f : FenceLine) : Language.Stays f.retagged.tag := by
  unfold retagged
  split
  · next h => exact h
  · next h => exact Language.stays_of_resolve? h

theorem tag_retagged_of_not_stays {f : FenceLine} (h : ¬ Language.Stays f.tag) :
    f.retagged.tag = "text".toList ∨ f.retagged.tag = "markdown".toList := by
  unfold retagged
  split
  · next heq => exact absurd heq h
  · next heq => rcases Language.resolve?_eq_some heq with rfl | rfl <;> simp

theorem fence_retagged (f : FenceLine) : f.retagged.fence = f.fence := by
  unfold retagged
  split <;> rfl

theorem tag_retagged_of_text {f : FenceLine} (h : f.retagged.text = f.text) :
    f.retagged.tag = f.tag := by
  unfold retagged at h ⊢
  split at h
  · rfl
  · exact List.append_cancel_right (List.append_cancel_left (List.append_cancel_left h))

end FenceLine

/-- A line that is not changed where a fence may open has a tag that stays. -/
theorem retag_eq_iff (f : FenceLine) : (retag none f.text).1 = f.text ↔ Language.Stays f.tag := by
  rw [retag_none]
  constructor
  · intro h
    rw [← FenceLine.tag_retagged_of_text h]
    exact f.stays_retagged
  · intro h
    rw [FenceLine.retagged_of_stays h]

/-- What becomes of a line is a line. -/
theorem isLine_retag {l : Text} (hl : IsLine l) (open? : Option Fence) :
    IsLine (retag open? l).1 := by
  by_cases hfence : ∃ f : FenceLine, l = f.text
  · obtain ⟨f, rfl⟩ := hfence
    cases open? with
    | none =>
        rw [retag_none]
        exact f.retagged.isLine
    | some g =>
        rw [retag_some]
        exact hl
  · rw [retag_other hl fun f hf => hfence ⟨f, hf⟩]
    exact hl

theorem isLine_retagLines {ls : List Text} (hls : ∀ l ∈ ls, IsLine l) (open? : Option Fence) :
    ∀ l ∈ retagLines open? ls, IsLine l := by
  induction ls generalizing open? with
  | nil => exact fun l hl => absurd hl List.not_mem_nil
  | cons l ls ih =>
      refine List.forall_mem_cons.mpr ⟨isLine_retag (hls l List.mem_cons_self) open?, ?_⟩
      exact ih (fun m hm => hls m (List.mem_cons_of_mem l hm)) _

theorem lined_retagLines {ls : List Text} (hls : Lined ls) (open? : Option Fence) :
    Lined (retagLines open? ls) := by
  induction hls generalizing open? with
  | nil => exact .nil
  | @last x hne hx =>
      rw [retagLines, retag_last hx]
      exact .last hne hx
  | line hl _ ih => exact .line (isLine_retag hl open?) (ih _)

/-- The second time, a line stays as it is and leaves the same fence open. -/
theorem retag_retag {l : Text} (hl : IsLine l) (open? : Option Fence) :
    retag open? (retag open? l).1 = retag open? l := by
  by_cases hfence : ∃ f : FenceLine, l = f.text
  · obtain ⟨f, rfl⟩ := hfence
    cases open? with
    | none =>
        rw [retag_none, retag_none, FenceLine.retagged_of_stays f.stays_retagged,
          f.fence_retagged]
    | some g => rw [retag_some, retag_some]
  · have hother : ∀ f : FenceLine, l ≠ f.text := fun f hf => hfence ⟨f, hf⟩
    rw [retag_other hl hother, retag_other hl hother]

theorem retagLines_retagLines {ls : List Text} (hls : Lined ls) (open? : Option Fence) :
    retagLines open? (retagLines open? ls) = retagLines open? ls := by
  induction hls generalizing open? with
  | nil => rfl
  | @last x hne hx => simp only [retagLines, retag_last hx]
  | line hl _ ih => rw [retagLines, retagLines, retag_retag hl, ih]

/-- Behind its own lines the walk keeps the same account of open fences. -/
theorem trackLines_retagLines {ls : List Text} (hls : Lined ls) (open? : Option Fence) :
    trackLines open? (retagLines open? ls) = trackLines open? ls := by
  induction hls generalizing open? with
  | nil => rfl
  | @last x hne hx => simp only [retagLines, trackLines, retag_last hx]
  | line hl _ ih => rw [retagLines, trackLines, trackLines, retag_retag hl, ih]

/-! ## Under escaping -/

theorem isTagChar_of_mem_escaping (mark : Char) :
    ∀ c ∈ escaping, Builtin.isTagChar mark c = true := by
  intro c hc
  have hne : c ≠ '\r' ∧ c ≠ '\n' ∧ c ≠ backtick := by
    refine ⟨?_, ?_, ?_⟩ <;> rintro rfl <;> exact absurd hc (by decide)
  simp [Builtin.isTagChar, hne]

namespace FenceLine

theorem plain_indent (f : FenceLine) : ∀ c ∈ f.indent, reference? c = none := by
  intro c hc
  have := f.isIndent_indent c hc
  simp only [isIndent, Bool.or_eq_true, beq_iff_eq] at this
  rcases this with rfl | rfl <;> rfl

theorem plain_marks (f : FenceLine) : ∀ c ∈ List.replicate f.count f.mark, reference? c = none := by
  intro c hc
  rw [List.eq_of_mem_replicate hc]
  exact reference?_of_not_mem (not_mem_escaping_of_isMark f.isMark_mark)

theorem plain_eol (f : FenceLine) : ∀ c ∈ f.eol, reference? c = none := by
  rcases f.eol_cases with h | h <;> rw [h] <;> simp [reference?]

/-- An escaped fence line has the same fence, and brackets were escaped in its
tag. -/
theorem escaped (f : FenceLine) {l : Text} (h : Escaped f.text l) :
    ∃ g : FenceLine, l = g.text ∧ g.fence = f.fence ∧ Escaped f.tag g.tag := by
  have hmark := not_mem_escaping_of_isMark f.isMark_mark
  obtain ⟨u, rfl, hu⟩ := Escaped.of_plain f.plain_indent h
  obtain ⟨v, rfl, hv⟩ := Escaped.of_plain f.plain_marks hu
  obtain ⟨tag, eol, rfl, htag, hrest⟩ := Escaped.of_append hv
  rw [Escaped.eq_of_plain f.plain_eol hrest]
  exact ⟨{ f with
    tag
    isTagChar_tag := htag.forall_mem (isTagChar_of_mem_escaping f.mark) f.isTagChar_tag
    head?_tag := fun hhead => f.head?_tag ((htag.head?_iff hmark).mp hhead) }, rfl, rfl, htag⟩

/-- What is escaped to a fence line was one. -/
theorem of_escaped (f : FenceLine) {l : Text} (h : Escaped l f.text) :
    ∃ g : FenceLine, l = g.text := by
  have hindent : ∀ c ∈ f.indent, c ∉ escaping := by
    intro c hc
    have := f.isIndent_indent c hc
    simp only [isIndent, Bool.or_eq_true, beq_iff_eq] at this
    rcases this with rfl | rfl <;> decide
  have hmark := not_mem_escaping_of_isMark f.isMark_mark
  have hmarks : ∀ c ∈ List.replicate f.count f.mark, c ∉ escaping := by
    intro c hc
    rwa [List.eq_of_mem_replicate hc]
  have heol : ∀ c ∈ f.eol, c ∉ escaping := by
    rcases f.eol_cases with h | h <;> rw [h] <;> simp [escaping]
  have heol' := f.head?_eol []
  rw [List.append_nil] at heol'
  obtain ⟨u, rfl, hu⟩ := Escaped.of_foreign hindent h
  obtain ⟨v, rfl, hv⟩ := Escaped.of_foreign hmarks hu
  obtain ⟨htag, hrest⟩ := hv.scan_inside (isTagChar_of_mem_escaping f.mark)
  rw [takeWhile_stop f.isTagChar_tag heol'] at htag
  rw [dropWhile_stop f.isTagChar_tag heol', ← List.append_nil f.eol] at hrest
  obtain ⟨w, hw, hnil⟩ := Escaped.of_foreign heol hrest
  have hsplit := List.takeWhile_append_dropWhile (p := Builtin.isTagChar f.mark) (l := v)
  obtain rfl : w = [] := List.eq_nil_of_length_eq_zero (Nat.le_zero.mp hnil.length_le)
  rw [hw, List.append_nil] at hsplit
  refine ⟨{ f with
    tag := v.takeWhile (Builtin.isTagChar f.mark)
    isTagChar_tag := of_mem_takeWhile
    head?_tag := fun hhead => f.head?_tag ((htag.head?_iff hmark).mpr hhead) }, ?_⟩
  exact congrArg (fun w => f.indent ++ (List.replicate f.count f.mark ++ w)) hsplit.symm

end FenceLine

/-- A tag that stays, stays when it is escaped. -/
theorem Language.Stays.escaped {tag tag' : Text} (hs : Stays tag) (h : Escaped tag tag') :
    Stays tag' := by
  rcases h.eq_or_mem with rfl | hamp
  · exact hs
  · exact stays_of_mem (.inl rfl) hamp

theorem Text.IsLine.escaped {l m : Text} (hl : IsLine l) (h : Escaped l m) : IsLine m := by
  obtain ⟨x, hx, rfl⟩ := hl
  obtain ⟨y, z, rfl, hy, hz⟩ := h.of_append
  exact ⟨y, fun hmem => hx ((hy.mem_iff (by decide)).mp hmem), by
    rw [hz.eq_of_plain (by simp [reference?])]⟩

theorem lines_escaped {t u : Text} (h : Escaped t u) :
    List.Forall₂ Escaped (lines t) (lines u) := by
  have hlined : ∀ ls, Lined ls → ∀ u, Escaped ls.flatten u → List.Forall₂ Escaped ls (lines u) := by
    intro ls hls
    induction hls with
    | nil =>
        intro u hu
        rw [hu.of_nil]
        exact .nil
    | @last x hne hx =>
        intro u hu
        rw [List.flatten_cons, List.flatten_nil, List.append_nil] at hu
        have hlen := hu.length_le
        have hune : u ≠ [] := by
          intro heq
          subst heq
          exact hne (List.eq_nil_of_length_eq_zero (Nat.le_zero.mp hlen))
        rw [lines_last hune fun hmem => hx ((hu.mem_iff (by decide)).mp hmem)]
        exact .cons hu .nil
    | line hl _ ih =>
        intro u hu
        obtain ⟨m, v, rfl, hm, hv⟩ := hu.of_append
        rw [lines_line (hl.escaped hm)]
        exact .cons hm (ih v hv)
  exact hlined (lines t) (lined_lines t) u (by rwa [flatten_lines])

/-- Where the rule on fences has nothing to do, it has nothing to do once brackets
are escaped. -/
theorem retagLines_escaped {ls ms : List Text} (h : List.Forall₂ Escaped ls ms)
    (hls : Lined ls) {open? : Option Fence} (hkeep : retagLines open? ls = ls) :
    retagLines open? ms = ms := by
  induction h generalizing open? with
  | nil => rfl
  | @cons l m ls ms hlm _ ih =>
      rw [retagLines, List.cons.injEq] at hkeep
      obtain ⟨hl, hrest⟩ := hkeep
      cases hls with
      | last hne hx =>
          rw [retag_last hx] at hrest
          rw [retagLines, retag_last fun hmem => hx ((hlm.mem_iff (by decide)).mp hmem),
            ih .nil hrest]
      | line hline hls =>
          have hsame : retag open? m = (m, (retag open? l).2) := by
            by_cases hfence : ∃ f : FenceLine, l = f.text
            · obtain ⟨f, rfl⟩ := hfence
              obtain ⟨g, rfl, hgf, htag⟩ := f.escaped hlm
              cases open? with
              | none =>
                  have hstays := (Language.Stays.escaped ((retag_eq_iff f).mp hl) htag)
                  rw [retag_none, retag_none, FenceLine.retagged_of_stays hstays, hgf]
              | some fence =>
                  have hcloses : g.Closes fence ↔ f.Closes fence := by
                    have hblank := htag.all_eq (p := isBlank) (by simp [escaping, isBlank])
                    rw [Bool.eq_iff_iff, List.all_eq_true, List.all_eq_true] at hblank
                    have hmark := congrArg Fence.mark hgf
                    have hcount := congrArg Fence.length hgf
                    simp only [FenceLine.fence] at hmark hcount
                    rw [FenceLine.Closes, FenceLine.Closes, hmark, hcount, hblank]
                  rw [retag_some, retag_some]
                  simp only [hcloses]
            · have hother : ∀ g : FenceLine, m ≠ g.text := by
                rintro g rfl
                exact hfence (g.of_escaped hlm)
              rw [retag_other (hline.escaped hlm) hother, retag_other hline fun f hf =>
                hfence ⟨f, hf⟩]
          rw [retagLines, hsame, ih hls hrest]

end MdxMend
