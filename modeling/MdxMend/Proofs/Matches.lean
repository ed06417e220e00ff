import MdxMend.Proofs.Lines
import MdxMend.Proofs.Splicing

/-!
# A pass, match by match

The built-in patterns recognize a match where it stands and never match the
empty text. For such a pattern the scan has three equations: it ends with the
text, it goes on behind a match, and it passes over a character where there is
none. That is all the later files know of scanning.

The second half says what a pass does with the matches that a scan finds. They
start where they stand (`Pattern.isPlaced_scanFrom`), so the splice that the pass
comes to is the gaps, and between them what the accepted matches are renewed to.
-/

namespace MdxMend

open Text

namespace Pattern

/-- Every match of a recognizer covers something, and no more than is there. -/
def Covers (recognize : Place → Option Sighting) : Prop :=
  ∀ p s, recognize p = some s → 0 < s.length ∧ s.length ≤ p.after.length

variable {recognize : Place → Option Sighting}

theorem firstFrom_succ (n : Nat) (b : Option Char) (t : Text) :
    firstFrom recognize (n + 1) b t =
      (firstFrom recognize n b t).map fun (k, s) => (k + 1, s) := by
  induction t generalizing n b with
  | nil => cases h : recognize ⟨b, []⟩ <;> simp [firstFrom, h]
  | cons c t ih =>
      rw [firstFrom, firstFrom]
      cases recognize ⟨b, c :: t⟩ with
      | none => exact ih (n + 1) (some c)
      | some s => rfl

theorem firstFrom_covers (hcov : Covers recognize) {b : Option Char} {t : Text} {k : Nat}
    {s : Sighting} (h : firstFrom recognize 0 b t = some (k, s)) :
    0 < s.length ∧ k + s.length ≤ t.length := by
  induction t generalizing b k with
  | nil =>
      rw [firstFrom, Option.map_eq_some_iff] at h
      obtain ⟨s', hs, heq⟩ := h
      obtain ⟨rfl, rfl⟩ := Prod.mk.inj heq
      obtain ⟨hpos, hle⟩ := hcov _ _ hs
      exact ⟨hpos, by rwa [Nat.zero_add]⟩
  | cons c t ih =>
      rw [firstFrom] at h
      split at h
      · next s' hs =>
          obtain ⟨rfl, rfl⟩ := Prod.mk.inj (Option.some.inj h)
          obtain ⟨hpos, hle⟩ := hcov _ _ hs
          exact ⟨hpos, by rwa [Nat.zero_add]⟩
      · rw [firstFrom_succ, Option.map_eq_some_iff] at h
        obtain ⟨⟨j, s'⟩, hs, heq⟩ := h
        obtain ⟨rfl, rfl⟩ := Prod.mk.inj heq
        obtain ⟨hpos, hle⟩ := ih hs
        refine ⟨hpos, ?_⟩
        rw [List.length_cons]
        omega

variable {source : String} {names : List (String × Nat)} (hcov : Covers recognize)

include hcov

theorem scanFrom_direct (n : Nat) (p : Place) (barred : Bool) :
    (direct source names recognize).scanFrom n p barred =
      match firstFrom recognize 0 p.before p.after with
      | none => ⟨[], p.after⟩
      | some (k, s) =>
        ((direct source names recognize).scanFrom (n + byteLength (p.after.take (k + s.length)))
          (p.advance (k + s.length)) true).add
          ((direct source names recognize).hitAt n p.after k s) := by
  rw [scanFrom.eq_def]
  change (match firstFrom recognize 0 p.before p.after with
    | none => _
    | some (skip, s) => _) = _
  cases h : firstFrom recognize 0 p.before p.after with
  | none => rfl
  | some found =>
      obtain ⟨k, s⟩ := found
      obtain ⟨hpos, hle⟩ := firstFrom_covers hcov h
      simp only []
      split
      · next hnil =>
          rw [hnil, List.length_nil] at hle
          omega
      · rw [if_neg (by omega)]

/-- Whether a match ended at a place matters to empty matches only. -/
theorem scanFrom_barred (n : Nat) (p : Place) (barred : Bool) :
    (direct source names recognize).scanFrom n p barred =
      (direct source names recognize).scanFrom n p false := by
  rw [scanFrom_direct hcov, scanFrom_direct hcov]

theorem scanFrom_nil (n : Nat) (b : Option Char) :
    (direct source names recognize).scanFrom n ⟨b, []⟩ false = ⟨[], []⟩ := by
  rw [scanFrom_direct hcov]
  cases h : firstFrom recognize 0 b [] with
  | none => rfl
  | some found =>
      obtain ⟨hpos, hle⟩ := firstFrom_covers hcov h
      rw [List.length_nil] at hle
      omega

theorem scanFrom_hit {p : Place} {s : Sighting} (n : Nat) (h : recognize p = some s) :
    (direct source names recognize).scanFrom n p false =
      ((direct source names recognize).scanFrom (n + byteLength (p.after.take s.length))
        (p.advance s.length) false).add
        ⟨[], ⟨n, p.after.take s.length, s.groups, names⟩⟩ := by
  have hfirst : firstFrom recognize 0 p.before p.after = some (0, s) := by
    obtain ⟨b, after⟩ := p
    cases after with
    | nil => simp [firstFrom, h]
    | cons c t => simp [firstFrom, h]
  rw [scanFrom_direct hcov, hfirst]
  simp only [Nat.zero_add]
  rw [scanFrom_barred hcov]
  rfl

theorem scanFrom_miss {b : Option Char} {c : Char} {t : Text} (n : Nat)
    (h : recognize ⟨b, c :: t⟩ = none) :
    (direct source names recognize).scanFrom n ⟨b, c :: t⟩ false =
      ((direct source names recognize).scanFrom (n + c.utf8Size) ⟨some c, t⟩ false).push c := by
  have hfirst : firstFrom recognize 0 b (c :: t) =
      (firstFrom recognize 0 (some c) t).map fun (k, s) => (k + 1, s) := by
    rw [firstFrom, h, firstFrom_succ]
  rw [scanFrom_direct hcov, scanFrom_direct hcov, hfirst]
  cases hnext : firstFrom recognize 0 (some c) t with
  | none => rfl
  | some found =>
      obtain ⟨k, s⟩ := found
      have hpos := (firstFrom_covers hcov hnext).1
      have hadvance : (⟨b, c :: t⟩ : Place).advance (k + 1 + s.length) =
          (⟨some c, t⟩ : Place).advance (k + s.length) := by
        obtain ⟨j, hj⟩ : ∃ j, k + s.length = j + 1 := ⟨k + s.length - 1, by omega⟩
        rw [show k + 1 + s.length = j + 2 by omega, hj]
        cases t <;> simp [Place.advance, List.getLast?_cons]
      have htake : byteLength ((c :: t).take (k + 1 + s.length)) =
          c.utf8Size + byteLength (t.take (k + s.length)) := by
        rw [Nat.add_right_comm, List.take_succ_cons, byteLength_cons]
      simp only [Option.map_some]
      rw [hadvance, htake]
      simp [hitAt, Scan.push, Scan.add, Nat.add_assoc]

end Pattern

/-! ## Renewing matches -/

/-- What a pass writes in place of a match. -/
def renewed (f : Match → Text) (h : Hit × Bool) : Text :=
  if h.2 then f h.1.found else h.1.found.text

/-- Matches that start where they stand, when `n` bytes lie in front of what was cut. -/
def IsPlaced : Nat → List Hit → Prop
  | _, [] => True
  | n, h :: hits => h.found.start = n + byteLength h.gap ∧ IsPlaced h.found.stop hits

theorem isPlaced_push {n : Nat} {c : Char} {s : Scan} (h : IsPlaced (n + c.utf8Size) s.hits) :
    IsPlaced n (s.push c).hits := by
  obtain ⟨_ | ⟨hit, hits⟩, tail⟩ := s
  · trivial
  · obtain ⟨hstart, hrest⟩ := h
    refine ⟨?_, hrest⟩
    rw [byteLength_cons, ← Nat.add_assoc]
    exact hstart

theorem Pattern.stop_hitAt (r : Pattern) (n : Nat) (t : Text) (skip : Nat) (s : Sighting) :
    (r.hitAt n t skip s).found.stop = n + byteLength (t.take (skip + s.length)) := by
  rw [List.take_add, byteLength_append, ← Nat.add_assoc]
  rfl

/-- The matches of a pattern start where they stand. -/
theorem Pattern.isPlaced_scanFrom (r : Pattern) (n : Nat) (p : Place) (barred : Bool) :
    IsPlaced n (r.scanFrom n p barred).hits := by
  fun_induction scanFrom r n p barred with
  | case1 => trivial
  | case2 n p barred skip s _ h =>
      cases barred with
      | false => exact ⟨rfl, trivial⟩
      | true => trivial
  | case3 n p skip s _ c after h hn rest ih => exact isPlaced_push ih
  | case4 n p barred skip s _ c after h hn rest _ ih =>
      refine ⟨rfl, ?_⟩
      rw [stop_hitAt, Nat.zero_add, show s.length = 0 by omega]
      exact isPlaced_push ih
  | case5 n p barred skip s _ c after h hn passed ih =>
      refine ⟨rfl, ?_⟩
      rw [stop_hitAt]
      exact ih

namespace IsPlaced

variable {t x tail : Text} {n : Nat} {hs : List (Hit × Bool)} {f : Match → Text}

theorem inOrder (h : IsPlaced n (hs.map Prod.fst)) (hx : byteLength x = n)
    (ht : t = x ++ Scan.text ⟨hs.map Prod.fst, tail⟩) :
    InOrder t (hs.map (·.1.found)) ∧ ∀ m ∈ hs.map (·.1.found), n ≤ m.start := by
  induction hs generalizing n x with
  | nil => exact ⟨⟨nofun, .nil⟩, nofun⟩
  | cons head hs ih =>
      obtain ⟨⟨gap, m⟩, accepted⟩ := head
      obtain ⟨hstart, hrest⟩ := h
      have hfront : byteLength (x ++ gap) = m.start := by
        rw [byteLength_append, hx]
        exact hstart.symm
      have hsplit : t = x ++ gap ++ (m.text ++ Scan.text ⟨hs.map Prod.fst, tail⟩) := by
        rw [ht]
        simp [Scan.text]
      obtain ⟨horder, hbehind⟩ := ih (x := x ++ gap ++ m.text) hrest
        (by rw [byteLength_append, hfront, Match.stop]) (by rw [hsplit, ← List.append_assoc])
      have hle : n ≤ m.start := Nat.le.intro hstart.symm
      refine ⟨InOrder.cons_iff.mpr ⟨⟨_, _, hsplit, hfront⟩, hbehind, horder⟩, ?_⟩
      rw [List.map_cons, List.forall_mem_cons]
      exact ⟨hle, fun m' hm' => Nat.le_trans hle (Nat.le_trans m.start_le_stop (hbehind m' hm'))⟩

/-- The splice at such matches is the gaps, and between them what the matches are renewed to. -/
theorem spliceFrom_eq (h : IsPlaced n (hs.map Prod.fst)) (hx : byteLength x = n)
    (ht : t = x ++ Scan.text ⟨hs.map Prod.fst, tail⟩) :
    spliceFrom t n (hs.map fun h => editOf f (h.1.found, h.2)) =
      (hs.flatMap fun h => h.1.gap ++ renewed f h) ++ tail := by
  induction hs generalizing n x with
  | nil =>
      rw [ht, ← hx]
      exact dropBytes_append _ _
  | cons head hs ih =>
      obtain ⟨⟨gap, m⟩, accepted⟩ := head
      obtain ⟨hstart, hrest⟩ := h
      have hsplit : t = x ++ (gap ++ (m.text ++ Scan.text ⟨hs.map Prod.fst, tail⟩)) := by
        rw [ht]
        simp [Scan.text]
      have hgap : slice t n m.start = gap := by
        rw [hsplit, ← hx, show m.start = byteLength x + byteLength gap from hx ▸ hstart,
          slice_append]
      have hbehind := ih (x := x ++ gap ++ m.text) hrest
        (by
          rw [byteLength_append, byteLength_append, hx, Match.stop]
          exact congrArg (· + _) hstart.symm)
        (by simp [hsplit])
      rw [List.map_cons, List.flatMap_cons, editOf, spliceFrom, hgap, hbehind]
      simp [renewed]

end IsPlaced

theorem Fence.length_openers (open? : Option Fence) (ls : List Text) :
    (Fence.openers open? ls).length = ls.length := by
  induction ls generalizing open? with
  | nil => rfl
  | cons l ls ih => rw [Fence.openers, List.length_cons, ih, List.length_cons]

theorem Scope.length_accepted (s : Scope) (ts : List Text) :
    (s.accepted ts).length = ts.length := by
  cases s with
  | prose => exact List.length_map _
  | fenceOpening => exact Fence.length_openers none ts

namespace Rule

variable (r : Rule) (t : Text)

/-- The matches of a rule, each with whether the rule may change it. -/
def hits : List (Hit × Bool) :=
  (r.pattern.scan t).hits.zip (r.scope.accepted ((r.pattern.scan t).hits.map (·.found.text)))

theorem map_hits : (r.hits t).map Prod.fst = (r.pattern.scan t).hits := by
  refine List.map_fst_zip (Nat.le_of_eq ?_)
  rw [Scope.length_accepted, List.length_map]

theorem pass_eq_passOver :
    r.pass t = passOver r.replacement.render t ((r.hits t).map fun h => (h.1.found, h.2)) := by
  rw [pass, List.map_map, List.zip_map_left]
  rfl

variable {r t} {f : Match → Text}

/-- A pass that can render what it may change renews the matches of the rule and keeps the rest. -/
theorem pass_of_renders
    (hf : ∀ h ∈ r.hits t, h.2 = true → r.replacement.render h.1.found = .ok (f h.1.found)) :
    r.pass t =
      let fixes := (r.hits t).countP fun h => renewed f h ≠ h.1.found.text
      .ok (if fixes = 0 then none
        else some ⟨((r.hits t).flatMap fun h => h.1.gap ++ renewed f h) ++ (r.pattern.scan t).tail,
          fixes⟩) := by
  have hplaced : IsPlaced 0 ((r.hits t).map Prod.fst) := by
    rw [map_hits]
    exact r.pattern.isPlaced_scanFrom _ _ _
  have ht : t = [] ++ Scan.text ⟨(r.hits t).map Prod.fst, (r.pattern.scan t).tail⟩ := by
    rw [map_hits]
    exact (r.pattern.text_scan t).symm
  have horder := (hplaced.inOrder rfl ht).1
  have hrender : ∀ m ∈ (r.hits t).map (fun h => (h.1.found, h.2)), m.2 = true →
      r.replacement.render m.1 = .ok (f m.1) := List.forall_mem_map.mpr hf
  have hsplice := hplaced.spliceFrom_eq (f := f) rfl ht
  rw [pass_eq_passOver, passOver_eq (by rwa [List.map_map]) hrender, List.map_map, fixesIn,
    List.countP_map]
  simp only [Function.comp_def, hsplice]
  rfl

theorem pass_of_error
    (h : ∃ x ∈ r.hits t, x.2 = true ∧ ∃ e, r.replacement.render x.1.found = .error e) :
    ∃ e, r.pass t = .error e := by
  obtain ⟨x, hx, hrender⟩ := h
  rw [pass_eq_passOver]
  exact passOver_error ⟨_, List.mem_map_of_mem hx, hrender⟩

end Rule

namespace Scan

variable (f : Match → Text)

/-- A text with all its matches renewed. -/
def rewritten (s : Scan) : Text := s.hits.flatMap (fun h => h.gap ++ f h.found) ++ s.tail

/-- The number of matches that are not renewed to what they were. -/
def changes (s : Scan) : Nat := s.hits.countP fun h => f h.found ≠ h.found.text

@[simp] theorem rewritten_push (c : Char) (s : Scan) :
    (s.push c).rewritten f = c :: s.rewritten f := by
  obtain ⟨hits, tail⟩ := s
  cases hits <;> simp [push, rewritten]

@[simp] theorem rewritten_add (h : Hit) (s : Scan) :
    (s.add h).rewritten f = h.gap ++ f h.found ++ s.rewritten f := by
  simp [add, rewritten]

@[simp] theorem changes_push (c : Char) (s : Scan) : (s.push c).changes f = s.changes f := by
  obtain ⟨hits, tail⟩ := s
  cases hits <;> simp [push, changes, List.countP_cons]

@[simp] theorem changes_add (h : Hit) (s : Scan) :
    (s.add h).changes f = s.changes f + if f h.found ≠ h.found.text then 1 else 0 := by
  simp [add, changes, List.countP_cons]

end Scan

/-- The pass of a rule that sees every match. -/
theorem Rule.pass_all {r : Rule} {f : Match → Text} (hscope : r.scope = .prose)
    (hf : ∀ m, r.replacement.render m = .ok (f m)) (t : Text) :
    r.pass t =
      .ok (if (r.pattern.scan t).changes f = 0 then none
        else some ⟨(r.pattern.scan t).rewritten f, (r.pattern.scan t).changes f⟩) := by
  have haccepted : ∀ hits : List Hit, hits.zip
      (Scope.accepted .prose (hits.map fun h => h.found.text)) = hits.map (·, true) := by
    intro hits
    induction hits with
    | nil => rfl
    | cons h hits ih => simpa [Scope.accepted] using ih
  rw [Rule.pass_of_renders fun h _ _ => hf h.1.found, Rule.hits, hscope, haccepted]
  simp only [List.flatMap_map, List.countP_map, Function.comp_def, renewed, if_true]
  rfl

end MdxMend
