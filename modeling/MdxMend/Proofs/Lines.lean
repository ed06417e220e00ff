import MdxMend.Text.Basic
import Mathlib.Data.List.Basic

/-!
# The lines of a text

Both readings of a document, the one that cuts it into spans and the one that
follows its fences, change their mind at line breaks only, so most arguments
about them go line by line. A *line* here carries its line feed; `lines` cuts a
text into them, and the last piece may lack one. `Lined` says what such a list
of pieces looks like and is what the inductions run on.

The file starts with the two scanners that everything is read with. Whatever
stops `takeWhile` is the head of what `dropWhile` leaves, and conversely a
prefix of the class followed by a character outside it is exactly what
`takeWhile` finds.
-/

namespace MdxMend.Text

theorem takeWhile_stop {p : Char → Bool} {x y : Text}
    (hx : ∀ c ∈ x, p c = true) (hy : ∀ c ∈ y.head?, p c = false) :
    (x ++ y).takeWhile p = x := by
  rw [List.takeWhile_append_of_pos hx]
  cases y with
  | nil => simp
  | cons c y =>
      have hc : p c = false := hy c (by simp)
      rw [List.takeWhile_cons_of_neg (by simp [hc]), List.append_nil]

theorem dropWhile_stop {p : Char → Bool} {x y : Text}
    (hx : ∀ c ∈ x, p c = true) (hy : ∀ c ∈ y.head?, p c = false) :
    (x ++ y).dropWhile p = y := by
  rw [List.dropWhile_append_of_pos hx]
  cases y with
  | nil => rfl
  | cons c y =>
      have hc : p c = false := hy c (by simp)
      rw [List.dropWhile_cons_of_neg (by simp [hc])]

theorem of_mem_takeWhile {p : Char → Bool} {t : Text} :
    ∀ c ∈ t.takeWhile p, p c = true := by
  intro c hc
  exact List.all_eq_true.mp List.all_takeWhile c hc

theorem head?_dropWhile {p : Char → Bool} {t : Text} :
    ∀ c ∈ (t.dropWhile p).head?, p c = false := by
  intro c hc
  have h := List.head?_dropWhile_not p t
  rw [Option.mem_def] at hc
  rw [hc] at h
  simpa using h

/-- A run of one character is all there is to the longest stretch of it. -/
theorem takeWhile_beq (c : Char) (t : Text) :
    t.takeWhile (· == c) =
      List.replicate (t.takeWhile (· == c)).length c := by
  rw [List.eq_replicate_iff]
  exact ⟨rfl, fun d hd => by simpa using of_mem_takeWhile d hd⟩

/-- The head of what is left behind the longest run of a character. -/
theorem head?_dropWhile_beq (c : Char) (t : Text) :
    (t.dropWhile (· == c)).head? ≠ some c := by
  intro h
  have := head?_dropWhile c h
  simp at this

theorem takeWhile_run {c : Char} {s : Text} (hs : s.head? ≠ some c) (k : Nat) :
    (List.replicate k c ++ s).takeWhile (· == c) = List.replicate k c := by
  refine takeWhile_stop (fun d hd => by simpa using List.eq_of_mem_replicate hd) fun d hd => ?_
  have : d ≠ c := fun h => hs (h ▸ hd)
  simpa using this

theorem dropWhile_run {c : Char} {s : Text} (hs : s.head? ≠ some c) (k : Nat) :
    (List.replicate k c ++ s).dropWhile (· == c) = s := by
  refine dropWhile_stop (fun d hd => by simpa using List.eq_of_mem_replicate hd) fun d hd => ?_
  have : d ≠ c := fun h => hs (h ▸ hd)
  simpa using this

/-- A text that begins with `c` begins with a whole run of it. -/
theorem exists_run (c : Char) (s : Text) :
    ∃ k rest, 0 < k ∧ rest.head? ≠ some c ∧ c :: s = List.replicate k c ++ rest ∧
      rest.length ≤ s.length := by
  refine ⟨(s.takeWhile (· == c)).length + 1, s.dropWhile (· == c), by omega,
    head?_dropWhile_beq c s, ?_, length_dropWhile_le _ _⟩
  rw [List.replicate_succ, List.cons_append, ← takeWhile_beq, List.takeWhile_append_dropWhile]

/-- A text read in whole runs of one character. -/
theorem run_induction {motive : Text → Prop} (mark : Char) (nil : motive [])
    (other : ∀ c s, c ≠ mark → motive s → motive (c :: s))
    (run : ∀ k s, 0 < k → s.head? ≠ some mark → motive s →
      motive (List.replicate k mark ++ s)) : ∀ t, motive t := by
  intro t
  induction hlen : t.length using Nat.strongRecOn generalizing t with
  | ind n ih =>
      subst hlen
      cases t with
      | nil => exact nil
      | cons c s =>
          by_cases hc : c = mark
          · subst hc
            obtain ⟨k, rest, hk, hrest, hsplit, hlen⟩ := exists_run c s
            rw [hsplit]
            exact run k rest hk hrest (ih rest.length (by rw [List.length_cons]; omega) rest rfl)
          · exact other c s hc (ih s.length (by rw [List.length_cons]; omega) s rfl)

/-! ## The rest of a line -/

theorem restOfLine_newline (s : Text) : restOfLine ('\n' :: s) = [] := rfl

theorem restOfLine_append {x : Text} (hx : '\n' ∉ x) (s : Text) :
    restOfLine (x ++ s) = x ++ restOfLine s := by
  unfold restOfLine
  refine List.takeWhile_append_of_pos fun c hc => ?_
  have : c ≠ '\n' := fun h => hx (h ▸ hc)
  simpa using this

theorem restOfLine_of_not_mem {x : Text} (hx : '\n' ∉ x) : restOfLine x = x := by
  have h := restOfLine_append hx []
  rw [List.append_nil] at h
  rw [h]
  simp [restOfLine]

/-- The first line feed is where it is. -/
theorem newline_inj {x y s t : Text} (hx : '\n' ∉ x) (hy : '\n' ∉ y)
    (h : x ++ '\n' :: s = y ++ '\n' :: t) : x = y ∧ s = t := by
  have hline := congrArg restOfLine h
  rw [restOfLine_append hx, restOfLine_append hy, restOfLine_newline, restOfLine_newline,
    List.append_nil, List.append_nil] at hline
  subst hline
  exact ⟨rfl, (List.cons.inj (List.append_cancel_left h)).2⟩

theorem newline_not_mem_restOfLine (s : Text) : '\n' ∉ restOfLine s := by
  intro h
  have := of_mem_takeWhile _ h
  simp at this

/-! ## Lines -/

/-- A line with its line feed. -/
def IsLine (l : Text) : Prop := ∃ x, '\n' ∉ x ∧ l = x ++ ['\n']

theorem IsLine.ne_nil {l : Text} (h : IsLine l) : l ≠ [] := by
  obtain ⟨x, -, rfl⟩ := h
  simp

theorem isLine_iff {l : Text} : IsLine l ↔ l = restOfLine l ++ ['\n'] := by
  constructor
  · rintro ⟨x, hx, rfl⟩
    rw [restOfLine_append hx, restOfLine_newline, List.append_nil]
  · intro h
    exact ⟨restOfLine l, newline_not_mem_restOfLine l, h⟩

theorem restOfLine_line {l : Text} (hl : IsLine l) (s : Text) :
    restOfLine (l ++ s) = restOfLine l := by
  obtain ⟨x, hx, rfl⟩ := hl
  rw [List.append_assoc, restOfLine_append hx, restOfLine_append hx]
  rfl

/-- The pieces of a text up to and including each line feed, and what is left
behind the last one, if anything is. -/
def lines : Text → List Text
  | [] => []
  | c :: s =>
    if c = '\n' then [c] :: lines s
    else
      match lines s with
      | [] => [[c]]
      | l :: ls => (c :: l) :: ls

/-- What `lines` gives: complete lines, and then at most one that is not empty
and lacks its line feed. -/
inductive Lined : List Text → Prop where
  | nil : Lined []
  | last {x : Text} (hne : x ≠ []) (hx : '\n' ∉ x) : Lined [x]
  | line {l : Text} {ls : List Text} (hl : IsLine l) (hls : Lined ls) : Lined (l :: ls)

theorem lines_line {l : Text} (hl : IsLine l) (s : Text) :
    lines (l ++ s) = l :: lines s := by
  obtain ⟨x, hx, rfl⟩ := hl
  induction x with
  | nil => rw [List.nil_append, List.singleton_append, lines, if_pos rfl]
  | cons c x ih =>
      have hc : c ≠ '\n' := fun h => hx (h ▸ List.mem_cons_self)
      have hrec := ih fun h => hx (List.mem_cons_of_mem c h)
      rw [List.cons_append, List.cons_append, lines, if_neg hc, hrec]

theorem lines_last {x : Text} (hne : x ≠ []) (hx : '\n' ∉ x) : lines x = [x] := by
  induction x with
  | nil => exact absurd rfl hne
  | cons c x ih =>
      have hc : c ≠ '\n' := fun h => hx (h ▸ List.mem_cons_self)
      rw [lines, if_neg hc]
      rcases List.eq_nil_or_concat x with rfl | ⟨_, _, hcat⟩
      · rfl
      · rw [ih (by simp [hcat]) fun h => hx (List.mem_cons_of_mem c h)]

theorem Lined.lines_flatten {ls : List Text} (h : Lined ls) :
    lines ls.flatten = ls := by
  induction h with
  | nil => rfl
  | last hne hx =>
      rw [List.flatten_cons, List.flatten_nil, List.append_nil]
      exact lines_last hne hx
  | line hl _ ih => rw [List.flatten_cons, lines_line hl, ih]

theorem flatten_lines (t : Text) : (lines t).flatten = t := by
  induction t with
  | nil => rfl
  | cons c s ih =>
      rw [lines]
      split
      · rw [List.flatten_cons, ih]
        rfl
      · cases hls : lines s with
        | nil =>
            rw [hls] at ih
            rw [← ih]
            rfl
        | cons l ls =>
            rw [hls] at ih
            rw [← ih]
            rfl

theorem lined_lines (t : Text) : Lined (lines t) := by
  induction t with
  | nil => exact .nil
  | cons c s ih =>
      rw [lines]
      split
      · next hc =>
          subst hc
          exact .line ⟨[], by simp, rfl⟩ ih
      · next hc =>
          have hmem : ∀ x : Text, '\n' ∉ x → '\n' ∉ c :: x := by
            intro x hx h
            rcases List.mem_cons.mp h with h | h
            · exact hc h.symm
            · exact hx h
          cases hls : lines s with
          | nil => exact .last (by simp) (hmem [] List.not_mem_nil)
          | cons l ls =>
              rw [hls] at ih
              cases ih with
              | last hne hx => exact .last (by simp) (hmem l hx)
              | line hl hrest =>
                  obtain ⟨x, hx, rfl⟩ := hl
                  exact .line ⟨c :: x, hmem x hx, rfl⟩ hrest

theorem Lined.append {ls ms : List Text} (hls : ∀ l ∈ ls, IsLine l)
    (hms : Lined ms) : Lined (ls ++ ms) := by
  induction ls with
  | nil => exact hms
  | cons l ls ih =>
      exact .line (hls l List.mem_cons_self)
        (ih fun m hm => hls m (List.mem_cons_of_mem l hm))

/-- The pieces in front of another one are complete. -/
theorem Lined.of_append {ls ms : List Text} {m : Text}
    (h : Lined (ls ++ m :: ms)) : (∀ l ∈ ls, IsLine l) ∧ Lined (m :: ms) := by
  induction ls with
  | nil => exact ⟨fun l hl => absurd hl List.not_mem_nil, h⟩
  | cons l ls ih =>
      rw [List.cons_append] at h
      generalize hk : ls ++ m :: ms = ks at h
      cases h with
      | last => simp at hk
      | line hl hrest =>
          obtain ⟨hls, hm⟩ := ih (hk ▸ hrest)
          refine ⟨fun k hk => ?_, hm⟩
          rcases List.mem_cons.mp hk with rfl | hk
          · exact hl
          · exact hls k hk

/-- A text that ends with a line break has complete lines only. -/
theorem isLine_of_mem_lines {t : Text} (h : t = [] ∨ t.getLast? = some '\n') :
    ∀ l ∈ lines t, IsLine l := by
  have hlined : ∀ ls, Lined ls → (ls = [] ∨ ls.flatten.getLast? = some '\n') →
      ∀ l ∈ ls, IsLine l := by
    intro ls hls
    induction hls with
    | nil => exact fun _ l hl => absurd hl List.not_mem_nil
    | @last x hne hx =>
        intro h
        have hlast := h.resolve_left (by simp)
        rw [List.flatten_singleton] at hlast
        exact absurd (List.mem_of_getLast? hlast) hx
    | @line l ls hl hls ih =>
        intro h m hm
        rcases List.mem_cons.mp hm with rfl | hm
        · exact hl
        · refine ih (.inr ?_) m hm
          have hlast := h.resolve_left (by simp)
          have hne : ls.flatten ≠ [] := by
            intro hnil
            have hlines := hls.lines_flatten
            rw [hnil] at hlines
            rw [← hlines] at hm
            cases hm
          rwa [List.flatten_cons, List.getLast?_append_of_ne_nil _ hne] at hlast
  refine hlined (lines t) (lined_lines t) ?_
  rw [flatten_lines]
  exact h.imp_left fun hnil => by rw [hnil]; rfl

theorem getLast?_flatten {ls : List Text} (hls : ∀ l ∈ ls, IsLine l) :
    ls.flatten = [] ∨ ls.flatten.getLast? = some '\n' := by
  rcases List.eq_nil_or_concat ls with rfl | ⟨ms, m, rfl⟩
  · exact .inl rfl
  · obtain ⟨x, -, rfl⟩ := hls m (by simp)
    exact .inr (by simp)

theorem lines_append {a : Text} (ha : ∀ l ∈ lines a, IsLine l) (b : Text) :
    lines (a ++ b) = lines a ++ lines b := by
  have h := (Lined.append ha (lined_lines b)).lines_flatten
  rwa [List.flatten_append, flatten_lines, flatten_lines] at h

/-! ## The line that a text ends on -/

/-- What stands behind the last line feed. -/
def lastLine (t : Text) : Text := (t.reverse.takeWhile (· != '\n')).reverse

theorem lastLine_append {x : Text} (hx : '\n' ∉ x) (a : Text) :
    lastLine (a ++ x) = lastLine a ++ x := by
  unfold lastLine
  rw [List.reverse_append, List.takeWhile_append_of_pos, List.reverse_append,
    List.reverse_reverse]
  intro c hc
  have : c ≠ '\n' := fun h => hx (h ▸ List.mem_reverse.mp hc)
  simpa using this

theorem lastLine_newline (a : Text) : lastLine (a ++ ['\n']) = [] := by
  simp [lastLine]

end MdxMend.Text
