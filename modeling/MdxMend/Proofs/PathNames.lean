import MdxMend.Proofs.Ways
import Mathlib.Data.List.TakeWhile

/-!
# Names in a path

To a store a path is the names between its slashes, and whether it starts at the root. Nothing else
of how it is written counts, but for a slash at the end (`stepsOf_eq`). A path that is read from
another has its names behind those of the other (`namesOf_join`). The folder that a path is in has
the same names without the last one, up to dots, which stay where they are (`names_parent`).
-/

namespace MdxMend

namespace Path

open Text

variable {c : UInt8} {t u : List UInt8} {pieces : List (List UInt8)}

theorem piecesOf_slash (t : List UInt8) : piecesOf (slash :: t) = [] :: piecesOf t := rfl

theorem piecesOf_ne_nil (t : List UInt8) : piecesOf t ≠ [] := by
  cases t with
  | nil => exact List.cons_ne_nil _ _
  | cons c t =>
      rw [piecesOf, split]
      split
      · exact List.cons_ne_nil _ _
      · split <;> exact List.cons_ne_nil _ _

theorem piecesOf_cons (hc : c ≠ slash) {piece : List UInt8} (h : piecesOf t = piece :: pieces) :
    piecesOf (c :: t) = (c :: piece) :: pieces := by
  rw [piecesOf] at h ⊢
  rw [split, h]
  simp [hc]

/-- A slash separates the pieces in front of it from those behind it. -/
theorem piecesOf_append_slash (t u : List UInt8) :
    piecesOf (t ++ slash :: u) = piecesOf t ++ piecesOf u := by
  induction t with
  | nil => rfl
  | cons c t ih =>
      by_cases hc : c = slash
      · rw [hc, List.cons_append, piecesOf_slash, ih, piecesOf_slash, List.cons_append]
      · obtain ⟨piece, pieces, h⟩ := List.exists_cons_of_ne_nil (piecesOf_ne_nil t)
        rw [h, List.cons_append] at ih
        rw [List.cons_append, piecesOf_cons hc ih, piecesOf_cons hc h, List.cons_append]

theorem piecesOf_of_not_mem (h : slash ∉ t) : piecesOf t = [t] := by
  induction t with
  | nil => rfl
  | cons c t ih =>
      rw [List.mem_cons, not_or] at h
      exact piecesOf_cons (Ne.symm h.1) (ih h.2)

theorem slash_not_mem_of_mem_piecesOf : ∀ piece ∈ piecesOf t, slash ∉ piece := by
  induction t with
  | nil => simp [piecesOf, split]
  | cons c t ih =>
      by_cases hc : c = slash
      · rw [hc, piecesOf_slash]
        exact List.forall_mem_cons.mpr ⟨List.not_mem_nil, ih⟩
      · obtain ⟨piece, pieces, h⟩ := List.exists_cons_of_ne_nil (piecesOf_ne_nil t)
        rw [h, List.forall_mem_cons] at ih
        rw [piecesOf_cons hc h, List.forall_mem_cons]
        exact ⟨by simp [Ne.symm hc, ih.1], ih.2⟩

theorem joinPieces_cons_cons (piece next : List UInt8) (pieces : List (List UInt8)) :
    joinPieces (piece :: next :: pieces) = piece ++ slash :: joinPieces (next :: pieces) := by
  simp [joinPieces, List.intercalate]

/-- A text is its pieces put together again. -/
theorem joinPieces_piecesOf (t : List UInt8) : joinPieces (piecesOf t) = t := by
  induction t with
  | nil => rfl
  | cons c t ih =>
      obtain ⟨piece, pieces, h⟩ := List.exists_cons_of_ne_nil (piecesOf_ne_nil t)
      by_cases hc : c = slash
      · rw [hc, piecesOf_slash, h, joinPieces_cons_cons, ← h, ih, List.nil_append]
      · rw [piecesOf_cons hc h, ← ih, h]
        cases pieces with
        | nil => rfl
        | cons next pieces => rw [joinPieces_cons_cons, joinPieces_cons_cons, List.cons_append]

theorem piecesOf_joinPieces (hne : pieces ≠ []) (h : ∀ piece ∈ pieces, slash ∉ piece) :
    piecesOf (joinPieces pieces) = pieces := by
  induction pieces with
  | nil => exact absurd rfl hne
  | cons piece pieces ih =>
      rw [List.forall_mem_cons] at h
      have hpiece := piecesOf_of_not_mem h.1
      cases pieces with
      | nil => simpa [joinPieces] using hpiece
      | cons next pieces =>
          rw [joinPieces_cons_cons, piecesOf_append_slash, hpiece,
            ih (List.cons_ne_nil _ _) h.2, List.singleton_append]

/-! ## Names -/

/-- The names among pieces. -/
def namesIn (pieces : List (List UInt8)) : List RawText := (pieces.filter (· != [])).map RawText.mk

/-- The names in a text, in their order. -/
def namesOf (t : List UInt8) : List RawText := namesIn (piecesOf t)

theorem namesIn_append (pieces next : List (List UInt8)) :
    namesIn (pieces ++ next) = namesIn pieces ++ namesIn next := by
  rw [namesIn, List.filter_append, List.map_append, namesIn, namesIn]

theorem namesOf_append_slash (t u : List UInt8) :
    namesOf (t ++ slash :: u) = namesOf t ++ namesOf u := by
  rw [namesOf, piecesOf_append_slash, namesIn_append, namesOf, namesOf]

theorem namesOf_slash (t : List UInt8) : namesOf (slash :: t) = namesOf t :=
  namesOf_append_slash [] t

/-- A dot at the start is a name by itself if a slash follows, or nothing at all. -/
theorem namesOf_dot (h : ∀ c ∈ t.head?, c = slash) :
    namesOf (dot :: t) = ("." : RawText) :: namesOf t := by
  cases t with
  | nil => rfl
  | cons c t =>
      obtain rfl := h c rfl
      rw [← List.singleton_append (l := slash :: t), namesOf_append_slash, namesOf_slash]
      rfl

theorem namesOf_of_not_mem (h : slash ∉ t) (hne : t ≠ []) : namesOf t = [RawText.mk t] := by
  simp [namesOf, piecesOf_of_not_mem h, namesIn, hne]

theorem namesOf_joinPieces (h : ∀ piece ∈ pieces, slash ∉ piece) :
    namesOf (joinPieces pieces) = namesIn pieces := by
  cases pieces with
  | nil => rfl
  | cons piece pieces => rw [namesOf, piecesOf_joinPieces (List.cons_ne_nil _ _) h]

theorem joinPieces_append {next : List (List UInt8)} (hne : pieces ≠ []) (hnext : next ≠ []) :
    joinPieces (pieces ++ next) = joinPieces pieces ++ slash :: joinPieces next := by
  induction pieces with
  | nil => exact absurd rfl hne
  | cons piece pieces ih =>
      cases pieces with
      | nil =>
          obtain ⟨first, next, rfl⟩ := List.exists_cons_of_ne_nil hnext
          rw [List.singleton_append, joinPieces_cons_cons]
          simp [joinPieces]
      | cons second pieces =>
          rw [List.cons_append, List.cons_append, joinPieces_cons_cons, ← List.cons_append,
            ih (List.cons_ne_nil _ _), joinPieces_cons_cons, List.append_assoc, List.cons_append]

/-- The last piece is empty only where a text ends in a slash. -/
theorem getLast?_piecesOf (hne : t ≠ []) (h : (piecesOf t).getLast? = some []) :
    t.getLast? = some slash := by
  obtain ⟨pieces, hpieces⟩ := List.getLast?_eq_some_iff.mp h
  have hjoin := joinPieces_piecesOf t
  rw [hpieces] at hjoin
  cases pieces with
  | nil => exact absurd hjoin.symm hne
  | cons piece pieces =>
      rw [joinPieces_append (List.cons_ne_nil _ _) (List.cons_ne_nil _ _)] at hjoin
      rw [← hjoin, List.getLast?_append]
      rfl

theorem stepsOf_eq {p : Path} (hne : p.raw.bytes ≠ [])
    (h : p.raw.bytes.getLast? ≠ some slash) : Store.stepsOf p = namesOf p.raw.bytes := by
  unfold Store.stepsOf
  rw [if_neg (by simpa using fun hlast => h (getLast?_piecesOf hne hlast))]
  rfl

theorem stepsOf_slash {p : Path} (h : p.raw.bytes.getLast? = some slash) :
    Store.stepsOf p = namesOf p.raw.bytes ++ [Store.slashStep] := by
  obtain ⟨t, ht⟩ := List.getLast?_eq_some_iff.mp h
  have hlast : (piecesOf p.raw.bytes).getLast? = some [] := by
    rw [ht, piecesOf_append_slash]
    exact List.getLast?_concat
  unfold Store.stepsOf
  rw [if_pos (by simpa using hlast)]
  rfl

/-! ## A path read from another -/

section Join

variable {q : Path} {name : RawText} (hname : slash ∉ name.bytes)

include hname

theorem isAbsolute_ofRaw : (Path.ofRaw name).isAbsolute = false := by
  rw [isAbsolute, beq_eq_false_iff_ne]
  exact fun h => hname (List.mem_of_head? h)

theorem bytes_join :
    (q.join ⟨name⟩).raw.bytes =
      if q.raw.bytes = [] ∨ q.raw.bytes.getLast? = some slash then q.raw.bytes ++ name.bytes
      else q.raw.bytes ++ slash :: name.bytes := by
  have hslash : (RawText.ofString "/").bytes = [slash] := by decide
  rw [join, isAbsolute_ofRaw hname]
  simp only [Bool.false_eq_true, if_false, Bool.or_eq_true, isEmpty, List.isEmpty_iff, beq_iff_eq]
  split <;> simp [hslash]

theorem isAbsolute_join : (q.join ⟨name⟩).isAbsolute = q.isAbsolute := by
  have hrel : (name.bytes.head? == some slash) = false := isAbsolute_ofRaw hname
  rw [isAbsolute, bytes_join hname, isAbsolute]
  cases hq : q.raw.bytes with
  | nil => simpa using hrel
  | cons c t => split <;> rfl

variable (hne : name.bytes ≠ [])

include hne

theorem namesOf_join : namesOf (q.join ⟨name⟩).raw.bytes = namesOf q.raw.bytes ++ [name] := by
  have hlast : namesOf name.bytes = [name] := namesOf_of_not_mem hname hne
  rw [bytes_join hname]
  split
  · next hq =>
      rcases hq with hq | hq
      · rw [hq, List.nil_append, hlast]
        rfl
      · obtain ⟨t, ht⟩ := List.getLast?_eq_some_iff.mp hq
        rw [ht, List.append_assoc, List.singleton_append, namesOf_append_slash,
          namesOf_append_slash, hlast, List.append_assoc]
        rfl
  · rw [namesOf_append_slash, hlast]

theorem stepsOf_join : Store.stepsOf (q.join ⟨name⟩) = namesOf q.raw.bytes ++ [name] := by
  have hlast : (q.join ⟨name⟩).raw.bytes.getLast? = name.bytes.getLast? := by
    rw [bytes_join hname]
    obtain ⟨c, t, ht⟩ := List.exists_cons_of_ne_nil hne
    split <;> simp [ht, List.getLast?_append, List.getLast?_cons]
  rw [← namesOf_join hname hne]
  refine stepsOf_eq (fun h => ?_) (fun h => ?_)
  · rw [h] at hlast
    exact hne (List.getLast?_eq_none_iff.mp hlast.symm)
  · exact hname (List.mem_of_getLast? (hlast ▸ h))

end Join

/-! ## A single name -/

/-- A step that does not stay in its folder is not empty. -/
theorem ne_nil_of_moves {name : RawText} (h : Store.staysHere name = false) : name.bytes ≠ [] := by
  intro hnil
  obtain rfl : name = Store.slashStep := RawText.ext hnil
  cases h

/-- A name that is a path by itself. -/
structure IsPlain (name : RawText) : Prop extends Store.IsName name where
  no_slash : slash ∉ name.bytes
  no_nul : 0 ∉ name.bytes

section Plain

variable {name : RawText} (h : IsPlain name)

include h

theorem IsPlain.ne_nil : name.bytes ≠ [] := ne_nil_of_moves h.moves

theorem IsPlain.fault : Store.pathFault? ⟨name⟩ = none := by
  have hnul : ¬ (ofRaw name).raw.bytes.contains 0 = true := by simpa using h.no_nul
  have hempty : ¬ (ofRaw name).isEmpty = true := by simpa [isEmpty] using h.ne_nil
  have hsize : ¬ Store.maxPathSize < (ofRaw name).raw.size :=
    Nat.not_lt.mpr (h.size_le.trans (by decide))
  rw [Store.pathFault?, if_neg hnul, if_neg hempty, if_neg hsize]

theorem IsPlain.steps : Store.stepsOf ⟨name⟩ = [name] := by
  rw [stepsOf_eq (p := ⟨name⟩) h.ne_nil (fun hlast => h.no_slash (List.mem_of_getLast? hlast)),
    namesOf_of_not_mem h.no_slash h.ne_nil]

theorem IsPlain.start (l : Location) : Store.startOf ⟨name⟩ l = l := by
  rw [Store.startOf, isAbsolute_ofRaw h.no_slash]
  rfl

/-- Where a single name leads. -/
theorem IsPlain.resolve_eq (s : Store) (purpose : Store.Purpose) :
    s.resolve purpose ⟨name⟩ = s.walk purpose Store.maxLinks s.here [name] := by
  rw [Store.resolve, h.fault, h.steps, h.start]

/-- A single name leads to what has that name here, unless that is a link. -/
theorem IsPlain.resolve_taken {s : Store} {n : Store.Node} (hhere : s.get? s.here = some .folder)
    (hn : s.get? (name :: s.here) = some n) (hlink : ∀ target, n ≠ .link target) :
    s.resolve .follow ⟨name⟩ = .ok (.taken (name :: s.here) n) := by
  rw [h.resolve_eq, Store.walk_down hhere h.toIsName (by simp) hn hlink]
  exact Store.walk_here hn

end Plain

/-! ## Paths in order -/

theorem dropRepeats_of_pairwise {paths : List Path} (h : paths.Pairwise fun p q => ¬ p.same q) :
    dropRepeats paths = paths := by
  induction paths with
  | nil => rw [dropRepeats]
  | cons p paths ih =>
      rw [List.pairwise_cons] at h
      have hnext : paths.dropWhile p.same = paths := by
        cases paths with
        | nil => rfl
        | cons q paths => exact List.dropWhile_cons_of_neg (h.1 q List.mem_cons_self)
      rw [dropRepeats, hnext, ih h.2]

theorem sortDistinct_of_pairwise {paths : List Path}
    (h : paths.Pairwise fun p q => (compare p q).isLE = true ∧ ¬ p.same q) :
    sortDistinct paths = paths := by
  rw [sortDistinct, List.mergeSort_of_pairwise (h.imp And.left),
    dropRepeats_of_pairwise (h.imp And.right)]

/-! ## The folder of a path -/

/-- Only pieces that mean nothing are cut off at the end. -/
theorem exists_trimPieces (pieces : List (List UInt8)) :
    ∃ noise, pieces = trimPieces pieces ++ noise ∧ ∀ piece ∈ noise, isStep piece = false := by
  refine ⟨(pieces.reverse.takeWhile fun piece => !isStep piece).reverse, ?_, fun piece h => ?_⟩
  · rw [trimPieces, ← List.reverse_append, List.takeWhile_append_dropWhile, List.reverse_reverse]
  · rw [List.mem_reverse] at h
    simpa using List.mem_takeWhile_imp h

theorem trimPieces_concat {piece : List UInt8} (h : isStep piece = true) :
    trimPieces (pieces ++ [piece]) = pieces ++ [piece] := by
  rw [trimPieces, List.reverse_append, List.reverse_singleton, List.singleton_append,
    List.dropWhile_cons_of_neg (by simp [h]), List.reverse_cons, List.reverse_reverse]

theorem namesIn_noise (h : ∀ piece ∈ pieces, isStep piece = false) :
    ∀ name ∈ namesIn pieces, name = "." := by
  intro name hname
  obtain ⟨piece, hmem, rfl⟩ := List.mem_map.mp hname
  obtain ⟨hmem, hne⟩ := List.mem_filter.mp hmem
  have hstep := h piece hmem
  rw [isStep, hne, Bool.true_and] at hstep
  obtain rfl : piece = [dot] := by simpa using hstep
  rfl

/-- What is cut off at the end are dots. -/
theorem exists_dots (h : ∀ piece ∈ pieces, slash ∉ piece) :
    ∃ dots, namesIn pieces = namesOf (joinPieces (trimPieces pieces)) ++ dots ∧
      ∀ dot ∈ dots, dot = "." := by
  obtain ⟨noise, hnoise, hdots⟩ := exists_trimPieces pieces
  refine ⟨namesIn noise, ?_, namesIn_noise hdots⟩
  rw [namesOf_joinPieces, ← namesIn_append, ← hnoise]
  exact fun piece hpiece => h piece (hnoise ▸ List.mem_append_left _ hpiece)

theorem head?_joinPieces_trim (pieces : List (List UInt8)) :
    ∀ c ∈ (joinPieces (trimPieces ([] :: pieces))).head?, c = slash := by
  obtain ⟨noise, hnoise, -⟩ := exists_trimPieces ([] :: pieces)
  cases htrim : trimPieces ([] :: pieces) with
  | nil => simp [joinPieces]
  | cons first rest =>
      rw [htrim] at hnoise
      obtain ⟨rfl, -⟩ := List.cons.inj hnoise
      cases rest with
      | nil => simp [joinPieces]
      | cons next rest => simp [joinPieces_cons_cons]

/-- Cutting pieces off changes nothing at the start. -/
theorem head?_of_trimPieces {piece : List UInt8} {c : UInt8} (h : piecesOf t = pieces ++ [piece])
    (hc : (joinPieces (trimPieces pieces)).head? = some c) : t.head? = some c := by
  obtain ⟨noise, hnoise, -⟩ := exists_trimPieces pieces
  have hne : trimPieces pieces ≠ [] := by
    intro hnil
    rw [hnil] at hc
    cases hc
  rw [← joinPieces_piecesOf t, h, hnoise, List.append_assoc, joinPieces_append hne (by simp),
    List.head?_append, hc]
  rfl

theorem front_cases (t : List UInt8) :
    (∃ rest, t = slash :: rest ∧ front t = (some .root, [slash], rest)) ∨ t = [dot] ∨
      (∃ rest, t = dot :: slash :: rest ∧ front t = (some .here, [dot], slash :: rest)) ∨
      (t.head? ≠ some slash ∧ front t = (none, [], t)) := by
  unfold front
  split
  · exact .inl ⟨_, rfl, rfl⟩
  · exact .inr (.inl rfl)
  · exact .inr (.inr (.inl ⟨_, rfl, rfl⟩))
  · next h _ _ =>
      refine .inr (.inr (.inr ⟨fun hhead => ?_, rfl⟩))
      obtain ⟨rest, hrest⟩ := List.head?_eq_some_iff.mp hhead
      exact h rest hrest

section Parent

variable {p : Path} {piece : List UInt8} (hstep : isStep piece = true)

include hstep

theorem parent?_of_front {first : Option Component} {written rest : List UInt8}
    (hfront : front p.raw.bytes = (first, written, rest))
    (hrest : piecesOf rest = pieces ++ [piece]) :
    p.parent? = some ⟨RawText.mk (written ++ joinPieces (trimPieces pieces))⟩ := by
  obtain ⟨head, tail, hcons⟩ : ∃ head tail, pieces ++ [piece] = head :: tail :=
    List.exists_cons_of_ne_nil (List.append_ne_nil_of_right_ne_nil _ (List.cons_ne_nil _ _))
  have hdrop : (head :: tail).dropLast = pieces := by rw [← hcons, List.dropLast_concat]
  unfold parent?
  rw [hfront]
  simp only [hrest, trimPieces_concat hstep]
  rw [hcons]
  simp only [hdrop]

theorem exists_cons_of_concat {first : List UInt8} {others : List (List UInt8)}
    (h : first :: others = pieces ++ [piece]) (hfirst : isStep first = false) :
    ∃ ps, pieces = first :: ps ∧ others = ps ++ [piece] := by
  cases pieces with
  | nil =>
      obtain ⟨rfl, -⟩ := List.cons.inj h
      rw [hstep] at hfirst
      cases hfirst
  | cons head ps =>
      obtain ⟨rfl, hrest⟩ := List.cons.inj h
      exact ⟨ps, rfl, hrest⟩

/-- The path without its last name, where the path ends in a name: up to dots it has the other
names, and it starts where the path starts. -/
theorem names_parent (hpieces : piecesOf p.raw.bytes = pieces ++ [piece]) :
    ∃ q, p.parent? = some q ∧ q.isAbsolute = p.isAbsolute ∧
      ∃ dots, namesIn pieces = namesOf q.raw.bytes ++ dots ∧ ∀ dot ∈ dots, dot = "." := by
  have hslash : ∀ piece ∈ pieces, slash ∉ piece := fun piece h =>
    slash_not_mem_of_mem_piecesOf piece (hpieces ▸ List.mem_append_left _ h)
  rcases front_cases p.raw.bytes with
    ⟨rest, ht, hfront⟩ | ht | ⟨rest, ht, hfront⟩ | ⟨hrel, hfront⟩
  · -- The root stays in front of what is left of the rest.
    rw [ht, piecesOf_slash] at hpieces
    obtain ⟨ps, rfl, hrest⟩ := exists_cons_of_concat hstep hpieces rfl
    obtain ⟨dots, hnames, hdots⟩ := exists_dots (List.forall_mem_cons.mp hslash).2
    refine ⟨_, parent?_of_front hstep hfront hrest, ?_, dots, ?_, hdots⟩
    · rw [isAbsolute, isAbsolute, ht]
      rfl
    · change namesIn ([] :: ps) = namesOf (slash :: joinPieces (trimPieces ps)) ++ dots
      rw [namesOf_slash, ← hnames]
      rfl
  · obtain rfl : piece = [dot] := by
      rw [ht] at hpieces
      have hlast := congrArg List.getLast? hpieces
      rw [List.getLast?_concat] at hlast
      exact (Option.some.inj hlast).symm
    cases hstep
  · -- The dot stays in front, and so does the slash unless nothing is left behind it.
    rw [ht, ← List.singleton_append (l := slash :: rest), piecesOf_append_slash] at hpieces
    change [dot] :: piecesOf rest = _ at hpieces
    obtain ⟨ps, rfl, hrest⟩ := exists_cons_of_concat hstep hpieces rfl
    have hbehind : piecesOf (slash :: rest) = ([] :: ps) ++ [piece] := by
      rw [piecesOf_slash, hrest, List.cons_append]
    have hslash' : ∀ piece ∈ [] :: ps, slash ∉ piece :=
      List.forall_mem_cons.mpr ⟨List.not_mem_nil, (List.forall_mem_cons.mp hslash).2⟩
    obtain ⟨dots, hnames, hdots⟩ := exists_dots hslash'
    refine ⟨_, parent?_of_front hstep hfront hbehind, ?_, dots, ?_, hdots⟩
    · rw [isAbsolute, isAbsolute, ht]
      rfl
    · rw [List.singleton_append, namesOf_dot (head?_joinPieces_trim ps),
        List.cons_append, ← hnames]
      rfl
  · obtain ⟨dots, hnames, hdots⟩ := exists_dots hslash
    refine ⟨_, parent?_of_front hstep hfront hpieces, ?_, dots, ?_, hdots⟩
    · rw [isAbsolute, isAbsolute, beq_eq_false_iff_ne.mpr hrel, beq_eq_false_iff_ne,
        List.nil_append]
      exact fun hhead => hrel (head?_of_trimPieces hpieces hhead)
    · rw [List.nil_append, hnames]

end Parent

/-- What does not end in a slash ends in a name. -/
theorem exists_last_name (hne : t ≠ []) (hslash : t.getLast? ≠ some slash) :
    ∃ pieces piece, piecesOf t = pieces ++ [piece] ∧ piece ≠ [] ∧
      namesOf t = namesIn pieces ++ [RawText.mk piece] := by
  obtain ⟨pieces, piece, hpieces⟩ : ∃ pieces piece, piecesOf t = pieces ++ [piece] :=
    ⟨_, _, (List.dropLast_concat_getLast (piecesOf_ne_nil _)).symm⟩
  have hpiece : piece ≠ [] := by
    rintro rfl
    exact hslash (getLast?_piecesOf hne (by rw [hpieces, List.getLast?_concat]))
  refine ⟨pieces, piece, hpieces, hpiece, ?_⟩
  rw [namesOf, hpieces, namesIn_append]
  simp [namesIn, hpiece]

/-- The folder of a path that ends in a name. -/
theorem exists_parent {p : Path} {init : List RawText} {name : RawText}
    (hnames : namesOf p.raw.bytes = init ++ [name]) (hslash : p.raw.bytes.getLast? ≠ some slash)
    (hname : name ≠ ".") :
    ∃ q dots, p.parent? = some q ∧ q.isAbsolute = p.isAbsolute ∧
      init = namesOf q.raw.bytes ++ dots ∧ ∀ dot ∈ dots, dot = "." := by
  have hne : p.raw.bytes ≠ [] := by
    intro hnil
    rw [hnil] at hnames
    exact List.append_ne_nil_of_right_ne_nil init (List.cons_ne_nil _ _) hnames.symm
  obtain ⟨pieces, piece, hpieces, hpiece, hsplit⟩ := exists_last_name hne hslash
  obtain ⟨rfl, hlast⟩ := List.append_inj' (hnames.symm.trans hsplit) rfl
  obtain rfl := List.singleton_inj.mp hlast
  have hstep : isStep piece = true := by
    have hdot : piece ≠ [dot] := by
      rintro rfl
      exact hname rfl
    simp [isStep, hpiece, hdot]
  obtain ⟨q, hq, habs, dots, hinit, hdots⟩ := names_parent hstep hpieces
  exact ⟨q, dots, hq, habs, hinit, hdots⟩

end Path

end MdxMend
