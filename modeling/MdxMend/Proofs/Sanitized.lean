import MdxMend.Settings.Basic
import MdxMend.Proofs.SmallLetters
import Mathlib.Data.List.DropRight

/-!
# Settings made fit for use

Cleaning leaves names that a second cleaning leaves alone: none is empty, none has a blank at an
end, none comes twice. For rule names and for names that are passed over this is all there is to
say, and sanitizing twice is the same as sanitizing once.

An extension also loses the dots in front and its capitals. Lower case is settled after one time,
but the dots are not: blanks are trimmed before the dots are taken and once more at the end, so a
dot that stands behind a dot and blanks comes to the front only when no dot is taken any more. Such
an extension *hides a dot*. Exactly these keep a dot in front, and exactly if there is one of them a
second sanitizing changes the settings: the one that shows its dot then gets shorter, and no other
can take its place.
-/

namespace MdxMend

/-! ## Trimmed texts -/

namespace Text

theorem dropEndWhile_eq (p : Char → Bool) (t : Text) : dropEndWhile p t = t.rdropWhile p := rfl

/-- Whether no blank stands at an end of the text. -/
def Bare (t : Text) : Prop :=
  (∀ c ∈ t.head?, isBlank c = false) ∧ ∀ c ∈ t.getLast?, isBlank c = false

theorem trim_eq_self {t : Text} (h : Bare t) : trim t = t := by
  have hfront : t.dropWhile isBlank = t := by
    cases t with
    | nil => rfl
    | cons c t => exact List.dropWhile_cons_of_neg (by simp [h.1 c rfl])
  rw [trim, hfront, dropEndWhile_eq, List.rdropWhile_eq_self_iff]
  intro hne
  rw [h.2 _ (List.getLast?_eq_getLast_of_ne_nil hne)]
  exact Bool.false_ne_true

theorem exists_dropEndWhile {p : Char → Bool} {c : Char} (hc : p c = false) (u v : Text) :
    ∃ w, dropEndWhile p (u ++ c :: v) = u ++ c :: w := by
  rw [dropEndWhile_eq]
  induction v using List.reverseRecOn with
  | nil => exact ⟨[], List.rdropWhile_concat_neg p u c (Bool.eq_false_iff.mp hc)⟩
  | append_singleton v d ih =>
      rw [← List.cons_append, ← List.append_assoc]
      by_cases hd : p d = true
      · rwa [List.rdropWhile_concat_pos p _ d hd]
      · exact ⟨v ++ [d], by rw [List.rdropWhile_concat_neg p _ d hd]; simp⟩

theorem head?_trim (t : Text) : (trim t).head? = (t.dropWhile isBlank).head? := by
  rw [trim]
  cases hdrop : t.dropWhile isBlank with
  | nil => rfl
  | cons c u =>
      have hc : isBlank c = false := head?_dropWhile c (congrArg List.head? hdrop)
      obtain ⟨w, hw⟩ := exists_dropEndWhile hc [] u
      rw [List.nil_append] at hw
      rw [hw]
      rfl

theorem bare_trim (t : Text) : Bare (trim t) := by
  constructor
  · intro c hc
    rw [head?_trim] at hc
    exact head?_dropWhile c hc
  · intro c hc
    obtain ⟨hne, rfl⟩ := List.mem_getLast?_eq_getLast hc
    exact Bool.eq_false_iff.mpr (List.rdropWhile_last_not isBlank _ hne)

theorem trim_sublist (t : Text) : (trim t).Sublist t :=
  (List.rdropWhile_prefix isBlank _).sublist.trans (List.dropWhile_sublist _)

theorem exists_dropWhile (p : Char → Bool) (t : Text) :
    ∃ x, t = x ++ t.dropWhile p ∧ ∀ c ∈ x, p c = true :=
  ⟨t.takeWhile p, List.takeWhile_append_dropWhile.symm, of_mem_takeWhile⟩

theorem exists_trim (t : Text) :
    ∃ x y, t = x ++ (trim t ++ y) ∧ ∀ c ∈ x, isBlank c = true := by
  obtain ⟨x, hx, hblank⟩ := exists_dropWhile isBlank t
  obtain ⟨y, hy⟩ := List.rdropWhile_prefix isBlank (t.dropWhile isBlank)
  refine ⟨x, y, ?_, hblank⟩
  rw [trim, dropEndWhile_eq, hy]
  exact hx

end Text

/-! ## Clean names -/

section
variable {α : Type} [BEq α]

theorem eraseDups_sublist : (l : List α) → l.eraseDups.Sublist l
  | [] => .slnil
  | a :: l => by
      rw [List.eraseDups_cons]
      exact ((eraseDups_sublist _).trans List.filter_sublist).cons_cons a
termination_by l => l.length
decreasing_by exact Nat.lt_succ_of_le (List.length_filter_le _ _)

variable [LawfulBEq α]

theorem nodup_eraseDups : (l : List α) → l.eraseDups.Nodup
  | [] => .nil
  | a :: l => by
      rw [List.eraseDups_cons, List.nodup_cons, List.mem_eraseDups]
      exact ⟨by simp, nodup_eraseDups _⟩
termination_by l => l.length
decreasing_by exact Nat.lt_succ_of_le (List.length_filter_le _ _)

theorem eraseDups_eq_self {l : List α} (h : l.Nodup) : l.eraseDups = l := by
  induction l with
  | nil => rfl
  | cons a l ih =>
      obtain ⟨ha, hl⟩ := List.nodup_cons.mp h
      have hfilter : l.filter (fun b => !b == a) = l := by
        rw [List.filter_eq_self]
        intro b hb
        simp only [Bool.not_eq_true', beq_eq_false_iff_ne]
        rintro rfl
        exact ha hb
      rw [List.eraseDups_cons, hfilter, ih hl]

end

/-- Names as cleaning leaves them: none with a blank at an end, none empty and none twice. -/
structure Clean (names : List String) : Prop where
  bare : ∀ n ∈ names, Text.Bare n.toList
  ne_empty : ∀ n ∈ names, n ≠ ""
  nodup : names.Nodup

theorem mem_cleanNames {names : List String} {n : String} :
    n ∈ cleanNames names ↔ n ≠ "" ∧ ∃ m ∈ names, trimmed m = n := by
  rw [cleanNames, List.mem_eraseDups, List.mem_filter, List.mem_map, bne_iff_ne, and_comm]

theorem clean_cleanNames (names : List String) : Clean (cleanNames names) where
  bare n hn := by
    obtain ⟨-, m, -, rfl⟩ := mem_cleanNames.mp hn
    rw [trimmed, String.toList_ofList]
    exact Text.bare_trim m.toList
  ne_empty n hn := (mem_cleanNames.mp hn).1
  nodup := nodup_eraseDups _

theorem trimmed_eq_self {s : String} (h : Text.Bare s.toList) : trimmed s = s := by
  rw [trimmed, Text.trim_eq_self h, String.ofList_toList]

namespace Clean

variable {names : List String} (h : Clean names)

include h

theorem map_trimmed : names.map trimmed = names :=
  (List.map_congr_left fun n hn => trimmed_eq_self (h.bare n hn)).trans (List.map_id' names)

theorem filter_ne_empty : names.filter (· != "") = names :=
  List.filter_eq_self.mpr fun n hn => bne_iff_ne.mpr (h.ne_empty n hn)

theorem cleanNames_eq : cleanNames names = names := by
  rw [cleanNames, h.map_trimmed, h.filter_ne_empty, eraseDups_eq_self h.nodup]

/-- Of a repeated name the first stays, so names that are there already can be added without a
trace. -/
theorem cleanNames_append {added : List String}
    (hadded : ∀ n ∈ added, trimmed n = "" ∨ trimmed n ∈ names) :
    cleanNames (names ++ added) = names := by
  have hnew : ((added.map trimmed).filter (· != "")).removeAll names = [] := by
    rw [List.removeAll, List.filter_eq_nil_iff]
    intro n hn
    obtain ⟨hmem, hne⟩ := List.mem_filter.mp hn
    obtain ⟨m, hm, rfl⟩ := List.mem_map.mp hmem
    simp [(hadded m hm).resolve_left (bne_iff_ne.mp hne)]
  rw [cleanNames, List.map_append, h.map_trimmed, List.filter_append, h.filter_ne_empty,
    List.eraseDups_append, hnew, eraseDups_eq_self h.nodup, List.eraseDups_nil, List.append_nil]

end Clean

theorem cleanNames_cleanNames (names : List String) :
    cleanNames (cleanNames names) = cleanNames names :=
  (clean_cleanNames names).cleanNames_eq

theorem map_cleanNames_again (names : Option (List String)) :
    (names.map cleanNames).map cleanNames = names.map cleanNames := by
  rw [Option.map_map]
  exact congrArg (names.map ·) (funext cleanNames_cleanNames)

/-- Cleaning that drops no name and leaves their list as it was has changed none of them. -/
theorem trimmed_of_cleanNames {names kept : List String} (h : cleanNames names = kept)
    (hlength : kept.length = names.length) : names.map trimmed = kept := by
  have hsub : (cleanNames names).Sublist (names.map trimmed) :=
    (eraseDups_sublist _).trans List.filter_sublist
  rw [← h]
  refine (hsub.eq_of_length ?_).symm
  rw [h, hlength, List.length_map]

/-! ## Extensions -/

/-- Whether the first character of the extension is a dot. -/
def Dotted (e : String) : Prop := e.toList.head? = some '.'

instance (e : String) : Decidable (Dotted e) := inferInstanceAs (Decidable (_ = _))

theorem Dotted.ne_empty {e : String} (h : Dotted e) : e ≠ "" := by
  rintro rfl
  cases h

theorem not_dotted_defaultExtensions : ∀ e ∈ defaultExtensions, ¬Dotted e := by
  decide

/-- Whether an extension begins with dots, but for blanks in front of them, and behind a gap of
blanks one more dot comes. -/
def HidesDot (e : String) : Prop :=
  ∃ blanks dots gap rest : Text, e.toList = blanks ++ (dots ++ (gap ++ '.' :: rest)) ∧
    dots ≠ [] ∧ gap ≠ [] ∧ (∀ c ∈ dots, c = '.') ∧ ∀ c ∈ blanks ++ gap, Text.isBlank c = true

section
variable {e : String}

theorem HidesDot.head?_dropWhile (h : HidesDot e) :
    ((withoutDots (trimmed e)).toList.dropWhile Text.isBlank).head? = some '.' := by
  obtain ⟨blanks, dots, gap, rest, he, hdots, hgap, hdot, hblank⟩ := h
  have hblanks : ∀ c ∈ blanks, Text.isBlank c = true :=
    fun c hc => hblank c (List.mem_append_left _ hc)
  have hgaps : ∀ c ∈ gap, Text.isBlank c = true :=
    fun c hc => hblank c (List.mem_append_right _ hc)
  -- Each of the stretches ends where the next one begins with another kind of character.
  have hfront : ∀ y, ∀ c ∈ (dots ++ y).head?, Text.isBlank c = false := by
    intro y c hc
    rw [List.head?_append_of_ne_nil _ hdots] at hc
    rw [hdot c (List.mem_of_mem_head? hc)]
    decide
  have hmiddle : ∀ y, ∀ c ∈ (gap ++ y).head?, (c == '.') = false := by
    intro y c hc
    rw [List.head?_append_of_ne_nil _ hgap] at hc
    rw [beq_eq_false_iff_ne]
    rintro rfl
    exact absurd (hgaps '.' (List.mem_of_mem_head? hc)) (by decide)
  obtain ⟨w, hw⟩ := Text.exists_dropEndWhile (p := Text.isBlank) (c := '.') (by decide)
    (dots ++ gap) rest
  rw [List.append_assoc, List.append_assoc] at hw
  rw [withoutDots, trimmed, String.toList_ofList, String.toList_ofList, Text.trim, he,
    Text.dropWhile_stop hblanks (hfront _), hw,
    Text.dropWhile_stop (fun c hc => beq_iff_eq.mpr (hdot c hc)) (hmiddle _),
    Text.dropWhile_stop hgaps (by simp; decide)]
  rfl

theorem hidesDot_of_head?_dropWhile
    (h : ((withoutDots (trimmed e)).toList.dropWhile Text.isBlank).head? = some '.') :
    HidesDot e := by
  rw [withoutDots, trimmed, String.toList_ofList, String.toList_ofList] at h
  obtain ⟨blanks, tail, he, hblank⟩ := Text.exists_trim e.toList
  have hbare := Text.bare_trim e.toList
  obtain ⟨rest, hrest⟩ := List.head?_eq_some_iff.mp h
  generalize Text.trim e.toList = k at he hbare hrest
  obtain ⟨dots, hk, hdot⟩ := Text.exists_dropWhile (· == '.') k
  obtain ⟨gap, hw, hgap⟩ := Text.exists_dropWhile Text.isBlank (k.dropWhile (· == '.'))
  have hhead := Text.head?_dropWhile_beq '.' k
  rw [hrest] at hw
  rw [hw] at hk hhead
  refine ⟨blanks, dots, gap, rest ++ tail, ?_, ?_, ?_, fun c hc => beq_iff_eq.mp (hdot c hc), ?_⟩
  · rw [he, hk]
    simp
  · -- Without dots in front there is no gap either, as nothing begins with a blank.
    rintro rfl
    cases gap with
    | nil => exact hhead rfl
    | cons c gap =>
        have hc := hbare.1 c (congrArg List.head? hk)
        rw [hgap c List.mem_cons_self] at hc
        cases hc
  · rintro rfl
    exact hhead rfl
  · intro c hc
    exact (List.mem_append.mp hc).elim (hblank c) (hgap c)

theorem hidesDot_iff :
    HidesDot e ↔ ((withoutDots (trimmed e)).toList.dropWhile Text.isBlank).head? = some '.' :=
  ⟨HidesDot.head?_dropWhile, hidesDot_of_head?_dropWhile⟩

end

instance (e : String) : Decidable (HidesDot e) := decidable_of_iff _ hidesDot_iff.symm

example : HidesDot " . .md" ∧ ¬HidesDot "..md" ∧ ¬HidesDot "a. .md" := by decide +kernel

/-- An extension without dots and capitals, before its ends are trimmed once more. -/
def plainForm (e : String) : String := lowercased (withoutDots (trimmed e))

theorem settled_plainForm (e : String) : ∀ c ∈ (trimmed (plainForm e)).toList, Text.Settled c := by
  intro c hc
  rw [plainForm, trimmed, lowercased, String.toList_ofList, String.toList_ofList] at hc
  exact Text.settled_of_mem_lowercase ((Text.trim_sublist _).mem hc)

theorem dotted_plainForm (e : String) : Dotted (trimmed (plainForm e)) ↔ HidesDot e := by
  rw [Dotted, plainForm, trimmed, lowercased, String.toList_ofList, String.toList_ofList,
    Text.head?_trim, Text.head?_dropWhile_lowercase, hidesDot_iff]

theorem lowercased_withoutDots {e : String} (h : ∀ c ∈ e.toList, Text.Settled c) :
    lowercased (withoutDots e) = withoutDots e := by
  have hsettled : ∀ c ∈ (withoutDots e).toList, Text.Settled c := by
    intro c hc
    rw [withoutDots, String.toList_ofList] at hc
    exact h c ((List.dropWhile_sublist _).mem hc)
  rw [lowercased, Text.lowercase_eq_self hsettled, String.ofList_toList]

theorem withoutDots_eq_self {e : String} (h : ¬Dotted e) : withoutDots e = e := by
  have hdots : e.toList.dropWhile (· == '.') = e.toList := by
    cases he : e.toList with
    | nil => rfl
    | cons c t =>
        refine List.dropWhile_cons_of_neg ?_
        rw [beq_iff_eq]
        rintro rfl
        exact h (congrArg List.head? he)
  rw [withoutDots, hdots, String.ofList_toList]

theorem length_withoutDots {e : String} (h : Dotted e) :
    (withoutDots e).toList.length < e.toList.length := by
  obtain ⟨t, ht⟩ := List.head?_eq_some_iff.mp h
  have hle := Text.length_dropWhile_le (· == '.') t
  rw [withoutDots, String.toList_ofList, ht, List.length_cons]
  exact Nat.lt_succ_of_le hle

section
variable {e : String} (hbare : Text.Bare e.toList) (hsettled : ∀ c ∈ e.toList, Text.Settled c)
include hbare hsettled

theorem plainForm_eq : plainForm e = withoutDots e := by
  rw [plainForm, trimmed_eq_self hbare, lowercased_withoutDots hsettled]

/-- A dot in front goes, and nothing is put in its place. -/
theorem trimmed_plainForm_ne (h : Dotted e) : trimmed (plainForm e) ≠ e := by
  intro heq
  have hle := (Text.trim_sublist (withoutDots e).toList).length_le
  have hlength := congrArg (fun s => s.toList.length) heq
  have hlt := length_withoutDots h
  simp only [plainForm_eq hbare hsettled, trimmed, String.toList_ofList] at hlength
  omega

end

namespace Settings

theorem cleanExtensions_cases (extensions : List String) :
    cleanExtensions extensions = defaultExtensions ∧ cleanNames (extensions.map plainForm) = [] ∨
      cleanExtensions extensions = cleanNames (extensions.map plainForm) ∧
        cleanNames (extensions.map plainForm) ≠ [] := by
  by_cases h : cleanNames (extensions.map plainForm) = []
  · exact .inl ⟨if_pos (List.isEmpty_iff.mpr h), h⟩
  · exact .inr ⟨if_neg (mt List.isEmpty_iff.mp h), h⟩

theorem clean_cleanExtensions (extensions : List String) : Clean (cleanExtensions extensions) := by
  rcases cleanExtensions_cases extensions with ⟨h, -⟩ | ⟨h, -⟩
  · have hdefault : cleanNames defaultExtensions = defaultExtensions := by decide +kernel
    rw [h, ← hdefault]
    exact clean_cleanNames _
  · rw [h]
    exact clean_cleanNames _

theorem cleanExtensions_ne_nil (extensions : List String) : cleanExtensions extensions ≠ [] := by
  rcases cleanExtensions_cases extensions with ⟨h, -⟩ | ⟨h, hne⟩
  · rw [h]
    exact List.cons_ne_nil _ _
  · rw [h]
    exact hne

theorem settled_cleanExtensions {extensions : List String} {e : String}
    (h : e ∈ cleanExtensions extensions) : ∀ c ∈ e.toList, Text.Settled c := by
  rcases cleanExtensions_cases extensions with ⟨heq, -⟩ | ⟨heq, -⟩
  · rw [heq] at h
    have hdefault : ∀ e ∈ defaultExtensions, trimmed (plainForm e) = e := by decide +kernel
    rw [← hdefault e h]
    exact settled_plainForm e
  · rw [heq, mem_cleanNames] at h
    obtain ⟨-, m, hm, rfl⟩ := h
    obtain ⟨x, -, rfl⟩ := List.mem_map.mp hm
    exact settled_plainForm x

theorem dotted_cleanExtensions (extensions : List String) :
    (∀ e ∈ cleanExtensions extensions, ¬Dotted e) ↔ ∀ x ∈ extensions, ¬HidesDot x := by
  constructor
  · intro h x hx hhides
    have hdotted := (dotted_plainForm x).mpr hhides
    have hmem : trimmed (plainForm x) ∈ cleanNames (extensions.map plainForm) :=
      mem_cleanNames.mpr ⟨hdotted.ne_empty, _, List.mem_map_of_mem hx, rfl⟩
    rcases cleanExtensions_cases extensions with ⟨-, hnil⟩ | ⟨heq, -⟩
    · rw [hnil] at hmem
      cases hmem
    · exact h _ (heq ▸ hmem) hdotted
  · intro h e he hdotted
    rcases cleanExtensions_cases extensions with ⟨heq, -⟩ | ⟨heq, -⟩
    · exact not_dotted_defaultExtensions e (heq ▸ he) hdotted
    · rw [heq, mem_cleanNames] at he
      obtain ⟨-, m, hm, rfl⟩ := he
      obtain ⟨x, hx, rfl⟩ := List.mem_map.mp hm
      exact h x hx ((dotted_plainForm x).mp hdotted)

/-- Sanitizing extensions that are clean and in lower case leaves them exactly if none of them has a
dot in front. Nothing is dropped then, so each stands where it stood, and none got shorter. -/
theorem cleanExtensions_eq_self_iff {extensions : List String} (hclean : Clean extensions)
    (hsettled : ∀ e ∈ extensions, ∀ c ∈ e.toList, Text.Settled c) (hne : extensions ≠ []) :
    cleanExtensions extensions = extensions ↔ ∀ e ∈ extensions, ¬Dotted e := by
  constructor
  · intro h e he
    rcases cleanExtensions_cases extensions with ⟨heq, -⟩ | ⟨heq, -⟩
    · exact not_dotted_defaultExtensions e (heq ▸ h.symm ▸ he)
    · have hmap := trimmed_of_cleanNames (heq.symm.trans h) (List.length_map plainForm).symm
      rw [List.map_map] at hmap
      have hsame : trimmed (plainForm e) = e :=
        List.map_inj_left.mp (hmap.trans (List.map_id extensions).symm) e he
      exact fun hdotted => trimmed_plainForm_ne (hclean.bare e he) (hsettled e he) hdotted hsame
  · intro h
    have hsame : ∀ e ∈ extensions, plainForm e = e := by
      intro e he
      rw [plainForm_eq (hclean.bare e he) (hsettled e he), withoutDots_eq_self (h e he)]
    have hmap : extensions.map plainForm = extensions :=
      (List.map_congr_left hsame).trans (List.map_id extensions)
    rcases cleanExtensions_cases extensions with ⟨-, hnil⟩ | ⟨heq, -⟩
    · rw [hmap, hclean.cleanNames_eq] at hnil
      exact absurd hnil hne
    · rw [heq, hmap, hclean.cleanNames_eq]

/-- Only extensions can change when settings are sanitized again. -/
theorem sanitize_sanitize_iff (s : Settings) :
    s.sanitize.sanitize = s.sanitize ↔
      cleanExtensions s.sanitize.extensions = s.sanitize.extensions := by
  constructor
  · exact congrArg extensions
  · intro h
    show Settings.mk _ _ _ _ _ _ = Settings.mk _ _ _ _ _ _
    rw [Settings.mk.injEq]
    exact ⟨map_cleanNames_again _, cleanNames_cleanNames _, rfl, rfl, h, cleanNames_cleanNames _⟩

/-- Sanitizing leaves every list of names clean and some extension to look at. A second time changes
nothing, and no extension keeps a dot in front, exactly if none that was given hides a dot; then all
of them are handled. One that keeps dots is handled only if it is also there without them. -/
theorem sanitize_again (s : Settings) :
    let n := s.sanitize
    let calm := ∀ e ∈ s.extensions, ¬HidesDot e
    (∀ names ∈ n.enable, Clean names) ∧ Clean n.disable ∧ Clean n.extensions ∧ Clean n.ignored ∧
      n.extensions ≠ [] ∧ (n.sanitize = n ↔ calm) ∧
      ((∀ e ∈ n.extensions, ¬Dotted e) ↔ calm) ∧
      (calm → ∀ e ∈ n.extensions, n.handlesExtension e = true) ∧
      ∀ e ∈ n.extensions, n.handlesExtension e = true ↔ withoutDots e ∈ n.extensions := by
  intro n calm
  have henable : ∀ names ∈ n.enable, Clean names := by
    intro names hnames
    obtain ⟨given, -, rfl⟩ := Option.map_eq_some_iff.mp hnames
    exact clean_cleanNames given
  have hextensions : Clean n.extensions := clean_cleanExtensions s.extensions
  have hsettled : ∀ e ∈ n.extensions, ∀ c ∈ e.toList, Text.Settled c :=
    fun e he => settled_cleanExtensions he
  have hne : n.extensions ≠ [] := cleanExtensions_ne_nil s.extensions
  have hdots : (∀ e ∈ n.extensions, ¬Dotted e) ↔ calm := dotted_cleanExtensions s.extensions
  have hhandles : ∀ e ∈ n.extensions,
      n.handlesExtension e = true ↔ withoutDots e ∈ n.extensions := by
    intro e he
    rw [handlesExtension, lowercased_withoutDots (hsettled e he), List.contains_iff_mem]
  refine ⟨henable, clean_cleanNames _, hextensions, clean_cleanNames _, hne, ?_, hdots, ?_,
    hhandles⟩
  · exact (sanitize_sanitize_iff s).trans
      ((cleanExtensions_eq_self_iff hextensions hsettled hne).trans hdots)
  · intro hcalm e he
    rw [hhandles e he, withoutDots_eq_self (hdots.mpr hcalm e he)]
    exact he

/-- The dot behind the blank comes to the front, and stays there until the next time. -/
example :
    let s : Settings := { extensions := [". .MD", "mdx"] }
    s.sanitize.extensions = [".md", "mdx"] ∧ s.sanitize.handlesExtension ".md" = false ∧
      s.sanitize.sanitize.extensions = ["md", "mdx"] := by
  decide +kernel

end Settings

end MdxMend
