import MdxMend.Pattern.Reader
import MdxMend.Proofs.Backtracking
import MdxMend.Proofs.Splicing
import MdxMend.Rule.Builtin

/-!
# What the built-in patterns match as they are written

The built-in rules say what they match by functions on places, and show beside it how their patterns
are written. The two agree: a built-in pattern is what reading its text gives
(`Builtin.ofSource_source`).

The functions take the longest run and never go back. Reading gives a pattern that would try shorter
runs too, so it has to be shown that a shorter run leads nowhere the longest does not: what comes
behind a run fails in front of one more character of the run whenever it fails behind it
(`Attempt.loop_run`).
-/

namespace MdxMend

variable {set : CharSet} {c : Trial}

namespace Attempt

/-- Whether a trial fails in front of a character of the set if it fails behind it, so that going
back over the character is of no use. -/
def NoneBefore (set : CharSet) (c : Trial) : Prop :=
  ∀ n b d rest, set.contains d = true → c (n + 1) ⟨some d, rest⟩ = none → c n ⟨b, d :: rest⟩ = none

/-- Behind the longest run of characters of a set. -/
def behindRun (set : CharSet) (c : Trial) (n : Nat) (p : Place) : Option Outcome :=
  let run := p.after.takeWhile set.contains
  c (n + run.length) ⟨run.getLast?.or p.before, p.after.dropWhile set.contains⟩

theorem behindRun_cons {n : Nat} {b : Option Char} {d : Char} {rest : Text}
    (hd : set.contains d = true) :
    behindRun set c n ⟨b, d :: rest⟩ = behindRun set c (n + 1) ⟨some d, rest⟩ := by
  simp only [behindRun, List.takeWhile_cons_of_pos hd, List.dropWhile_cons_of_pos hd,
    List.length_cons, List.getLast?_cons]
  rw [Nat.add_right_comm, Nat.add_assoc]
  cases (rest.takeWhile set.contains).getLast? <;> rfl

theorem behindRun_of_head {n : Nat} {p : Place} (h : p.after.head?.any set.contains = false) :
    behindRun set c n p = c n p := by
  obtain ⟨b, t⟩ := p
  cases t with
  | nil => rfl
  | cons d rest =>
      have hd : ¬set.contains d = true := by simpa using h
      simp [behindRun, List.takeWhile_cons_of_neg hd, List.dropWhile_cons_of_neg hd]

theorem none_of_behindRun (h : NoneBefore set c) {n : Nat} {b : Option Char} {t : Text}
    (hnone : behindRun set c n ⟨b, t⟩ = none) : c n ⟨b, t⟩ = none := by
  induction t generalizing n b with
  | nil => exact hnone
  | cons d rest ih =>
      by_cases hd : set.contains d = true
      · rw [behindRun_cons hd] at hnone
        exact h n b d rest hd (ih hnone)
      · rwa [behindRun_of_head (by simpa using hd)] at hnone

/-- If going back is of no use, a repetition of a set leads to the end of the longest run. -/
theorem loop_run (h : NoneBefore set c) (n : Nat) (p : Place) :
    (Node.oneOf set).attempt.loop true c n p = behindRun set c n p := by
  obtain ⟨b, t⟩ := p
  induction t generalizing n b with
  | nil =>
      rw [loop]
      rfl
  | cons d rest ih =>
      rw [loop]
      by_cases hd : set.contains d = true
      · have hmore := ih (n + 1) (some d)
        rw [behindRun_cons hd]
        simp only [either, Node.attempt_oneOf_cons, hd, if_true, List.length_cons, Nat.lt_succ_self,
          hmore]
        cases hrun : behindRun set c (n + 1) ⟨some d, rest⟩ with
        | some w => rfl
        | none => exact h n b d rest hd (none_of_behindRun h hrun)
      · rw [behindRun_of_head (by simpa using hd)]
        simp [either, hd]

theorem times_succ (a : Attempt) (m : Nat) (next : Trial) :
    a.times (m + 1) next = a (a.times m next) := by
  induction m generalizing next with
  | zero => rfl
  | succ m ih => exact ih (a next)

/-- Counted copies of a set in front of the others ask for a run that is long enough. -/
theorem times_run (m : Nat) (n : Nat) (p : Place) :
    (Node.oneOf set).attempt.times m (behindRun set c) n p =
      if (p.after.takeWhile set.contains).length < m then none else behindRun set c n p := by
  obtain ⟨b, t⟩ := p
  induction m generalizing n b t with
  | zero => rfl
  | succ m ih =>
      rw [times_succ]
      cases t with
      | nil => rfl
      | cons d rest =>
          by_cases hd : set.contains d = true
          · simp only [Node.attempt_oneOf_cons, hd, if_true, ih, List.takeWhile_cons_of_pos hd,
              List.length_cons, Nat.add_lt_add_iff_right, behindRun_cons hd]
          · simp [hd]

end Attempt

/-- A greedy repetition of a set, where going back is of no use. -/
theorem Node.attempt_run (h : Attempt.NoneBefore set c) (least n : Nat) (p : Place) :
    (rep (oneOf set) least none true).attempt c n p =
      if (p.after.takeWhile set.contains).length < least then none
      else Attempt.behindRun set c n p := by
  have hloop : (oneOf set).attempt.loop true c = Attempt.behindRun set c :=
    funext fun n => funext fun p => Attempt.loop_run h n p
  rw [attempt, hloop, Attempt.times_run]

/-- What a pattern as it is written stands for. -/
theorem Pattern.ofSource_eq {source : String} {node : Node} {groups : Nat}
    {names : List (String × Nat)} {recognize : Place → Option Sighting}
    (hread : read source.toList = .ok (node, groups, names)) (hsize : node.isTooLarge = false)
    (hloops : node.loopsConsume = true) (hsight : node.sighting? groups = recognize) :
    ofSource source = .ok (.direct source names recognize) := by
  rw [ofSource, hread]
  simp only [hsize, Bool.false_eq_true, if_false, direct, ← hsight]
  rw [Node.find?_ofNode node groups hloops]

namespace CharSet

@[simp] theorem contains_single (c d : Char) : (single c).contains d = (d == c) := rfl

@[simp] theorem contains_digits (d : Char) : (range '0' '9').contains d = Text.isDigit d := rfl

@[simp] theorem contains_union (s t : CharSet) (d : Char) :
    (union s t).contains d = (s.contains d || t.contains d) := rfl

@[simp] theorem contains_complement (s : CharSet) (d : Char) :
    (complement s).contains d = !s.contains d := rfl

end CharSet

/-! ## What stands in front of the end of a group -/

/-- The trial at the end of a group: it marks a slot and is a match. -/
def Attempt.close (slot : Nat) : Trial := fun n _ => some ([(slot, n)], n)

/-- What the end of a group comes to behind a text. -/
def Outcome.behind (slot n : Nat) (m : Text) : Outcome := ([(slot, n + m.length)], n + m.length)

/-- Whether a node in front of the end of a group matches what `read?` reads at the head of a text.
-/
structure Node.Reads (body : Node) (read? : Text → Option Text) : Prop where
  attempt : ∀ slot n b s, body.attempt (Attempt.close slot) n ⟨b, s⟩ =
    (read? s).map (Outcome.behind slot n)
  isPrefix : ∀ s m, read? s = some m → m <+: s

namespace Node.Reads

variable {body : Node} {read? : Text → Option Text}

/-- One character of a set in front of what is read. -/
def cons? (set : CharSet) (read? : Text → Option Text) (s : Text) : Option Text :=
  match s with
  | c :: s => if set.contains c then (read? s).map (c :: ·) else none
  | [] => none

/-- The longest run of a set in front of what is read. -/
def run? (set : CharSet) (least : Nat) (read? : Text → Option Text) (s : Text) : Option Text :=
  let run := s.takeWhile set.contains
  if run.length < least then none else (read? (s.dropWhile set.contains)).map (run ++ ·)

/-- A character in front of what is read, if there is such a character. -/
def maybe? (c : Char) (read? : Text → Option Text) (s : Text) : Option Text :=
  (cons? (.single c) read? s).or (read? s)

theorem nothing : Node.empty.Reads fun _ => some [] where
  attempt _ _ _ _ := rfl
  isPrefix _ _ h := Option.some.inj h ▸ List.nil_prefix

theorem behind_append (slot n : Nat) (x m : Text) :
    Outcome.behind slot (n + x.length) m = Outcome.behind slot n (x ++ m) := by
  simp [Outcome.behind, Nat.add_assoc]

theorem cons (set : CharSet) (h : body.Reads read?) :
    (Node.seq (.oneOf set) body).Reads (cons? set read?) where
  attempt slot n b s := by
    rcases s with _ | ⟨c, s⟩
    · rfl
    · rw [attempt_seq, attempt_oneOf_cons, h.attempt, cons?]
      split
      · rw [Option.map_map]
        exact congrArg (Option.map · _) (funext fun m => behind_append slot n [c] m)
      · rfl
  isPrefix s m hm := by
    rcases s with _ | ⟨c, s⟩
    · cases hm
    · rw [cons?] at hm
      split at hm
      · obtain ⟨m, hread, rfl⟩ := Option.map_eq_some_iff.mp hm
        exact List.cons_prefix_cons.mpr ⟨rfl, h.isPrefix s m hread⟩
      · cases hm

theorem run {set : CharSet} (least : Nat) (h : body.Reads read?)
    (hback : ∀ d rest, set.contains d = true → read? rest = none → read? (d :: rest) = none) :
    (Node.seq (.rep (.oneOf set) least none true) body).Reads (run? set least read?) where
  attempt slot n b s := by
    have hnone : Attempt.NoneBefore set (body.attempt (Attempt.close slot)) := by
      intro n b d rest hd hnone
      rw [h.attempt, Option.map_eq_none_iff] at hnone ⊢
      exact hback d rest hd hnone
    rw [attempt_seq, attempt_run hnone, Attempt.behindRun, h.attempt]
    simp only [run?]
    split
    · rfl
    · rw [Option.map_map]
      exact congrArg (Option.map · _) (funext fun m => behind_append slot n _ m)
  isPrefix s m hm := by
    simp only [run?] at hm
    split at hm
    · cases hm
    · obtain ⟨m, hread, rfl⟩ := Option.map_eq_some_iff.mp hm
      obtain ⟨rest, hrest⟩ := h.isPrefix _ m hread
      refine ⟨rest, ?_⟩
      rw [List.append_assoc, hrest, List.takeWhile_append_dropWhile]

theorem maybe (c : Char) (h : body.Reads read?) :
    (Node.seq (.rep (.oneOf (.single c)) 0 (some 1) true) body).Reads (maybe? c read?) where
  attempt slot n b s := by
    have hcons := (cons (.single c) h).attempt slot n b s
    rw [attempt_seq] at hcons ⊢
    rw [attempt_maybe, hcons, h.attempt, maybe?, Option.map_or]
  isPrefix s m hm := by
    rcases Option.or_eq_some_iff.mp hm with hm | ⟨-, hm⟩
    · exact (cons (.single c) h).isPrefix s m hm
    · exact h.isPrefix s m hm

/-- Nothing need stand behind a part. -/
theorem of_seq_empty (h : (Node.seq body .empty).Reads read?) : body.Reads read? :=
  ⟨h.attempt, h.isPrefix⟩

theorem congr {other? : Text → Option Text} (h : body.Reads read?)
    (heq : ∀ s, read? s = other? s) : body.Reads other? :=
  funext heq ▸ h

end Node.Reads

open Text Node Attempt

/-- A group holds what stands between the places that it has marked. -/
theorem Program.groupAt?_append {marks : List (Nat × Nat)} {i : Nat} (x y z : Text)
    (hfirst : marks.lookup (2 * i) = some x.length)
    (hlast : marks.lookup (2 * i + 1) = some (x.length + y.length)) :
    groupAt? (x ++ (y ++ z)) 0 marks i = some ⟨byteLength x, y⟩ := by
  simp [groupAt?, hfirst, hlast]

namespace Builtin

/-! ## `<` in prose -/

/-- A digit. -/
def digitNode : Node := .oneOf (.range '0' '9')

/-- A digit at the head of a text. -/
def digit? (s : Text) : Option Text := Reads.cons? (.range '0' '9') (fun _ => some []) s

theorem reads_digit : digitNode.Reads digit? := .of_seq_empty (.cons _ .nothing)

/-- `<` and what stands in the first group. -/
def lessNode (body : Node) : Node := .seq (.oneOf (.single '<')) (.group 1 body)

/-- What the first group of a match holds, where `<` stands in front of it. -/
theorem sighting_less (m rest : Text) :
    Outcome.sighting 1 ('<' :: (m ++ rest)) (Outcome.mark 2 1 (Outcome.behind 3 1 m)) =
      lessBefore m := by
  have hgroup : Program.groupAt? ('<' :: (m ++ rest)) 0 [(3, 1 + m.length), (2, 1)] 1 =
      some ⟨1, m⟩ := Program.groupAt?_append ['<'] m rest rfl rfl
  have hrange : List.range 1 = [0] := rfl
  have hmarks : Outcome.mark 2 1 (Outcome.behind 3 1 m) =
      ([(3, 1 + m.length), (2, 1)], 1 + m.length) := rfl
  rw [hmarks, Outcome.sighting, hrange, List.filterMap_cons, hgroup, Nat.add_comm]
  rfl

/-- Of a pattern that begins with `<` only what its group matches has to be known. -/
theorem sighting?_less {body : Node} {read? : Text → Option Text}
    {recognize : Place → Option Sighting} (hbody : body.Reads read?)
    (hless : ∀ b s, recognize ⟨b, '<' :: s⟩ = (read? s).map lessBefore)
    (hother : ∀ b t, t.head? ≠ some '<' → recognize ⟨b, t⟩ = none) :
    (lessNode body).sighting? 1 = recognize := by
  funext ⟨b, t⟩
  rcases t with _ | ⟨c, s⟩
  · rw [hother b [] (by simp)]
    rfl
  · by_cases hc : c = '<'
    · subst hc
      have hgroup : (Node.group 1 body).attempt (fun n _ => some ([], n)) 1 ⟨some '<', s⟩ =
          (body.attempt (Attempt.close 3) 1 ⟨some '<', s⟩).map (Outcome.mark 2 1) := rfl
      rw [hless, Node.sighting?, lessNode, Node.attempt_seq, Node.attempt_oneOf_cons]
      simp only [CharSet.contains_single, beq_self_eq_true, if_true, Nat.zero_add]
      rw [hgroup, hbody.attempt]
      cases hm : read? s with
      | none => rfl
      | some m =>
          obtain ⟨rest, rfl⟩ := hbody.isPrefix s m hm
          exact congrArg some (sighting_less m rest)
    · rw [hother b (c :: s) (by simpa using hc)]
      simp [Node.sighting?, lessNode, hc]

theorem sighting?_lessDigit : (lessNode digitNode).sighting? 1 = lessDigitAt? := by
  refine sighting?_less reads_digit (fun b s => ?_) (fun b t ht => ?_)
  · rcases s with _ | ⟨d, s⟩
    · rfl
    · cases hd : isDigit d <;> simp [digit?, Reads.cons?, lessDigitAt?, hd]
  · rcases t with _ | ⟨c, t⟩
    · rfl
    · have hc : c ≠ '<' := by simpa using ht
      simp [lessDigitAt?, hc]

/-- Spaces and a digit. -/
def spacesDigitNode : Node := .seq (.rep (.oneOf (.single ' ')) 1 none true) digitNode

theorem sighting?_lessSpaceDigit :
    (lessNode spacesDigitNode).sighting? 1 = lessSpaceDigitAt? := by
  have hback (d : Char) (rest : Text) (hd : (CharSet.single ' ').contains d = true) :
      digit? (d :: rest) = none := by
    obtain rfl := beq_iff_eq.mp hd
    rfl
  have hspace : (CharSet.single ' ').contains = (· == ' ') := rfl
  refine sighting?_less (reads_digit.run 1 fun d rest hd _ => hback d rest hd) (fun b s => ?_)
    (fun b t ht => ?_)
  · simp only [lessSpaceDigitAt?, Reads.run?, hspace]
    cases s.dropWhile (· == ' ') with
    | nil => simp [digit?, Reads.cons?]
    | cons d rest =>
        rcases s.takeWhile (· == ' ') with _ | ⟨c, spaces⟩
        · rfl
        · cases hd : isDigit d <;> simp [digit?, Reads.cons?, hd]
  · rcases t with _ | ⟨c, t⟩
    · rfl
    · have hc : c ≠ '<' := by simpa using ht
      simp [lessSpaceDigitAt?, hc]

/-- What may stand in what looks like a tag. -/
def tagBodySet : CharSet := .complement (.union (.single '>') .blank)

theorem contains_tagBodySet : tagBodySet.contains = isTagBody := by
  funext c
  rw [tagBodySet, CharSet.contains_complement, CharSet.contains_union, Bool.not_or]
  rfl

/-- The rest of a tag whose name begins with a digit. -/
def digitNameNode : Node := .seq digitNode (.rep (.oneOf tagBodySet) 0 none true)

/-- What may be such a tag, with a slash in front of its name or without. -/
def digitTagNode : Node := .seq (.rep (.oneOf (.single '/')) 0 (some 1) true) digitNameNode

theorem sighting?_digitTag : (lessNode digitTagNode).sighting? 1 = digitTagAt? := by
  have hbody : (Node.rep (.oneOf tagBodySet) 0 none true).Reads
      (Reads.run? tagBodySet 0 fun _ => some []) :=
    .of_seq_empty (.run 0 .nothing fun _ _ _ h => nomatch h)
  have hname : digitNameNode.Reads _ := .cons (.range '0' '9') hbody
  refine sighting?_less (hname.maybe '/') (fun b s => ?_) (fun b t ht => ?_)
  · simp only [Reads.maybe?, Reads.cons?, Reads.run?, contains_tagBodySet]
    rcases s with _ | ⟨c, s⟩
    · rfl
    · by_cases hc : c = '/'
      · subst hc
        rcases s with _ | ⟨d, s⟩
        · rfl
        · have hslash : isDigit '/' = false := rfl
          cases hd : isDigit d <;> simp [digitTagAt?, hd, hslash]
      · cases hd : isDigit c <;> simp [digitTagAt?, hd, hc]
  · rcases t with _ | ⟨c, t⟩
    · rfl
    · have hc : c ≠ '<' := by simpa using ht
      simp [digitTagAt?, hc]

/-! ## `>` in prose -/

/-- A space, which need not be there, and a digit. -/
def spacedDigitNode : Node := .seq (.rep (.oneOf (.single ' ')) 0 (some 1) true) digitNode

theorem reads_spacedDigit : spacedDigitNode.Reads spacedDigit? := by
  refine (reads_digit.maybe ' ').congr fun s => ?_
  have hspace : isDigit ' ' = false := rfl
  rcases s with _ | ⟨c, s⟩
  · rfl
  · by_cases hc : c = ' '
    · subst hc
      rcases s with _ | ⟨d, s⟩
      · rfl
      · cases hd : isDigit d <;> simp [Reads.maybe?, Reads.cons?, digit?, spacedDigit?, hd, hspace]
    · cases hd : isDigit c <;> simp [Reads.maybe?, Reads.cons?, digit?, spacedDigit?, hd, hc]

/-- The characters behind which `>` is not escaped. -/
def guardSet : CharSet :=
  .union (.range 'A' 'Z') (.union (.range 'a' 'z') (.union (.range '0' '9')
    (.union (.single '_') (.single '-'))))

theorem contains_guardSet (c : Char) : guardSet.contains c = isGuard c := by
  simp [guardSet, isGuard, CharSet.contains, isDigit, Bool.or_assoc]

/-- `>` and what stands in the second group behind it. -/
def greaterTail : Node := .seq (.oneOf (.single '>')) (.group 2 spacedDigitNode)

def greaterNode : Node :=
  .seq (.group 1 (.alt (.anchor .textStart) (.oneOf (.complement guardSet)))) greaterTail

/-- What the groups of a match hold, where `guard` stands in front of `>`. -/
theorem sighting_greater (guard m rest : Text) :
    Outcome.sighting 2 (guard ++ '>' :: (m ++ rest))
      (Outcome.mark 2 0 (Outcome.mark 3 guard.length (Outcome.mark 4 (guard.length + 1)
        (Outcome.behind 5 (guard.length + 1) m)))) = {
        length := guard.length + 1 + m.length
        groups := [(1, ⟨0, guard⟩), (2, ⟨byteLength guard + 1, m⟩)] } := by
  let n := guard.length
  let marks := [(5, n + 1 + m.length), (4, n + 1), (3, n), (2, 0)]
  have hguard : Program.groupAt? (guard ++ '>' :: (m ++ rest)) 0 marks 1 = some ⟨0, guard⟩ :=
    Program.groupAt?_append [] guard _ rfl (congrArg some (Nat.zero_add n).symm)
  have hdigit : Program.groupAt? (guard ++ '>' :: (m ++ rest)) 0 marks 2 =
      some ⟨byteLength guard + 1, m⟩ := by
    have hfront : (guard ++ ['>']).length = n + 1 := List.length_append
    have hgroup : Program.groupAt? (guard ++ ['>'] ++ (m ++ rest)) 0 marks 2 =
        some ⟨byteLength (guard ++ ['>']), m⟩ :=
      Program.groupAt?_append _ m rest (congrArg some hfront.symm)
        (congrArg (some <| · + m.length) hfront.symm)
    rw [List.append_assoc, byteLength_append] at hgroup
    exact hgroup
  have hrange : List.range 2 = [0, 1] := rfl
  have hmarks : Outcome.mark 2 0 (Outcome.mark 3 guard.length (Outcome.mark 4 (guard.length + 1)
      (Outcome.behind 5 (guard.length + 1) m))) = (marks, n + 1 + m.length) := rfl
  rw [hmarks, Outcome.sighting, hrange, List.filterMap_cons, hguard, List.filterMap_cons, hdigit]
  rfl

/-- What is tried behind the guard. -/
theorem sighting?_greaterAfter (guard s : Text) (b : Option Char) :
    (((greaterTail.attempt (fun n _ => some ([], n)) guard.length ⟨b, s⟩).map
      (Outcome.mark 3 guard.length)).map (Outcome.mark 2 0)).map
        (Outcome.sighting 2 (guard ++ s)) = greaterAfter? guard s := by
  rcases s with _ | ⟨c, s⟩
  · rfl
  · by_cases hc : c = '>'
    · subst hc
      have hgroup : greaterTail.attempt (fun n _ => some ([], n)) guard.length ⟨b, '>' :: s⟩ =
          (spacedDigitNode.attempt (Attempt.close 5) (guard.length + 1) ⟨some '>', s⟩).map
            (Outcome.mark 4 (guard.length + 1)) := rfl
      rw [hgroup, reads_spacedDigit.attempt, greaterAfter?]
      cases hm : spacedDigit? s with
      | none => rfl
      | some m =>
          obtain ⟨rest, rfl⟩ := reads_spacedDigit.isPrefix s m hm
          exact congrArg some (sighting_greater guard m rest)
    · simp [greaterTail, greaterAfter?, hc]

theorem sighting?_greaterDigit : greaterNode.sighting? 2 = greaterDigitAt? := by
  funext ⟨b, t⟩
  rw [Node.sighting?, greaterNode, Node.attempt_seq, Node.attempt_group, Node.attempt_alt,
    Option.map_or, Option.map_or, greaterDigitAt?]
  congr 1
  · have := sighting?_greaterAfter [] t b
    rw [Node.attempt_anchor]
    split
    · exact this
    · rfl
  · rcases t with _ | ⟨c, s⟩
    · rfl
    · rw [Node.attempt_oneOf_cons, CharSet.contains_complement, contains_guardSet]
      cases hc : isGuard c with
      | true => simp [hc]
      | false => simpa [hc] using sighting?_greaterAfter [c] s (some c)

/-! ## Fence lines -/

/-- A line break. -/
def eolNode : Node := .seq (.rep (.oneOf (.single '\r')) 0 (some 1) true) (.oneOf (.single '\n'))

/-- A line break at the head of a text. -/
def eol? (s : Text) : Option Text := (lineBreak? s).map (s.take ·)

theorem reads_eol : eolNode.Reads eol? := by
  have hnewline : (Node.oneOf (.single '\n')).Reads _ := .of_seq_empty (.cons _ .nothing)
  refine (hnewline.maybe '\r').congr fun s => ?_
  rcases s with _ | ⟨c, s⟩
  · rfl
  · by_cases hn : c = '\n'
    · subst hn
      rfl
    · by_cases hr : c = '\r'
      · subst hr
        rcases s with _ | ⟨d, s⟩
        · rfl
        · by_cases hd : d = '\n'
          · subst hd
            rfl
          · simp [Reads.maybe?, Reads.cons?, eol?, lineBreak?, hd]
      · simp [Reads.maybe?, Reads.cons?, eol?, lineBreak?, hn, hr]

/-- What the tag of a fence may hold, as it is written for each mark. -/
def tagSet (mark : Char) : CharSet :=
  if mark == backtick then
    .complement (.union (.single backtick) (.union (.single '\r') (.single '\n')))
  else .complement (.union (.single '\r') (.single '\n'))

theorem contains_tagSet (mark : Char) : (tagSet mark).contains = isTagChar mark := by
  funext c
  unfold tagSet isTagChar
  cases hm : mark == backtick <;> simp [bne, hm, Bool.and_comm]

/-- A run of marks in a group and a tag in the next. -/
def marksNode (mark : Char) (i : Nat) : Node :=
  .seq (.group i (.rep (.oneOf (.single mark)) 3 none true))
    (.group (i + 1) (.rep (.oneOf (tagSet mark)) 0 none true))

def fenceNode : Node :=
  .seq (.anchor .lineStart)
    (.seq (.group 1 (.rep (.oneOf (.union (.single ' ') (.single '\t'))) 0 none true))
      (.seq (.alt (marksNode backtick 2) (marksNode tilde 4)) (.group 6 eolNode)))

/-- What is tried behind the tag. -/
def atEol : Trial := (Node.group 6 eolNode).attempt fun n _ => some ([], n)

/-- What the parts of a fence line from its marks on come to, where the marks are the group `i`. -/
def partsOutcome (i n : Nat) (parts : Text × Text × Text) : Outcome :=
  let behindMarks := n + parts.1.length
  let behindTag := behindMarks + parts.2.1.length
  let last := behindTag + parts.2.2.length
  ([(13, last), (12, behindTag), (2 * i + 3, behindTag), (2 * i + 2, behindMarks),
    (2 * i + 1, behindMarks), (2 * i, n)], last)

theorem atEol_eq (n : Nat) (b : Option Char) (s : Text) :
    atEol n ⟨b, s⟩ = (eol? s).map fun eol => Outcome.mark 12 n (Outcome.behind 13 n eol) := by
  have hgroup : atEol n ⟨b, s⟩ =
      (eolNode.attempt (Attempt.close 13) n ⟨b, s⟩).map (Outcome.mark 12 n) := rfl
  rw [hgroup, reads_eol.attempt, Option.map_map]
  rfl

theorem atEol_none {c : Char} (hr : c ≠ '\r') (hn : c ≠ '\n') (n : Nat) (b : Option Char)
    (s : Text) : atEol n ⟨b, c :: s⟩ = none := by
  simp [atEol_eq, eol?, lineBreak?, hr, hn]

/-- Going back over a character of the tag is of no use, since no line break can begin with it. -/
theorem noneBefore_tag (mark : Char) (slot : Nat) :
    NoneBefore (tagSet mark) fun m q => (atEol m q).map (Outcome.mark slot m) := by
  intro n b d rest hd _
  rw [contains_tagSet, isTagChar, Bool.and_eq_true, Bool.and_eq_true, bne_iff_ne, bne_iff_ne] at hd
  simp only [atEol_none hd.1.1 hd.1.2, Option.map_none]

/-- Going back over a mark is of no use: a tag either takes it up again and ends where it ended, or
cannot begin with it. -/
theorem noneBefore_marks {mark : Char} (hmark : isMark mark = true) (i j : Nat) :
    NoneBefore (.single mark) fun m q =>
      ((Node.group i (.rep (.oneOf (tagSet mark)) 0 none true)).attempt atEol m q).map
        (Outcome.mark j m) := by
  intro n b d rest hd hnone
  obtain rfl : d = mark := beq_iff_eq.mp hd
  simp only [attempt_group, attempt_run (noneBefore_tag d _), Option.map_eq_none_iff,
    Nat.not_lt_zero, if_false] at hnone ⊢
  by_cases htag : (tagSet d).contains d = true
  · rw [behindRun_cons htag]
    exact hnone
  · have hr : d ≠ '\r' := by
      rintro rfl
      cases hmark
    have hn : d ≠ '\n' := by
      rintro rfl
      cases hmark
    rw [behindRun_of_head (by simpa using htag), atEol_none hr hn]
    rfl

theorem attempt_marks {mark : Char} (hmark : isMark mark = true) (i n : Nat) (b : Option Char)
    (s : Text) : (marksNode mark i).attempt atEol n ⟨b, s⟩ =
      (fenceParts? mark s).map (partsOutcome i n) := by
  have hsingle : (CharSet.single mark).contains = (· == mark) := rfl
  rw [marksNode, attempt_seq, attempt_group, attempt_run (noneBefore_marks hmark _ _)]
  simp only [behindRun, attempt_group, attempt_run (noneBefore_tag mark _), Nat.not_lt_zero,
    if_false, hsingle, contains_tagSet, atEol_eq, eol?]
  by_cases hlen : (s.takeWhile (· == mark)).length < 3
  · have hparts : fenceParts? mark s = none := if_pos hlen
    rw [if_pos hlen, hparts]
    rfl
  · rw [if_neg hlen, fenceParts?, if_neg (c := _ < Fence.minLength) hlen]
    cases lineBreak? _ <;> rfl

/-- What is tried behind the indent. -/
def atMarks : Trial := (Node.alt (marksNode backtick 2) (marksNode tilde 4)).attempt atEol

theorem fenceParts?_none {mark c : Char} (h : c ≠ mark) (s : Text) :
    fenceParts? mark (c :: s) = none := by
  simp [fenceParts?, h, Fence.minLength]

theorem atMarks_eq (n : Nat) (b : Option Char) (s : Text) :
    atMarks n ⟨b, s⟩ = ((fenceParts? backtick s).map (partsOutcome 2 n)).or
      ((fenceParts? tilde s).map (partsOutcome 4 n)) := by
  rw [atMarks, attempt_alt, attempt_marks rfl, attempt_marks rfl]

/-- The parts of a fence line behind its indent are what stands there. -/
theorem exists_of_fenceParts? {mark : Char} {s : Text} {parts : Text × Text × Text}
    (h : fenceParts? mark s = some parts) :
    ∃ rest, s = parts.1 ++ (parts.2.1 ++ (parts.2.2 ++ rest)) := by
  simp only [fenceParts?] at h
  split at h
  · cases h
  · obtain ⟨n, -, rfl⟩ := Option.map_eq_some_iff.mp h
    refine ⟨((s.dropWhile (· == mark)).dropWhile (isTagChar mark)).drop n, ?_⟩
    simp only [List.take_append_drop, List.takeWhile_append_dropWhile]

/-- What the groups of a fence line hold. -/
theorem sighting_fence {mark : Char} {i : Nat}
    (hi : (mark = backtick ∧ i = 2) ∨ (mark = tilde ∧ i = 4)) (indent marks tag eol rest : Text) :
    Outcome.sighting 6 (indent ++ (marks ++ (tag ++ (eol ++ rest))))
      (Outcome.mark 2 0 (Outcome.mark 3 indent.length
        (partsOutcome i indent.length (marks, tag, eol)))) = {
        length := indent.length + marks.length + tag.length + eol.length
        groups := fenceGroups mark indent marks tag eol } := by
  let text := indent ++ (marks ++ (tag ++ (eol ++ rest)))
  let w := Outcome.mark 2 0 (Outcome.mark 3 indent.length
    (partsOutcome i indent.length (marks, tag, eol)))
  have hindent : Program.groupAt? text 0 w.1 1 = some ⟨0, indent⟩ := by
    rcases hi with ⟨rfl, rfl⟩ | ⟨rfl, rfl⟩ <;>
      exact Program.groupAt?_append [] indent _ rfl (congrArg some (Nat.zero_add _).symm)
  have hmarks : Program.groupAt? text 0 w.1 i = some ⟨byteLength indent, marks⟩ := by
    rcases hi with ⟨rfl, rfl⟩ | ⟨rfl, rfl⟩ <;>
      exact Program.groupAt?_append indent marks _ rfl rfl
  have htag : Program.groupAt? text 0 w.1 (i + 1) =
      some ⟨byteLength indent + byteLength marks, tag⟩ := by
    have hfront : indent.length + marks.length = (indent ++ marks).length :=
      List.length_append.symm
    have hgroup : Program.groupAt? (indent ++ marks ++ (tag ++ (eol ++ rest))) 0 w.1 (i + 1) =
        some ⟨byteLength (indent ++ marks), tag⟩ := by
      rcases hi with ⟨rfl, rfl⟩ | ⟨rfl, rfl⟩ <;>
        exact Program.groupAt?_append _ tag _ (congrArg some hfront)
          (congrArg (some <| · + tag.length) hfront)
    rwa [List.append_assoc, byteLength_append] at hgroup
  have heol : Program.groupAt? text 0 w.1 6 =
      some ⟨byteLength indent + byteLength marks + byteLength tag, eol⟩ := by
    have hfront : indent.length + marks.length + tag.length = (indent ++ marks ++ tag).length := by
      rw [List.length_append, List.length_append]
    have hgroup : Program.groupAt? (indent ++ marks ++ tag ++ (eol ++ rest)) 0 w.1 6 =
        some ⟨byteLength (indent ++ marks ++ tag), eol⟩ := by
      rcases hi with ⟨rfl, rfl⟩ | ⟨rfl, rfl⟩ <;>
        exact Program.groupAt?_append _ eol _ (congrArg some hfront)
          (congrArg (some <| · + eol.length) hfront)
    rwa [List.append_assoc, List.append_assoc, byteLength_append, byteLength_append] at hgroup
  have hrange : List.range 6 = [0, 1, 2, 3, 4, 5] := rfl
  show Outcome.sighting 6 text w = _
  rcases hi with ⟨rfl, rfl⟩ | ⟨rfl, rfl⟩
  · have hother : Program.groupAt? text 0 w.1 4 = none ∧ Program.groupAt? text 0 w.1 5 = none :=
      ⟨rfl, rfl⟩
    simp only [Outcome.sighting, hrange, List.filterMap_cons, List.filterMap_nil, hindent, hmarks,
      htag, heol, hother, Nat.reduceAdd, Option.map_some, Option.map_none]
    rfl
  · have hother : Program.groupAt? text 0 w.1 2 = none ∧ Program.groupAt? text 0 w.1 3 = none :=
      ⟨rfl, rfl⟩
    simp only [Outcome.sighting, hrange, List.filterMap_cons, List.filterMap_nil, hindent, hmarks,
      htag, heol, hother, Nat.reduceAdd, Option.map_some, Option.map_none]
    rfl

/-- No fence line goes on behind an indent with another indent. -/
theorem noneBefore_indent (slot : Nat) :
    NoneBefore (.union (.single ' ') (.single '\t')) fun m q =>
      (atMarks m q).map (Outcome.mark slot m) := by
  intro n b d rest hd _
  have hindent : isIndent d = true := hd
  have hne {mark : Char} (hmark : isIndent mark = false) : d ≠ mark := by
    rintro rfl
    rw [hmark] at hindent
    cases hindent
  simp only [atMarks_eq, fenceParts?_none (hne (show isIndent backtick = false from rfl)),
    fenceParts?_none (hne (show isIndent tilde = false from rfl)), Option.map_none, Option.or_none]

/-- What is matched behind the indent. -/
theorem sighting?_marks (indent s : Text) (c : Char) (b : Option Char) :
    (((atMarks indent.length ⟨b, c :: s⟩).map (Outcome.mark 3 indent.length)).map
      (Outcome.mark 2 0)).map (Outcome.sighting 6 (indent ++ c :: s)) =
        if isMark c then
          (fenceParts? c (c :: s)).map fun parts => {
            length := indent.length + parts.1.length + parts.2.1.length + parts.2.2.length
            groups := fenceGroups c indent parts.1 parts.2.1 parts.2.2 }
        else none := by
  have hparts {i : Nat} (hi : (c = backtick ∧ i = 2) ∨ (c = tilde ∧ i = 4)) :
      ((((fenceParts? c (c :: s)).map (partsOutcome i indent.length)).map
        (Outcome.mark 3 indent.length)).map (Outcome.mark 2 0)).map
          (Outcome.sighting 6 (indent ++ c :: s)) =
        (fenceParts? c (c :: s)).map fun parts => {
            length := indent.length + parts.1.length + parts.2.1.length + parts.2.2.length
            groups := fenceGroups c indent parts.1 parts.2.1 parts.2.2 } := by
    cases hs : fenceParts? c (c :: s) with
    | none => rfl
    | some parts =>
        obtain ⟨rest, hrest⟩ := exists_of_fenceParts? hs
        rw [hrest]
        exact congrArg some (sighting_fence hi indent parts.1 parts.2.1 parts.2.2 rest)
  rw [atMarks_eq]
  by_cases hb : c = backtick
  · have ht : c ≠ tilde := hb ▸ by decide
    rw [fenceParts?_none ht, ← hb, Option.map_none, Option.or_none, hparts (.inl ⟨hb, rfl⟩),
      if_pos (hb ▸ rfl)]
  · rw [fenceParts?_none hb, Option.map_none, Option.none_or]
    by_cases ht : c = tilde
    · rw [← ht, hparts (.inr ⟨ht, rfl⟩), if_pos (ht ▸ rfl)]
    · rw [fenceParts?_none ht, if_neg (by simp [isMark, hb, ht])]
      rfl

theorem sighting?_fenceLine : fenceNode.sighting? 6 = fenceLineAt? := by
  funext ⟨b, t⟩
  have hset : CharSet.contains (.union (.single ' ') (.single '\t')) = isIndent := rfl
  rw [Node.sighting?, fenceNode, attempt_seq, attempt_anchor, fenceLineAt?]
  split
  · have hgroup : (Node.seq (.group 1 (.rep (.oneOf (.union (.single ' ') (.single '\t'))) 0 none
        true)) (.seq (.alt (marksNode backtick 2) (marksNode tilde 4)) (.group 6 eolNode))).attempt
          (fun n _ => some ([], n)) 0 ⟨b, t⟩ =
        ((Node.rep (.oneOf (.union (.single ' ') (.single '\t'))) 0 none true).attempt
          (fun m q => (atMarks m q).map (Outcome.mark 3 m)) 0 ⟨b, t⟩).map (Outcome.mark 2 0) := rfl
    rw [hgroup, attempt_run (noneBefore_indent 3), if_neg (Nat.not_lt_zero _), behindRun, hset,
      Nat.zero_add]
    have hsplit := List.takeWhile_append_dropWhile (p := isIndent) (l := t)
    cases hrest : t.dropWhile isIndent with
    | nil => rfl
    | cons c s =>
        rw [hrest] at hsplit
        have := sighting?_marks (t.takeWhile isIndent) s c ((t.takeWhile isIndent).getLast?.or b)
        rw [hsplit] at this
        exact this
  · rfl

/-! ## Reading -/

/-- The trees that reading the built-in patterns gives, in the order of the rules. -/
theorem read_sources :
    Pattern.read fenceLine.source.toList = .ok (fenceNode, 6, fenceLine.names) ∧
      Pattern.read lessDigit.pattern.source.toList = .ok (lessNode digitNode, 1, []) ∧
      Pattern.read lessSpaceDigit.pattern.source.toList = .ok (lessNode spacesDigitNode, 1, []) ∧
      Pattern.read greaterDigit.pattern.source.toList = .ok (greaterNode, 2, []) ∧
      Pattern.read digitTag.pattern.source.toList = .ok (lessNode digitTagNode, 1, []) := by
  refine ⟨?_, ?_, ?_, ?_, ?_⟩ <;> decide +kernel

/-- The built-in patterns are what reading their texts gives. -/
theorem ofSource_source : ∀ r ∈ rules, Pattern.ofSource r.pattern.source = .ok r.pattern := by
  obtain ⟨hfence, hless, hlessSpace, hgreater, htag⟩ := read_sources
  simp only [rules, List.forall_mem_cons, List.not_mem_nil, false_implies, implies_true, and_true]
  refine ⟨?_, ?_, ?_, ?_, ?_⟩
  · exact Pattern.ofSource_eq hfence (by decide) rfl sighting?_fenceLine
  · exact Pattern.ofSource_eq hless (by decide) rfl sighting?_lessDigit
  · exact Pattern.ofSource_eq hlessSpace (by decide) rfl sighting?_lessSpaceDigit
  · exact Pattern.ofSource_eq hgreater (by decide) rfl sighting?_greaterDigit
  · exact Pattern.ofSource_eq htag (by decide) rfl sighting?_digitTag

/-- The built-in templates are what reading their texts gives. -/
theorem ofSource_template :
    ∀ r ∈ rules, ∀ t, r.replacement = .template t → Template.ofSource t.source = t := by
  have hless : Template.ofSource escapedLess.source = escapedLess := by cbv
  have hgreater : Template.ofSource escapedGreater.source = escapedGreater := by cbv
  intro r hr t ht
  simp only [rules, List.mem_cons, List.not_mem_nil, or_false] at hr
  rcases hr with rfl | rfl | rfl | rfl | rfl <;> cases ht
  · exact hless
  · exact hless
  · exact hgreater
  · exact hless

end Builtin

end MdxMend
