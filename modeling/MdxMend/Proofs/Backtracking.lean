import MdxMend.Proofs.Threads

/-!
# Patterns by backtracking

What a pattern matches is said by the tree: a choice tries its branches in order, a repetition tries
one more copy before or after it goes on, and the first attempt that leads to a match of the whole
is taken (`Node.attempt`). This module proves that the program of a tree finds just that
(`Node.find?_ofNode`), for all trees in which every copy of an unlimited repetition consumes
something.

An attempt is made with what comes behind it, and so is a program: the instructions of a node are
written for a given next one. `Emit.Means` ties the two together, for whatever comes behind: the
attempt is what a thread comes to that begins at the instructions. It asks about what comes behind
only at places that the node can lead to, and a node that consumes leads to later places only. That
is what makes a loop go through: its fork is reached again with less of the text.
-/

namespace MdxMend

/-- What is tried from a place on, `n` characters on. -/
abbrev Trial := Nat → Place → Option Outcome

/-- What a part of a pattern makes of a trial of what comes behind it. -/
abbrev Attempt := Trial → Trial

namespace Attempt

/-- One of two ways: the first if `greedy` and if it leads to a match. -/
def either (greedy : Bool) (more less : Option Outcome) : Option Outcome :=
  if greedy then more.or less else less.or more

/-- Exactly so many copies. -/
def times (a : Attempt) : Nat → Attempt
  | 0, next => next
  | m + 1, next => times a m (a next)

/-- At most so many copies, behind the last of which `next` is tried and behind any other `stop`. -/
def upTo (a : Attempt) (greedy : Bool) (stop : Trial) : Nat → Attempt
  | 0, next => next
  | m + 1, next => upTo a greedy stop m fun n p => either greedy (a next n p) (stop n p)

/-- Any number of copies, each of which leads to a later place. -/
def loop (a : Attempt) (greedy : Bool) (next : Trial) (n : Nat) (p : Place) : Option Outcome :=
  either greedy
    (a (fun m q => if q.after.length < p.after.length then loop a greedy next m q else none) n p)
    (next n p)
termination_by p.after.length

end Attempt

namespace Node

/-- What a pattern matches, before something that is tried behind it. -/
def attempt : Node → Attempt
  | empty, next => next
  | oneOf set, next => fun n p =>
    match p.after with
    | c :: rest => if set.contains c then next (n + 1) ⟨some c, rest⟩ else none
    | [] => none
  | anchor a, next => fun n p => if p.meets a then next n p else none
  | seq a b, next => a.attempt (b.attempt next)
  | alt a b, next => fun n p => (a.attempt next n p).or (b.attempt next n p)
  | group i body, next => fun n p =>
    (body.attempt (fun m q => (next m q).map (Outcome.mark (2 * i + 1) m)) n p).map
      (Outcome.mark (2 * i) n)
  | rep body least none greedy, next => body.attempt.times least (body.attempt.loop greedy next)
  | rep body least (some most) greedy, next =>
    body.attempt.times least (body.attempt.upTo greedy next (most - least) next)

section

variable (next : Trial) (n : Nat) (b : Option Char) (p : Place)

@[simp] theorem attempt_oneOf_cons (set : CharSet) (d : Char) (rest : Text) :
    (oneOf set).attempt next n ⟨b, d :: rest⟩ =
      if set.contains d then next (n + 1) ⟨some d, rest⟩ else none := rfl

@[simp] theorem attempt_anchor (a : Anchor) :
    (anchor a).attempt next n p = if p.meets a then next n p else none := rfl

@[simp] theorem attempt_seq (x y : Node) : (seq x y).attempt next = x.attempt (y.attempt next) :=
  rfl

@[simp] theorem attempt_alt (x y : Node) :
    (alt x y).attempt next n p = (x.attempt next n p).or (y.attempt next n p) := rfl

@[simp] theorem attempt_group (i : Nat) (body : Node) :
    (group i body).attempt next n p =
      (body.attempt (fun m q => (next m q).map (Outcome.mark (2 * i + 1) m)) n p).map
        (Outcome.mark (2 * i) n) := rfl

/-- At most one copy, which is tried first. -/
@[simp] theorem attempt_maybe (body : Node) :
    (rep body 0 (some 1) true).attempt next n p = (body.attempt next n p).or (next n p) := rfl

end

/-- Whether every copy of an unlimited repetition consumes something. -/
def loopsConsume : Node → Bool
  | empty | oneOf _ | anchor _ => true
  | seq a b | alt a b => a.loopsConsume && b.loopsConsume
  | group _ body => body.loopsConsume
  | rep body _ most _ => body.loopsConsume && (most.isSome || body.consumes)

/-- The match of a pattern that begins at a place. -/
def sighting? (node : Node) (groups : Nat) (p : Place) : Option Sighting :=
  (node.attempt (fun n _ => some ([], n)) 0 p).map (Outcome.sighting groups p.after)

end Node

/-! ## Instructions -/

variable {g : Program} {e e' : Emit} {a a' : Attempt} {consumes consumes' greedy : Bool}
  {code code' : Code} {c : Trial} {k n m i next start room : Nat} {p q : Place}

namespace Program

/-- A thread at an instruction comes to what is tried. -/
def Gives (g : Program) (s : Nat) (c : Trial) (n : Nat) (p : Place) : Prop :=
  ∃ k, g.Yields k n p s (c n p)

/-- Whether a program has the instructions of `code` from number `first` on. -/
def Holds (g : Program) (first : Nat) (code : Code) : Prop :=
  ∀ i, first ≤ i → i < code.size → g.code[i]? = code[i]?

theorem Holds.mono {first first' : Nat} (h : g.Holds first code) (hle : first ≤ first') :
    g.Holds first' code :=
  fun i hi => h i (Nat.le_trans hle hi)

/-- What has been kept is held if the whole is. -/
theorem Holds.of_keeps {first : Nat} (h : g.Holds first code')
    (hsize : code.size ≤ code'.size) (hkeeps : ∀ i, i < code.size → code'[i]? = code[i]?) :
    g.Holds first code :=
  fun i hi hlt => (h i hi (Nat.lt_of_lt_of_le hlt hsize)).trans (hkeeps i hlt)

theorem Holds.last {x : Instruction} {first : Nat} (h : g.Holds first (code.push x))
    (hle : first ≤ code.size) : g.code[code.size]? = some x := by
  rw [h code.size hle (by simp), Array.getElem?_push_size]

theorem gives_decision {more less s : Nat} {b d : Trial}
    (hs : g.code[s]? = some (Emit.decision greedy more less)) (hmore : g.Gives more b n p)
    (hless : g.Gives less d n p) :
    g.Gives s (fun n p => Attempt.either greedy (b n p) (d n p)) n p := by
  obtain ⟨k, hk⟩ := hmore
  obtain ⟨k', hk'⟩ := hless
  cases greedy with
  | true => exact ⟨_, .fork hs hk hk'⟩
  | false => exact ⟨_, .fork hs hk' hk⟩

end Program

/-- Instructions that mean an attempt: they are added to those that are there, and a thread that
begins with them comes to what is attempted if one at the next instruction does, wherever it gets
there. This is said of places with less than `room` characters to come. -/
structure Emit.Means (g : Program) (room : Nat) (e : Emit) (a : Attempt) (consumes : Bool) :
    Prop where
  grows : ∀ next code, code.size ≤ (e next code).2.size
  keeps : ∀ next code i, i < code.size → (e next code).2[i]? = code[i]?
  gives : ∀ next code c n p, p.after.length < room → g.Holds code.size (e next code).2 →
    (∀ m q, q.after.length + consumes.toNat ≤ p.after.length → g.Gives next c m q) →
    g.Gives (e next code).1 (a c) n p

namespace Emit.Means

theorem one {x : Nat → Instruction}
    (h : ∀ s next c n p, g.code[s]? = some (x next) →
      (∀ m q, q.after.length + consumes.toNat ≤ p.after.length → g.Gives next c m q) →
      g.Gives s (a c) n p) : Emit.Means g room (fun next => Emit.one (x next)) a consumes where
  grows next code := by simp [Emit.one]
  keeps next code i hi := Array.getElem?_push_lt hi ▸ (Array.getElem?_eq_getElem hi).symm
  gives next code c n p _ hg hnext := h code.size next c n p (hg.last (Nat.le_refl _)) hnext

theorem skip : Emit.Means g room (fun next code => (next, code)) (fun c => c) false where
  grows next code := Nat.le_refl _
  keeps next code i hi := rfl
  gives next code c n p _ hg hnext := hnext n p (by simp)

theorem oneOf (set : CharSet) :
    Emit.Means g room (Node.oneOf set).emit (Node.oneOf set).attempt true :=
  one (x := .consume set) fun s next c n p hs hnext => by
    obtain ⟨before, rest⟩ := p
    cases rest with
    | nil => exact ⟨0, .refuse hs rfl⟩
    | cons d rest =>
        cases hd : set.contains d with
        | false => exact ⟨0, by simpa [Node.attempt, hd] using .refuse hs (by simpa using hd)⟩
        | true =>
            obtain ⟨k, hk⟩ := hnext (n + 1) ⟨some d, rest⟩ (by simp)
            exact ⟨0, by simpa [Node.attempt, hd] using .consume hs hd hk⟩

theorem anchor (a : Anchor) :
    Emit.Means g room (Node.anchor a).emit (Node.anchor a).attempt false :=
  one (x := .check a) fun s next c n p hs hnext => by
    cases ha : p.meets a with
    | false => exact ⟨0, by simpa [Node.attempt, ha] using .fail hs ha⟩
    | true =>
        obtain ⟨k, hk⟩ := hnext n p (by simp)
        exact ⟨k + 1, by simpa [Node.attempt, ha] using .pass hs ha hk⟩

theorem mark (slot : Nat) :
    Emit.Means g room (fun next => Emit.one (.mark slot next))
      (fun c n p => (c n p).map (Outcome.mark slot n)) false :=
  one fun s next c n p hs hnext => by
    obtain ⟨k, hk⟩ := hnext n p (by simp)
    exact ⟨k + 1, .mark hs hk⟩

/-- Instructions in front of others. -/
theorem seq (h : e.Means g room a consumes) (h' : e'.Means g room a' consumes') :
    Emit.Means g room (fun next code => e (e' next code).1 (e' next code).2) (fun c => a (a' c))
      (consumes || consumes') where
  grows next code := Nat.le_trans (h'.grows next code) (h.grows _ _)
  keeps next code i hi :=
    (h.keeps _ _ i (Nat.lt_of_lt_of_le hi (h'.grows next code))).trans (h'.keeps next code i hi)
  gives next code c n p hp hg hnext := by
    refine h.gives _ _ _ n p hp (hg.mono (h'.grows next code)) fun m q hq => ?_
    refine h'.gives next code c m q (by omega) (hg.of_keeps (h.grows _ _) (h.keeps _ _)) ?_
    intro m' q' hq'
    refine hnext m' q' ?_
    have : (consumes || consumes').toNat ≤ consumes.toNat + consumes'.toNat := by
      cases consumes <;> cases consumes' <;> decide
    omega

theorem alt (h : e.Means g room a consumes) (h' : e'.Means g room a' consumes') :
    Emit.Means g room
      (fun next code =>
        Emit.one (.fork (e next code).1 (e' next (e next code).2).1) (e' next (e next code).2).2)
      (fun c n p => (a c n p).or (a' c n p)) (consumes && consumes') where
  grows next code := by
    have := h.grows next code
    have := h'.grows next (e next code).2
    simp only [Emit.one, Array.size_push]
    omega
  keeps next code i hi := by
    have hi' := Nat.lt_of_lt_of_le hi (h.grows next code)
    have hi'' := Nat.lt_of_lt_of_le hi' (h'.grows next (e next code).2)
    rw [Emit.one, Array.getElem?_push_lt hi'', ← Array.getElem?_eq_getElem hi'',
      h'.keeps _ _ i hi', h.keeps _ _ i hi]
  gives next code c n p hp hg hnext := by
    have hsize := h.grows next code
    have hsize' := h'.grows next (e next code).2
    have hfork := hg.last (Nat.le_trans hsize hsize')
    have hg' : g.Holds code.size (e' next (e next code).2).2 :=
      hg.of_keeps (by simp [Emit.one]) fun i hi =>
        Array.getElem?_push_lt hi ▸ (Array.getElem?_eq_getElem hi).symm
    obtain ⟨k, hk⟩ := h.gives next code c n p hp (hg'.of_keeps hsize' (h'.keeps _ _)) fun m q hq =>
      hnext m q (by cases consumes <;> cases consumes' <;> simp at * <;> omega)
    obtain ⟨k', hk'⟩ := h'.gives next _ c n p hp (hg'.mono hsize) fun m q hq =>
      hnext m q (by cases consumes <;> cases consumes' <;> simp at * <;> omega)
    exact ⟨_, .fork hfork hk hk'⟩

theorem times (h : e.Means g room a consumes) (m : Nat) :
    Emit.Means g room (e.times m) (a.times m) (decide (0 < m) && consumes) := by
  induction m with
  | zero => exact skip
  | succ m ih =>
      have hstep := ih.seq h
      have hconsumes :
          (decide (0 < m) && consumes || consumes) = (decide (0 < m + 1) && consumes) := by
        cases consumes <;> simp
      rw [hconsumes] at hstep
      exact hstep

/-- A copy that may be left out with what follows it. -/
theorem optional {stop : Nat} {d : Trial} (h : e.Means g room a consumes)
    (hstop : ∀ n p, p.after.length < room → g.Gives stop d n p) :
    Emit.Means g room
      (fun next code => Emit.one (decision greedy (e next code).1 stop) (e next code).2)
      (fun c n p => Attempt.either greedy (a c n p) (d n p)) false where
  grows next code := by
    rw [Emit.one, Array.size_push]
    exact Nat.le_succ_of_le (h.grows next code)
  keeps next code i hi := by
    have hi' := Nat.lt_of_lt_of_le hi (h.grows next code)
    rw [Emit.one, Array.getElem?_push_lt hi', ← Array.getElem?_eq_getElem hi', h.keeps _ _ i hi]
  gives next code c n p hp hg hnext := by
    have hg' : g.Holds code.size (e next code).2 :=
      hg.of_keeps (by simp [Emit.one]) fun i hi =>
        Array.getElem?_push_lt hi ▸ (Array.getElem?_eq_getElem hi).symm
    refine Program.gives_decision (hg.last (h.grows next code)) ?_ (hstop n p hp)
    exact h.gives next code c n p hp hg' fun m q hq => hnext m q (by simp; omega)

theorem upTo (greedy : Bool) (h : ∀ room, e.Means g room a consumes) (m : Nat) :
    Emit.Means g room (fun next => e.upTo greedy next m next) (fun c => a.upTo greedy c m c)
      false := by
  have hcopies (room : Nat) (d : Trial) {stop : Nat}
      (hstop : ∀ n p, p.after.length < room → g.Gives stop d n p) :
      Emit.Means g room (e.upTo greedy stop m) (a.upTo greedy d m) false := by
    induction m with
    | zero => exact skip
    | succ m ih => exact ih.seq ((h room).optional hstop)
  exact {
    grows next code := (hcopies 0 (fun _ _ => none) (by simp)).grows next code
    keeps next code := (hcopies 0 (fun _ _ => none) (by simp)).keeps next code
    gives next code c n p _ hg hnext :=
      (hcopies (p.after.length + 1) c fun m q hq => hnext m q (Nat.le_of_lt_succ hq)).gives
        next code c n p (Nat.lt_succ_self _) hg hnext }

/-! ## Loops -/

section

variable (h : e.Means g room a true)
include h

theorem loop_grows (greedy : Bool) (next : Nat) (code : Code) :
    code.size < (e.loop greedy next code).2.2.size := by
  have := h.grows code.size (code.push .accept)
  simp only [Emit.loop, Array.size_setIfInBounds, Array.size_push] at this ⊢
  omega

theorem loop_keeps (next : Nat) (code : Code) (i : Nat) (hi : i < code.size) :
    (e.loop greedy next code).2.2[i]? = code[i]? := by
  rw [Emit.loop, Array.getElem?_setIfInBounds_ne (Nat.ne_of_gt hi),
    h.keeps _ _ i (by rw [Array.size_push]; omega), Array.getElem?_push_lt hi,
    Array.getElem?_eq_getElem hi]

variable (hg : g.Holds code.size (e.loop greedy next code).2.2)
include hg

theorem loop_decision :
    g.code[code.size]? = some (decision greedy (e.loop greedy next code).1 next) := by
  have hlt := h.loop_grows greedy next code
  rw [hg code.size (Nat.le_refl _) hlt, Emit.loop]
  simp only [Emit.loop, Array.size_setIfInBounds] at hlt
  rw [Array.getElem?_setIfInBounds_self_of_lt hlt]

omit h in
/-- The fork is written beside the instructions of the body, which are those behind it. -/
theorem loop_body :
    g.Holds (code.push .accept).size (e code.size (code.push .accept)).2 := by
  intro i hi hlt
  rw [Array.size_push] at hi
  rw [hg i (by omega) (by simpa [Emit.loop] using hlt), Emit.loop,
    Array.getElem?_setIfInBounds_ne (by omega)]

/-- The fork of a loop comes to what the loop does: behind a copy it is reached again with less of
the text. -/
theorem loop_fork (p : Place) (hp : p.after.length < room)
    (hnext : ∀ m q, q.after.length ≤ p.after.length → g.Gives next c m q) (n : Nat) :
    g.Gives code.size (a.loop greedy c) n p := by
  induction hlen : p.after.length using Nat.strongRecOn generalizing n p with
  | _ len ih =>
      subst hlen
      have hbody := h.gives code.size (code.push .accept)
        (fun m q => if q.after.length < p.after.length then a.loop greedy c m q else none) n p hp
        (loop_body hg) fun m q hq => by
          obtain ⟨k, hk⟩ := ih q.after.length hq q (Nat.lt_trans hq hp)
            (fun m' q' hq' => hnext m' q' (Nat.le_of_lt (Nat.lt_of_le_of_lt hq' hq))) m rfl
          have hless : q.after.length < p.after.length := hq
          exact ⟨k, by simpa only [if_pos hless] using hk⟩
      obtain ⟨k, hk⟩ := Program.gives_decision (h.loop_decision hg) hbody
        (hnext n p (Nat.le_refl _))
      exact ⟨k, by rwa [Attempt.loop]⟩

/-- The body of a loop comes to a copy and then to what the loop does. -/
theorem loop_begin (p : Place) (hp : p.after.length < room)
    (hnext : ∀ m q, q.after.length + 1 ≤ p.after.length → g.Gives next c m q) (n : Nat) :
    g.Gives (e.loop greedy next code).1 (a (a.loop greedy c)) n p :=
  h.gives code.size (code.push .accept) (a.loop greedy c) n p hp (loop_body hg) fun m q hq =>
    h.loop_fork hg q (Nat.lt_trans hq hp)
      (fun m' q' hq' => hnext m' q' (Nat.lt_of_le_of_lt hq' hq)) m

omit hg

theorem many (greedy : Bool) : Emit.Means g room (e.many true greedy) (a.loop greedy) false where
  grows next code := Nat.le_of_lt (h.loop_grows greedy next code)
  keeps next code := h.loop_keeps next code
  gives next code c n p hp hg hnext := h.loop_fork hg p hp (fun m q hq => hnext m q (by simpa)) n

theorem atLeast (m : Nat) :
    Emit.Means g room (e.atLeast greedy m) (fun c => a.times (m + 1) (a.loop greedy c)) true := by
  have hloop : Emit.Means g room
      (fun next code => ((e.loop greedy next code).1, (e.loop greedy next code).2.2))
      (fun c => a (a.loop greedy c)) true := {
    grows next code := Nat.le_of_lt (h.loop_grows greedy next code)
    keeps next code := h.loop_keeps next code
    gives next code c n p hp hg hnext := h.loop_begin hg p hp hnext n }
  have hall := (h.times m).seq hloop
  rw [Bool.or_true] at hall
  exact hall

end

end Emit.Means

/-! ## Whole patterns -/

/-- The instructions of a node mean what the node attempts. -/
theorem Node.means (node : Node) (hloops : node.loopsConsume = true) (room : Nat) :
    node.emit.Means g room node.attempt node.consumes := by
  induction node generalizing room with
  | empty => exact .skip
  | oneOf set => exact .oneOf set
  | anchor a => exact .anchor a
  | seq a b iha ihb =>
      rw [loopsConsume, Bool.and_eq_true] at hloops
      exact (iha hloops.1 room).seq (ihb hloops.2 room)
  | alt a b iha ihb =>
      rw [loopsConsume, Bool.and_eq_true] at hloops
      exact (iha hloops.1 room).alt (ihb hloops.2 room)
  | group i body ih =>
      have hmarked := ((Emit.Means.mark (2 * i)).seq (ih hloops room)).seq (.mark (2 * i + 1))
      rw [Bool.false_or, Bool.or_false] at hmarked
      exact hmarked
  | rep body least most greedy ih =>
      rw [loopsConsume, Bool.and_eq_true] at hloops
      have ih := ih hloops.1
      cases most with
      | some most =>
          have hcopies := ((ih room).times least).seq (.upTo greedy ih (most - least))
          rw [Bool.or_false] at hcopies
          cases least <;> exact hcopies
      | none =>
          rw [Option.isSome_none, Bool.false_or] at hloops
          have hbody := hloops.2 ▸ ih room
          cases least with
          | zero =>
              have hmany := hbody.many greedy
              rw [← hloops.2] at hmany
              exact hmany
          | succ m =>
              have hconsumes : (rep body (m + 1) none greedy).consumes = true := by
                simp [consumes, hloops.2]
              rw [hconsumes]
              exact hbody.atLeast m

/-- The program of a tree finds what the tree matches, from the first place from which it matches
anything. -/
theorem Node.find?_ofNode (node : Node) (groups : Nat) (hloops : node.loopsConsume = true) :
    (Program.ofNode node groups).find? =
      fun p => Pattern.firstFrom (node.sighting? groups) 0 p.before p.after := by
  funext p
  have hmeans := node.means (g := .ofNode node groups) hloops
  have haccept : (Program.ofNode node groups).code[0]? = some .accept :=
    (hmeans 0).keeps 0 #[.accept] 0 (by simp)
  refine Program.find?_eq (f := node.attempt fun n _ => some ([], n)) (fun n q => ?_) p
  exact (hmeans (q.after.length + 1)).gives 0 #[.accept] _ n q (Nat.lt_succ_self _)
    (fun i _ _ => rfl) fun m q' _ => ⟨0, .accept haccept⟩

end MdxMend
