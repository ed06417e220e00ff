import MdxMend.Pattern.Nesting
import MdxMend.Pattern.Reader.Escape

/-!
# Classes in patterns

A class lists characters, ranges, sets and other classes between brackets. Two lists can be put
together by an operator that is written as a character twice. Classes that are still open are kept
on a stack, the innermost first.
-/

namespace MdxMend.Pattern

open Text

/-- A member of a class: its characters, where it stands and what is nested in it. -/
structure Member where
  set : CharSet
  stretch : Stretch
  outline : Outline := .leaf

/-- How two sets in a class are put together. -/
inductive SetOperator where
  | intersection
  | difference
  | symmetricDifference

namespace SetOperator

/-- The operator of two equal characters. -/
def ofChar? (c : Char) : Option SetOperator :=
  if c == '&' then some intersection
  else if c == '-' then some difference
  else if c == '~' then some symmetricDifference
  else none

/-- What an operator makes of two sets. -/
def apply : SetOperator → CharSet → CharSet → CharSet
  | intersection, s, t => .inter s t
  | difference, s, t => .inter s (.complement t)
  | symmetricDifference, s, t => .union (.inter s (.complement t)) (.inter t (.complement s))

end SetOperator

/-- A set in which case makes no difference if the flags say so. -/
def folded (flags : Flags) : CharSet → CharSet
  | .single c => .ofChar flags.ignoreCase c
  | s => if flags.ignoreCase then .anyCase s else s

/-- A class that is still open: what was left at its bracket and behind its head, whether it is
negated, what stands before the last operator in it, with that operator, how much was left behind
the operator, and the members since then, the latest first. -/
structure OpenClass where
  opened : Text
  head : Text
  negated : Bool
  left? : Option (Member × SetOperator) := none
  start : Nat
  members : List Member := []

namespace OpenClass

/-- The members since the last operator, as one. -/
def operand (c : OpenClass) : Member where
  set := CharSet.ofList (c.members.reverse.map (·.set))
  stretch := ⟨(c.members.getLast?.map (·.stretch.left)).getD c.start,
    (c.members.head?.map (·.stretch.leftBehind)).getD c.start⟩
  outline := .several
    ⟨(c.members.getLast?.map (·.stretch.left)).getD c.start,
      (c.members.head?.map (·.stretch.leftBehind)).getD c.start⟩
    (c.members.reverse.map (·.outline))

/-- All that has been read of the class, as one member. -/
def whole (c : OpenClass) (flags : Flags) : Member :=
  match c.left? with
  | none => c.operand
  | some (left, op) =>
    let right := c.operand
    let stretch : Stretch := ⟨left.stretch.left, right.stretch.leftBehind⟩
    { set := op.apply (folded flags left.set) (folded flags right.set)
      stretch
      outline := .nested stretch [left.outline, right.outline] }

/-- Goes on behind an operator, where `rest` is left. -/
def operate (c : OpenClass) (flags : Flags) (op : SetOperator) (rest : Text) : OpenClass :=
  { c with left? := some (c.whole flags, op), start := rest.length, members := [] }

/-- A class that has been closed, where `rest` is left behind its bracket. -/
def close (c : OpenClass) (flags : Flags) (rest : Text) : Member :=
  let inner := c.whole flags
  let set := folded flags inner.set
  let stretch := Stretch.between c.opened rest
  { set := if c.negated then .complement set else set
    stretch
    outline := .nested stretch [inner.outline] }

end OpenClass

/-- The members that stand for single characters, one after the other, from `s` on. The last of them
comes first. -/
def singles (s : Text) : Nat → List Member
  | 0 => []
  | n + 1 =>
    match s with
    | [] => []
    | c :: rest => singles rest n ++ [{ set := .single c, stretch := .between s rest }]

/-- The head of a class, from behind its bracket: a negation, hyphens, and a closing bracket if it
comes first; all but the negation stand for themselves. -/
def classHead (s : Text) : Except Fault (OpenClass × Text) :=
  let opened := '[' :: s
  if s.isEmpty then fault .unclosedClass opened []
  else
    let negated := s.head? == some '^'
    let body := if negated then s.tail else s
    if body.isEmpty then fault .unclosedClass opened []
    else
      let hyphens := singles body (body.takeWhile (· == '-')).length
      let rest := body.dropWhile (· == '-')
      if rest.isEmpty then fault .unclosedClass opened opened
      else if hyphens.isEmpty && rest.head? == some ']' then
        if rest.tail.isEmpty then fault .unclosedClass opened []
        else
          .ok ({ opened, head := rest.tail, negated, start := body.length, members := singles rest 1 },
            rest.tail)
      else .ok ({ opened, head := rest, negated, start := body.length, members := hyphens }, rest)

/-- One character or escape in a class. -/
def classItem : Text → Except Fault (Item × Text)
  | [] => fault .unclosedClass [] []
  | c :: s => if c == '\\' then escape s else .ok (.char c, s)

/-- The character at a bound of a range. -/
def rangeBound (item : Item) (s rest : Text) : Except Fault Char :=
  match item with
  | .char c => .ok c
  | _ => fault .classRangeBound s rest

/-- A member of a class: one character, a set, or a range. -/
def classMember (unclosed : Except Fault (CharSet × Text)) (s : Text) :
    Except Fault (CharSet × Text) := do
  let (item, rest) ← classItem s
  if rest.isEmpty then unclosed
  else if rest.head? != some '-' || rest.tail.head? == some ']' || rest.tail.head? == some '-' then
    match item with
    | .char c => .ok (.single c, rest)
    | .set t => .ok (t, rest)
    | .anchor _ => fault .classEscape s rest
  else if rest.tail.isEmpty then unclosed
  else
    let (item', rest') ← classItem rest.tail
    let first ← rangeBound item s rest
    let last ← rangeBound item' rest.tail rest'
    if last < first then fault .classRangeOrder s rest' else .ok (.between first last, rest')

/-- The sets that have names, by ranges. -/
def namedRanges : List (String × List (Char × Char)) := [
  ("alnum", [('0', '9'), ('A', 'Z'), ('a', 'z')]),
  ("alpha", [('A', 'Z'), ('a', 'z')]),
  ("ascii", [('\x00', '\x7f')]),
  ("blank", [('\t', '\t'), (' ', ' ')]),
  ("cntrl", [('\x00', '\x1f'), ('\x7f', '\x7f')]),
  ("digit", [('0', '9')]),
  ("graph", [('!', '~')]),
  ("lower", [('a', 'z')]),
  ("print", [(' ', '~')]),
  ("punct", [('!', '/'), (':', '@'), ('[', '\x60'), ('\x7b', '~')]),
  ("space", [('\t', '\r'), (' ', ' ')]),
  ("upper", [('A', 'Z')]),
  ("word", [('0', '9'), ('A', 'Z'), ('_', '_'), ('a', 'z')]),
  ("xdigit", [('0', '9'), ('A', 'F'), ('a', 'f')])]

/-- A set given by name, from behind the bracket of `[:name:]`, and what is left behind it. A caret
in front of the name stands for all other characters. Anything else is not a name but a class. -/
def namedSet? : Text → Option (CharSet × Text)
  | ':' :: s =>
    let negated := s.head? == some '^'
    let body := if negated then s.tail else s
    match body.dropWhile (· != ':') with
    | ':' :: ']' :: rest =>
      (namedRanges.lookup (String.ofList (body.takeWhile (· != ':')))).map fun ranges =>
        let set := CharSet.ofList (ranges.map fun (first, last) => .between first last)
        (if negated then .complement set else set, rest)
    | _ => none
  | _ => none

/-- The operator at the head of what is left of a class: the same character twice. -/
def setOperator? (c : Char) (s : Text) : Option SetOperator :=
  if s.head? == some c then SetOperator.ofChar? c else none

/-- The members of the class `current` and of the classes around it, up to the bracket that closes
the outermost. -/
def classMembers (flags : Flags) (current : OpenClass) (outer : List OpenClass) :
    Text → Except Fault (Member × Text)
  | [] => fault .unclosedClass current.opened current.head
  | c :: s =>
    if c == ']' then
      match outer with
      | [] => .ok (current.close flags s, s)
      | enclosing :: outer' =>
        classMembers flags
          { enclosing with members := current.close flags s :: enclosing.members } outer' s
    else if c == '[' then
      match namedSet? s with
      | some (set, rest) =>
        let member : Member := { set, stretch := .between (c :: s) rest }
        classMembers flags { current with members := member :: current.members } outer
          (behind s rest)
      | none =>
        match classHead s with
        | .error e => .error e
        | .ok (inner, rest) => classMembers flags inner (current :: outer) (behind s rest)
    else
      match setOperator? c s with
      | some op => classMembers flags (current.operate flags op s.tail) outer s.tail
      | none =>
        let unclosed := fault .unclosedClass current.opened current.head
        match classMember unclosed (c :: s) with
        | .error e => .error e
        | .ok (set, rest) =>
          let member : Member := { set, stretch := .between (c :: s) rest }
          classMembers flags { current with members := member :: current.members } outer
            (behind s rest)
termination_by s => s.length
decreasing_by
  · simp
  · have := behind_length s rest
    simp only [List.length_cons]
    omega
  · have := behind_length s rest
    simp only [List.length_cons]
    omega
  · simp only [List.length_tail, List.length_cons]
    omega
  · have := behind_length s rest
    simp only [List.length_cons]
    omega

/-- A class, from behind its bracket. -/
def charClass (flags : Flags) (s : Text) : Except Fault (Member × Text) := do
  let (current, rest) ← classHead s
  classMembers flags current [] rest

end MdxMend.Pattern
