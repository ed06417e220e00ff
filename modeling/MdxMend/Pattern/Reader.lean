import MdxMend.Pattern.Reader.Class
import MdxMend.Pattern.Search
import MdxMend.Pattern.Size

/-!
# Reading a pattern

A pattern is read from the front, one item at a time, and the first fault ends the reading. Groups
that are still open are kept on a stack, each with the alternatives and the items it has so far.
Flags set in a group hold until the group ends, across its alternatives. A pattern that has been
read is refused all the same if it is nested too deeply or its program would be too large.

Every reading function gives what it has read and what is left; how much is left also says where a
fault lies.
-/

namespace MdxMend.Pattern

open Text

/-! ## Groups -/

/-- An item of a sequence: its node, what is nested in it, and how much of the pattern was left at
its beginning. An item that sets flags has no node; it matches nothing and cannot be repeated. -/
structure Part where
  node? : Option Node
  outline : Outline := .leaf
  left : Nat

/-- A group that is still open, or the whole pattern: what was left at its parenthesis, its number
if it has one, the flags around it, its finished alternatives and the items of the last one, each
the latest first, and how much was left where the first and the last alternative begin. -/
structure Level where
  opened : Text := []
  index : Option Nat := none
  outerFlags : Flags := {}
  alternatives : List (Node × Outline) := []
  items : List Part := []
  first : Nat
  last : Nat := first

namespace Level

/-- The last alternative, where `rest` is left behind it. -/
def branch (l : Level) (rest : Text) : Node × Outline :=
  let items := l.items.reverse
  (.concat (items.filterMap (·.node?)),
    .several ⟨l.last, rest.length⟩ (items.map (·.outline)))

/-- Ends the last alternative at `rest` and begins one behind the bar. -/
def nextBranch (l : Level) (rest : Text) : Level :=
  { l with alternatives := l.branch rest :: l.alternatives, items := [], last := rest.length - 1 }

/-- The whole level, where `rest` is left behind it. -/
def close (l : Level) (rest : Text) : Node × Outline :=
  let all := (l.branch rest :: l.alternatives).reverse
  let body := Node.choice (all.map (·.1))
  (match l.index with
    | some i => .group i body
    | none => body,
    .several ⟨l.first, rest.length⟩ (all.map (·.2)))

end Level

/-- The state of reading: the innermost open level, the levels around it, the flags that hold, the
number of groups so far, and the names given, each with its place. -/
structure State where
  level : Level
  outer : List Level := []
  flags : Flags := {}
  groups : Nat := 0
  names : List (String × Nat × Stretch) := []

/-- Adds an item to the last alternative. -/
def State.add (st : State) (p : Part) : State :=
  { st with level := { st.level with items := p :: st.level.items } }

/-- Opens a group, where `rest` is left behind its head. -/
def State.openGroup (st : State) (opened : Text) (index : Option Nat) (flags : Flags)
    (rest : Text) : State :=
  { st with
    level := { opened, index, outerFlags := st.flags, first := rest.length }
    outer := st.level :: st.outer
    flags }

/-- Whether a character may stand in the name of a group. -/
def isGroupNameChar (first : Bool) (c : Char) : Bool :=
  isLetter c || c == '_' || (!first && (isNumeral c || c == '.' || c == '[' || c == ']'))

/-- The name of a group, up to its closing angle bracket. `name` holds what has been read of it, the
latest first. -/
def groupName (name : Text) : Text → Except Fault (Text × Text)
  | [] => fault .unclosedName [] []
  | c :: s =>
    if c == '>' then .ok (name.reverse, s)
    else if isGroupNameChar name.isEmpty c then groupName (c :: name) s
    else fault .nameCharacter (c :: s) s

/-- Opens a named group, from behind the angle bracket. -/
def namedGroup (st : State) (opened s : Text) : Except Fault (State × Text) := do
  let (name, rest) ← groupName [] s
  if name.isEmpty then fault .emptyName s s
  else
    let stretch := Stretch.between s ('>' :: rest)
    let index := st.groups + 1
    match st.names.lookup (String.ofList name) with
    | some (_, earlier) => .error { cause := .duplicateName, stretch, earlier := some earlier }
    | none =>
      let named := { st with
        groups := index, names := st.names ++ [(String.ofList name, index, stretch)] }
      .ok (named.openGroup opened (some index) st.flags rest, rest)

/-- Flags as read so far. `negation` is what was left at the minus sign that comes last. -/
structure FlagRun where
  flags : Flags
  negated : Bool := false
  seen : Text := []
  negation : Option Text := none

/-- Sets or clears the flag of a letter. -/
def FlagRun.set (r : FlagRun) (c : Char) : Option FlagRun :=
  let run := { r with seen := c :: r.seen, negation := none }
  if c == 'i' then some { run with flags := { r.flags with ignoreCase := !r.negated } }
  else if c == 'm' then some { run with flags := { r.flags with multiLine := !r.negated } }
  else if c == 's' then some { run with flags := { r.flags with dotAll := !r.negated } }
  else none

/-- Flags up to the colon or the parenthesis behind them. -/
def flagRun (run : FlagRun) : Text → Except Fault (FlagRun × Text)
  | [] => fault .unfinishedFlags [] []
  | c :: s =>
    if c == ':' || c == ')' then
      match run.negation with
      | some minus => fault .danglingNegation minus minus.tail
      | none => .ok (run, c :: s)
    else if c == '-' then
      if run.negated then fault .repeatedNegation (c :: s) s
      else flagRun { run with negated := true, seen := c :: run.seen, negation := some (c :: s) } s
    else
      match run.set c with
      | none => fault .unknownFlag (c :: s) s
      | some run' => if run.seen.contains c then fault .repeatedFlag (c :: s) s else flagRun run' s

/-- A group with flags or flags alone, from behind the question mark. -/
def flaggedGroup (st : State) (opened s : Text) : Except Fault (State × Text) := do
  if s.isEmpty then fault .unclosedGroup opened opened.tail
  else
    let (run, rest) ← flagRun { flags := st.flags } s
    if rest.head? == some ')' then
      if run.seen.isEmpty then fault .missingOperand ('?' :: s) ('?' :: s)
      else
        let item : Part := { node? := none, left := opened.length }
        .ok ({ st.add item with flags := run.flags }, rest.tail)
    else .ok (st.openGroup opened none run.flags rest.tail, rest.tail)

/-- The beginnings of groups that look around. -/
def lookAroundHeads : List Text := [['?', '='], ['?', '!'], ['?', '<', '='], ['?', '<', '!']]

/-- Opens a group, from behind its parenthesis. -/
def group (st : State) (s : Text) : Except Fault (State × Text) :=
  let opened := '(' :: s
  match lookAroundHeads.find? (·.isPrefixOf s) with
  | some head => fault .lookAround opened (s.drop head.length)
  | none =>
    match s with
    | '?' :: 'P' :: '<' :: rest => namedGroup st opened rest
    | '?' :: '<' :: rest => namedGroup st opened rest
    | '?' :: rest => flaggedGroup st opened rest
    | _ =>
      let index := st.groups + 1
      .ok ({ st with groups := index }.openGroup opened (some index) st.flags s, s)

/-- Closes the innermost group, at its parenthesis. -/
def closeGroup (st : State) (s : Text) : Except Fault (State × Text) :=
  match st.outer with
  | [] => fault .unopenedGroup (')' :: s) s
  | level :: outer =>
    let (node, inner) := st.level.close (')' :: s)
    let item : Part := {
      node? := some node
      outline := .nested (.between st.level.opened s) [inner]
      left := st.level.opened.length }
    .ok ({ st with level, outer, flags := st.level.outerFlags }.add item, s)

/-! ## Repetitions -/

/-- What an operator repeats: its node, what is nested in it, and how much was left where it
begins. -/
structure Operand where
  node : Node
  outline : Outline
  left : Nat

/-- Takes the last item, which an operator at `s` repeats. -/
def operand (st : State) (s : Text) : Except Fault (Operand × State) :=
  match st.level.items with
  | ⟨some node, outline, left⟩ :: items =>
    .ok (⟨node, outline, left⟩, { st with level := { st.level with items } })
  | _ => fault .missingOperand s s

/-- Copies of an operand as an item, where `rest` is left behind the operator. -/
def Operand.repeated (o : Operand) (least : Nat) (most : Option Nat) (greedy : Bool)
    (rest : Text) : Part where
  node? := some (o.node.repeated least most greedy)
  outline := .nested ⟨o.left, rest.length⟩ [o.outline]
  left := o.left

/-- A question mark behind an operator, which makes it prefer fewer copies. -/
def laziness (s : Text) : Bool × Text :=
  if s.head? == some '?' then (false, s.tail) else (true, s)

/-- A repetition operator of one character. -/
def repetition (st : State) (op : Char) (least : Nat) (most : Option Nat) (s : Text) :
    Except Fault (State × Text) := do
  let (o, st') ← operand st (op :: s)
  let (greedy, rest) := laziness s
  .ok (st'.add (o.repeated least most greedy rest), rest)

/-- The largest count that a repetition may have. -/
def maxCount : Nat := Nat.pow 2 32 - 1

/-- A number with blanks around it, or what is wrong with it, and what is left behind it. Other
faults may come first, so this one is kept until the number is needed. -/
def count (s : Text) : Except Fault Nat × Text :=
  let start := s.dropWhile isBlank
  let digits := start.takeWhile isDigit
  let behindDigits := start.dropWhile isDigit
  let n := digits.foldl (fun n c => 10 * n + digitValue c) 0
  (if digits.isEmpty then fault .missingCount start start
    else if n ≤ maxCount then .ok n
    else fault .countTooLarge start behindDigits,
    behindDigits.dropWhile isBlank)

/-- The counts of a repetition, and what is left behind them. `unclosed` is the fault of a pattern
that ends too early. -/
def counts (unclosed : Except Fault (Nat × Option Nat × Text)) (s : Text) :
    Except Fault (Nat × Option Nat × Text) := do
  let (first, rest) := count s
  if rest.isEmpty then unclosed
  else if rest.head? != some ',' then
    let n ← first
    .ok (n, some n, rest)
  else if rest.tail.isEmpty then unclosed
  else if rest.tail.head? == some '\x7d' then .ok (← first, none, rest.tail)
  else
    let least ← first
    let (second, rest') := count rest.tail
    .ok (least, some (← second), rest')

/-- A repetition with counts, from behind its brace. -/
def countedRepetition (st : State) (s : Text) : Except Fault (State × Text) := do
  let opened := '\x7b' :: s
  let (o, st') ← operand st opened
  let (least, most, rest) ← counts (fault .unclosedCount opened []) s
  if rest.head? != some '\x7d' then fault .unclosedCount opened rest
  else
    let (greedy, rest') := laziness rest.tail
    if most.any (· < least) then fault .countOrder opened rest'
    else .ok (st'.add (o.repeated least most greedy rest'), rest')

/-! ## Whole patterns -/

/-- The node of a single item under flags. -/
def Item.node (flags : Flags) : Item → Node
  | .char c => .oneOf (.ofChar flags.ignoreCase c)
  | .set s => .oneOf s
  | .anchor a => .anchor a

/-- Reads the item that begins with `c`. -/
def step (st : State) (c : Char) (s : Text) : Except Fault (State × Text) :=
  if c == '(' then group st s
  else if c == ')' then closeGroup st s
  else if c == '|' then
    .ok ({ st with level := st.level.nextBranch (c :: s) }, s)
  else if c == '[' then do
    let (m, rest) ← charClass st.flags s
    .ok (st.add ⟨some (.oneOf m.set), m.outline, s.length + 1⟩, rest)
  else if c == '?' then repetition st c 0 (some 1) s
  else if c == '*' then repetition st c 0 none s
  else if c == '+' then repetition st c 1 none s
  else if c == '\x7b' then countedRepetition st s
  else if c == '\\' then do
    let (item, rest) ← escape s
    .ok (st.add ⟨some (item.node st.flags), .leaf, s.length + 1⟩, rest)
  else
    let item : Item :=
      if c == '.' then .set (if st.flags.dotAll then .all else .complement (.single '\n'))
      else if c == '^' then .anchor (if st.flags.multiLine then .lineStart else .textStart)
      else if c == '$' then .anchor (if st.flags.multiLine then .lineEnd else .textEnd)
      else .char c
    .ok (st.add ⟨some (item.node st.flags), .leaf, s.length + 1⟩, s)

/-- Reads items to the end of the pattern. -/
def steps (st : State) : Text → Except Fault State
  | [] => .ok st
  | c :: s =>
    match step st c s with
    | .error e => .error e
    | .ok (st', rest) => steps st' (behind s rest)
termination_by s => s.length
decreasing_by
  have := behind_length s rest
  simp only [List.length_cons]
  omega

/-- Reads a tree, with the number of its groups and their names. -/
def read (s : Text) : Except Fault (Node × Nat × List (String × Nat)) := do
  let st ← steps { level := { first := s.length } } s
  match st.outer with
  | [] =>
    let (node, outline) := st.level.close []
    match outline.beyond? Outline.maxDepth with
    | some stretch => .error { cause := .tooDeep, stretch }
    | none => .ok (node, st.groups, st.names.map fun (name, index, _) => (name, index))
  | _ => fault .unclosedGroup st.level.opened st.level.opened.tail

/-- Reads a pattern. -/
def ofSource (source : String) : Except Flaw Pattern :=
  match read source.toList with
  | .error f => .error (.unreadable f)
  | .ok (node, groups, names) =>
    if node.isTooLarge then .error (.tooLarge Node.maxSize)
    else
      let program := Program.ofNode node groups
      .ok { source, names, find? := program.find? }

end MdxMend.Pattern
