import MdxMend.Json.Fault

/-!
# Numbers in a JSON document

No setting is a number, so a number is read for two reasons only. One that stands for an unknown
field is passed over, and only its form matters. One that stands where another type is wanted is
shown in the report: an integer of up to 64 bits as it is, any other as the nearest double.

The double is made from a significand of at most 64 bits and a power of ten by floating point
steps, so it can differ in the last digit from the double that is nearest to the digits as written.
-/

namespace MdxMend.Json

open Text

/-! ## The form of a number -/

/-- Passes over an exponent from behind its letter. -/
def skipExponent (s : Text) : Except Fault Text :=
  let digits :=
    match s with
    | '+' :: t => t
    | '-' :: t => t
    | _ => s
  match digits with
  | c :: t => if isDigit c then .ok (t.dropWhile isDigit) else .error (.on .badNumber digits)
  | [] => .error (.on .badNumber [])

/-- Passes over an exponent if there is one. -/
def skipExponent? (s : Text) : Except Fault Text :=
  match s with
  | 'e' :: t => skipExponent t
  | 'E' :: t => skipExponent t
  | _ => .ok s

/-- Passes over what follows the integer part of a number. -/
def skipFraction (s : Text) : Except Fault Text :=
  match s with
  | '.' :: c :: t =>
    if isDigit c then skipExponent? (t.dropWhile isDigit) else .error (.on .badNumber (c :: t))
  | ['.'] => .error (.on .badNumber [])
  | _ => skipExponent? s

/-- Passes over a number from behind its sign. A zero is not followed by digits. -/
def skipNumber (s : Text) : Except Fault Text :=
  match s with
  | '0' :: c :: t => if isDigit c then .error (.on .badNumber (c :: t)) else skipFraction (c :: t)
  | c :: t =>
    if isDigit c then skipFraction (t.dropWhile isDigit) else .error (.on .badNumber s)
  | [] => .error (.on .badNumber [])

/-! ## The value of a number -/

/-- The largest significand. -/
def maxSignificand : Nat := Nat.pow 2 64 - 1

/-- The largest exponent that is counted. -/
def maxExponent : Nat := Nat.pow 2 31 - 1

/-- Appends digits to the number `m` as long as it stays within `limit`: the number and what is
left. -/
def absorb (limit m : Nat) : Text → Nat × Text
  | [] => (m, [])
  | c :: t =>
    if isDigit c && 10 * m + digitValue c ≤ limit then absorb limit (10 * m + digitValue c) t
    else (m, c :: t)

/-- A power of ten as a double. -/
def powerOfTen (n : Nat) : Float := Float.ofScientific 1 false n

/-- The largest power of ten that is a double. -/
def maxPower : Nat := 308

/-- `x` divided by a power of ten, in steps that the power is a double in. -/
def divideByPower (x : Float) (n : Nat) : Float :=
  if n ≤ maxPower then x / powerOfTen n
  else if x == 0.0 then x
  else divideByPower (x / powerOfTen maxPower) (n - maxPower)
termination_by n
decreasing_by
  simp only [maxPower] at *
  omega

/-- The double `m * 10 ^ exponent`, unless it is too large. -/
def scaled? (m : Nat) (exponent : Int) : Option Float :=
  let x := Float.ofNat m
  if exponent < 0 then some (divideByPower x exponent.natAbs)
  else if exponent.natAbs ≤ maxPower then
    let y := x * powerOfTen exponent.natAbs
    if y.isInf then none else some y
  else if x == 0.0 then some x
  else none

/-- A number that is no integer, in front of what follows it. -/
def decimal (negative : Bool) (m : Nat) (exponent : Int) (rest : Text) :
    Except Fault (Found × Text) :=
  match scaled? m exponent with
  | some x => .ok (.decimal (Decimal.ofFloat (if negative then -x else x)), rest)
  | none => .error (.before .numberRange rest)

/-- Reads an exponent from behind its letter. An exponent with too many digits makes the number
zero or too large. -/
def readExponent (negative : Bool) (m : Nat) (exponent : Int) (s : Text) :
    Except Fault (Found × Text) :=
  let (down, digits) : Bool × Text :=
    match s with
    | '+' :: t => (false, t)
    | '-' :: t => (true, t)
    | _ => (false, s)
  match digits with
  | [] => .error (.before .endInValue [])
  | c :: t =>
    if !isDigit c then .error (.on .badNumber digits)
    else
      let (n, rest) := absorb maxExponent (digitValue c) t
      if (rest.takeWhile isDigit).isEmpty then
        decimal negative m (if down then exponent - n else exponent + n) rest
      else if m != 0 && !down then .error (.on .numberRange rest)
      else decimal negative 0 0 (rest.dropWhile isDigit)

/-- Reads what follows the digits of a number that is no integer. -/
def readScale (negative : Bool) (m : Nat) (exponent : Int) (s : Text) :
    Except Fault (Found × Text) :=
  match s with
  | 'e' :: t => readExponent negative m exponent t
  | 'E' :: t => readExponent negative m exponent t
  | _ => decimal negative m exponent s

/-- Reads the digits behind a decimal point. Those that the significand has no room for count for
nothing. -/
def readFraction (negative : Bool) (m : Nat) (exponent : Int) (s : Text) :
    Except Fault (Found × Text) :=
  match s with
  | [] => .error (.on .endInValue [])
  | c :: _ =>
    if !isDigit c then .error (.on .badNumber s)
    else
      let (m', rest) := absorb maxSignificand m s
      readScale negative m' (exponent - (s.length - rest.length : Nat)) (rest.dropWhile isDigit)

/-- Reads what follows the integer part of a number. -/
def readTail (negative : Bool) (m : Nat) (s : Text) : Except Fault (Found × Text) :=
  match s with
  | '.' :: t => readFraction negative m 0 t
  | 'e' :: t => readExponent negative m 0 t
  | 'E' :: t => readExponent negative m 0 t
  | _ =>
    if !negative then .ok (.integer m, s)
    else if m == 0 || Nat.pow 2 63 < m then decimal true m 0 s
    else .ok (.integer (-m), s)

/-- Reads a number from behind its sign. Digits of the integer part that the significand has no
room for count as zeros. -/
def readNumber (negative : Bool) (s : Text) : Except Fault (Found × Text) :=
  match s with
  | [] => .error (.before .endInValue [])
  | '0' :: t =>
    if (t.takeWhile isDigit).isEmpty then readTail negative 0 t else .error (.on .badNumber t)
  | c :: t =>
    if !isDigit c then .error (.on .badNumber s)
    else
      let (m, rest) := absorb maxSignificand (digitValue c) t
      let more := rest.takeWhile isDigit
      let rest := rest.dropWhile isDigit
      if more.isEmpty then readTail negative m rest
      else
        match rest with
        | '.' :: u => readFraction negative m more.length u
        | _ => readScale negative m more.length rest

end MdxMend.Json
