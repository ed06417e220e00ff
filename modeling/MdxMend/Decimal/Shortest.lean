import MdxMend.Text.Basic

/-!
# The shortest decimal of a floating point number

A double is written with the fewest digits that read back as it. A decimal reads back if it lies
between the two points half way to the neighbouring doubles; the points themselves count if the
double's significand is even. Of the two decimals of a given length that enclose the double, the
nearer one is taken. All comparisons are between natural numbers.
-/

namespace MdxMend.Decimal

/-- A positive double as `significand * 2 ^ (exponent - 1074)`. -/
structure Parts where
  significand : Nat
  exponent : Nat

/-- The magnitude of a double by its bits. -/
def Parts.ofBits (bits : Nat) : Parts :=
  let fraction := bits % Nat.pow 2 52
  let biased := bits / Nat.pow 2 52 % Nat.pow 2 11
  if biased = 0 then ⟨fraction, 0⟩ else ⟨fraction + Nat.pow 2 52, biased - 1⟩

namespace Parts

/-- Four times the magnitude, in units of `2 ^ -1076`, and the distances from it to the two points
half way to its neighbours, in the same units. -/
def scaled (p : Parts) : Nat × Nat × Nat :=
  let unit := Nat.pow 2 p.exponent
  let below := if p.significand = Nat.pow 2 52 && p.exponent > 0 then unit else 2 * unit
  (4 * p.significand * unit, below, 2 * unit)

/-- The unit of `scaled` as a fraction of one: its denominator. -/
def denominator : Nat := Nat.pow 2 1076

/-- Whether the decimal `digits * 10 ^ power / 10 ^ drop` reads back as the double. -/
def readsBack (p : Parts) (digits power drop : Nat) : Bool :=
  let (value, below, above) := p.scaled
  let candidate := digits * Nat.pow 10 power * denominator
  let low := (value - below) * Nat.pow 10 drop
  let high := (value + above) * Nat.pow 10 drop
  if p.significand % 2 = 0 then low ≤ candidate && candidate ≤ high
  else low < candidate && candidate < high

/-- The number of digits in front of the decimal point, and zero for a number below one. -/
def integerDigits (p : Parts) : Nat :=
  let n := p.scaled.1 / denominator
  if n = 0 then 0 else (Nat.toDigits 10 n).length

/-- The number of zeros between the decimal point and the first digit of a number below one. -/
def leadingZeros (p : Parts) : Nat :=
  let digits := p.scaled.1 * Nat.pow 10 400 / denominator
  400 - (Nat.toDigits 10 digits).length

/-- The decimal of `n` digits nearest to the double, if it reads back: its digits and the power of
ten they are multiplied with. -/
def nearest? (p : Parts) (n : Nat) : Option (Nat × Int) :=
  let point : Int := if p.integerDigits = 0 then -(p.leadingZeros : Int) else p.integerDigits
  let exponent : Int := point - n
  let power := exponent.toNat
  let drop := (-exponent).toNat
  let value := p.scaled.1 * Nat.pow 10 drop
  let unit := denominator * Nat.pow 10 power
  let down := value / unit
  let rest := value % unit
  let nearer := if 2 * rest < unit || (2 * rest = unit && down % 2 = 0) then down else down + 1
  let other := if nearer = down then down + 1 else down
  if p.readsBack nearer power drop then some (nearer, exponent)
  else if p.readsBack other power drop then some (other, exponent)
  else none

/-- The shortest decimal that reads back: its digits and the power of ten. Seventeen digits always
do. -/
def shortest (p : Parts) : Nat × Int :=
  ((List.range 17).findSome? fun n => p.nearest? (n + 1)).getD (0, 0)

end Parts

/-- Drops the zeros at the end of a number in favour of its power of ten. -/
def stripZeros : Nat → Nat → Int → Nat × Int
  | 0, digits, exponent => (digits, exponent)
  | fuel + 1, digits, exponent =>
    if digits ≠ 0 && digits % 10 = 0 then stripZeros fuel (digits / 10) (exponent + 1)
    else (digits, exponent)

/-- A decimal as text: positional with at least one digit behind the point if the point lies among
or near the digits, scientific with a signed power of ten otherwise. -/
def layout (digits : Nat) (exponent : Int) : Text :=
  let shown := Nat.toDigits 10 digits
  let point : Int := shown.length + exponent
  if 0 ≤ exponent && point ≤ 16 then
    shown ++ List.replicate exponent.toNat '0' ++ ['.', '0']
  else if 0 < point && point ≤ 16 then
    shown.take point.toNat ++ ['.'] ++ shown.drop point.toNat
  else if -5 < point && point ≤ 0 then
    ['0', '.'] ++ List.replicate (-point).toNat '0' ++ shown
  else
    let power := (if 0 < point then ['+'] else []) ++ (toString (point - 1)).toList
    match shown with
    | [d] => [d, 'e'] ++ power
    | d :: rest => [d, '.'] ++ rest ++ ['e'] ++ power
    | [] => []

/-- A finite double as text. -/
def ofFloat (x : Float) : Text :=
  let bits := x.toBits.toNat
  let sign : Text := if bits ≥ Nat.pow 2 63 then ['-'] else []
  let parts := Parts.ofBits (bits % Nat.pow 2 63)
  if parts.significand = 0 then sign ++ ['0', '.', '0']
  else
    let (digits, exponent) := parts.shortest
    let (digits, exponent) := stripZeros 20 digits exponent
    sign ++ layout digits exponent

end MdxMend.Decimal
