import JsonPath.Double

/-!
The shortest decimal that reads back as a given double, and its layout. A decimal reads
back when it lies in the interval of values that round to the double, ends included
exactly when the mantissa is even. Among the shortest the nearest is taken.
-/

namespace JsonPath

/-- The decimal `digits * 10 ^ exponent`. -/
structure Decimal where
  digits : Nat
  exponent : Int
deriving DecidableEq

namespace Decimal

/-- Zeros at the end of the digits are moved into the exponent, at most `fuel` of them. -/
def trimZeros : Nat → Decimal → Decimal
  | 0, d => d
  | fuel + 1, d =>
    if d.digits ≠ 0 ∧ d.digits % 10 = 0 then trimZeros fuel ⟨d.digits / 10, d.exponent + 1⟩
    else d

end Decimal

namespace Double

/-- The values that round to a double, in quarters of its unit, between `low` and `high`. -/
structure Interval where
  low : Nat
  value : Nat
  high : Nat
  closed : Bool

/-- Half the distance to each neighbour. Below a power of two the neighbours are closer. -/
def interval (d : Double) : Interval :=
  let value := 4 * d.magnitude
  let gap := 2 ^ d.shift
  let below := if d.mantissa = 2 ^ 52 ∧ d.shift ≠ 0 then gap else 2 * gap
  ⟨value - below, value, value + 2 * gap, d.mantissa % 2 = 0⟩

/-- The power of ten of the first digit of a positive double. -/
def leadingExponent (d : Double) : Int :=
  (Nat.toDigits 10 (d.magnitude * 10 ^ 330 / 2 ^ 1074)).length - 331

/-- The multiple of `10 ^ exponent` nearest to the double among its two neighbours on that
grid that read back, if one does. -/
def onGrid? (d : Double) (exponent : Int) : Option Decimal :=
  let i := d.interval
  let step := if exponent < 0 then 2 ^ 1076 else 10 ^ exponent.natAbs * 2 ^ 1076
  let scale := if exponent < 0 then 10 ^ exponent.natAbs else 1
  let reads (n : Nat) : Bool :=
    if i.closed then i.low * scale ≤ n * step ∧ n * step ≤ i.high * scale
    else i.low * scale < n * step ∧ n * step < i.high * scale
  let below := i.value * scale / step
  let above := below + 1
  let toBelow := i.value * scale - below * step
  let toAbove := above * step - i.value * scale
  if reads below && reads above then
    if toBelow < toAbove then some ⟨below, exponent⟩
    else if toAbove < toBelow then some ⟨above, exponent⟩
    else some ⟨below + below % 2, exponent⟩
  else if reads below then some ⟨below, exponent⟩
  else if reads above then some ⟨above, exponent⟩
  else none

/-- The decimal with the fewest digits that reads back as the double's magnitude. -/
def shortest (d : Double) : Decimal :=
  if d.mantissa = 0 then ⟨0, 0⟩
  else
    let leading := d.leadingExponent
    let found := (List.range 17).findSome? fun (n : Nat) => d.onGrid? (leading - n)
    (found.getD ⟨0, 0⟩).trimZeros 20

end Double

/-- Where a number is written positionally, by the power of ten of its first digit. -/
structure DecimalLayout where
  lowest : Int
  highest : Int

/-- Numbers from `0.00001` up to but not including `10 ^ 16` are written positionally. -/
def DecimalLayout.json : DecimalLayout := ⟨-5, 15⟩

namespace Decimal

/-- The digits with a point placed after the first `whole` of them, zeros filling up. A
fraction always has a digit. -/
def positional (digits : String) (whole : Int) : String :=
  let count : Int := digits.length
  if whole ≤ 0 then
    "0." ++ String.ofList (List.replicate whole.natAbs '0') ++ digits
  else if count ≤ whole then
    digits ++ String.ofList (List.replicate (whole - count).natAbs '0') ++ ".0"
  else
    String.ofList (digits.toList.take whole.natAbs) ++ "." ++
      String.ofList (digits.toList.drop whole.natAbs)

/-- One digit before the point, no point without a fraction, and a signed exponent. -/
def scientific (digits : String) (leading : Int) : String :=
  let first := String.ofList (digits.toList.take 1)
  let rest := String.ofList (digits.toList.drop 1)
  let fraction := if rest = "" then "" else "." ++ rest
  let sign := if leading < 0 then "-" else "+"
  first ++ fraction ++ "e" ++ sign ++ toString leading.natAbs

def text (layout : DecimalLayout) (d : Decimal) : String :=
  if d.digits = 0 then "0.0"
  else
    let digits := String.ofList (Nat.toDigits 10 d.digits)
    let whole := digits.length + d.exponent
    if layout.lowest ≤ whole - 1 ∧ whole - 1 ≤ layout.highest then positional digits whole
    else scientific digits (whole - 1)

end Decimal

/-- The text of a double: its sign, also for zero, and its shortest decimal. -/
def Double.text (d : Double) : String :=
  (if d.negative then "-" else "") ++ d.shortest.text .json

end JsonPath
