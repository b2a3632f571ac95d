import JsonPath.Power

/-!
Finite binary floating-point numbers with 53 bits of precision. Each one is a whole
number of units of 2^-1074, so order, equality and rounding to nearest are exact
arithmetic on whole numbers.
-/

namespace JsonPath

/-- The double `± mantissa * 2 ^ shift` units of `2 ^ -1074`. The conditions leave one
form for each value, apart from the two zeros. -/
structure Double where
  negative : Bool
  mantissa : Nat
  shift : Nat
  mantissa_lt : mantissa < 2 ^ 53
  normal : shift = 0 ∨ 2 ^ 52 ≤ mantissa
  shift_le : shift ≤ 2045
deriving DecidableEq

/-- The whole number nearest to `num / den`; a tie goes to the even one. -/
def roundDiv (num den : Nat) : Nat :=
  let quotient := num / den
  let remainder := num % den
  if 2 * remainder < den then quotient
  else if den < 2 * remainder then quotient + 1
  else quotient + quotient % 2

namespace Double

/-- Zero, with a sign. -/
def zero (negative : Bool) : Double where
  negative := negative
  mantissa := 0
  shift := 0
  mantissa_lt := by decide
  normal := .inl rfl
  shift_le := by decide

/-- The largest finite double, with a sign. -/
def largest (negative : Bool) : Double where
  negative := negative
  mantissa := 2 ^ 53 - 1
  shift := 2045
  mantissa_lt := by decide
  normal := .inr (by decide)
  shift_le := by decide

/-- The magnitude in units of `2 ^ -1074`. -/
def magnitude (d : Double) : Nat := d.mantissa * 2 ^ d.shift

/-- The signed value in units of `2 ^ -1074`. -/
def units (d : Double) : Int := if d.negative then -(d.magnitude : Int) else d.magnitude

/-- Doubles are ordered by value; the two zeros are equal in this order. -/
def order (a b : Double) : Ordering := compare a.units b.units

/-- The double of the given parts, if they are in range. -/
def ofParts? (negative : Bool) (mantissa shift : Nat) : Option Double :=
  if h : mantissa < 2 ^ 53 ∧ (shift = 0 ∨ 2 ^ 52 ≤ mantissa) ∧ shift ≤ 2045 then
    some ⟨negative, mantissa, shift, h.1, h.2.1, h.2.2⟩
  else
    none

/-- The double nearest to `num / den`, a tie going to the even mantissa; none when the
rounded value is out of range. -/
def ofRatio? (negative : Bool) (num den : Nat) : Option Double :=
  let scaled := num * 2 ^ 1074
  let shift := (scaled / den).log2 - 52
  let mantissa := roundDiv scaled (den * 2 ^ shift)
  if mantissa < 2 ^ 53 then ofParts? negative mantissa shift
  else ofParts? negative (2 ^ 52) (shift + 1)

/-- The double nearest to a whole number; the largest one beyond the range. -/
def ofInt (n : Int) : Double :=
  let negative := decide (n < 0)
  (ofRatio? negative n.natAbs 1).getD (largest negative)

end Double

end JsonPath
