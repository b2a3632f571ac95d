import JsonPath.Double

/-!
Doubles from decimal notation. A significand of at most 64 bits is rounded to a double,
which is then multiplied or divided by a power of ten and rounded again. The result is the
nearest double when the significand and the power of ten are doubles themselves, and a
neighbour of it at times when they are not.
-/

namespace JsonPath.Double

/-- The product, rounded to nearest; none when it is out of range. -/
def times? (a b : Double) : Option Double :=
  ofRatio? (a.negative != b.negative) (a.magnitude * b.magnitude) (2 ^ 2148)

/-- The quotient by a double other than zero, rounded to nearest; none when it is out of
range. -/
def over? (a b : Double) : Option Double :=
  ofRatio? (a.negative != b.negative) a.magnitude b.magnitude

/-- The double nearest to a power of ten, which is the largest double beyond `10 ^ 308`. -/
def powerOfTen (k : Nat) : Double := ofInt (10 ^ k)

/-- The double divided by `10 ^ k`. Above `10 ^ 308` this takes two divisions, and nothing
is left of a significand of 64 bits after two divisions by `10 ^ 308`. -/
def scaleDown? (d : Double) (k : Nat) : Option Double :=
  if k ≤ 308 then d.over? (powerOfTen k)
  else if k ≤ 616 then (d.over? (powerOfTen 308)).bind (·.over? (powerOfTen (k - 308)))
  else some (zero d.negative)

/-- The double multiplied by `10 ^ k`; only zero may be multiplied by more than `10 ^ 308`. -/
def scaleUp? (d : Double) (k : Nat) : Option Double :=
  if k ≤ 308 then d.times? (powerOfTen k)
  else if d.magnitude = 0 then some d
  else none

/-- The double for `significand * 10 ^ exponent`, none when it is out of range. -/
def ofDecimal? (negative : Bool) (significand : Nat) (exponent : Int) : Option Double :=
  (ofRatio? negative significand 1).bind fun d =>
    if exponent < 0 then d.scaleDown? exponent.natAbs else d.scaleUp? exponent.natAbs

end JsonPath.Double
