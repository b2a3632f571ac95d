import JsonPath.Number.Shortest

/-!
Numbers as they occur in documents: whole numbers that fit 64 bits, signed or not, and
doubles. Two whole numbers compare exactly, any other pair as doubles.
-/

namespace JsonPath

/-- A number of a document. -/
inductive Number where
  | int (value : Int) (inRange : -(2 ^ 63) ≤ value ∧ value < 2 ^ 64)
  | double (value : Double)
deriving DecidableEq

namespace Number

/-- The whole number `n`, or the nearest double when it does not fit. -/
def ofInt (n : Int) : Number :=
  if h : -(2 ^ 63) ≤ n ∧ n < 2 ^ 64 then .int n h else .double (Double.ofInt n)

def ofNat (n : Nat) : Number := ofInt n

/-- The nearest double. -/
def toDouble : Number → Double
  | .int n _ => Double.ofInt n
  | .double d => d

/-- The order by value of two whole numbers, and of the nearest doubles otherwise. -/
def order : Number → Number → Ordering
  | .int a _, .int b _ => compare a b
  | a, b => a.toDouble.order b.toDouble

def text : Number → String
  | .int n _ => toString n
  | .double d => d.text

/-- The number as a natural number, when it is written as one. -/
def toNat? : Number → Option Nat
  | .int n _ => if 0 ≤ n then some n.natAbs else none
  | .double _ => none

/-- The number as a whole number, when it is written as one. -/
def toInt? : Number → Option Int
  | .int n _ => some n
  | .double _ => none

end Number

end JsonPath
