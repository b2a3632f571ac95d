/-!
Positions in arrays: indices that count from the end when negative, and slices. All
arithmetic is on whole numbers without bounds.
-/

namespace JsonPath

/-- The position that an index stands for in an array, not yet compared with its length
when it counts from the front. -/
def position? (length : Nat) (index : Int) : Option Nat :=
  if 0 ≤ index then some index.toNat
  else if index.natAbs ≤ length then some (length - index.natAbs)
  else none

namespace Slice

/-- A bound as a position counted from the front, possibly out of range. -/
def normalize (length : Nat) (bound : Int) : Int :=
  if 0 ≤ bound then bound else length + bound

/-- The number `n`, or the end of the interval that is closer to it. -/
def clamp (low high n : Int) : Int := min (max n low) high

/-- How many numbers a progression from `start` with positive `step` has below `stop`. -/
def stepsBelow (start stop step : Int) : Nat :=
  if start < stop then ((stop - start + step - 1) / step).toNat else 0

/-- The positions that a slice selects from an array, in the order of selection. -/
def positions (length : Nat) (start stop step : Option Int) : List Nat :=
  let step := step.getD 1
  if step = 0 then []
  else if 0 < step then
    let lower := clamp 0 length ((start.map (normalize length)).getD 0)
    let upper := clamp 0 length ((stop.map (normalize length)).getD length)
    (List.range (stepsBelow lower upper step)).map fun (k : Nat) => (lower + k * step).toNat
  else
    let upper := clamp (-1) (length - 1) ((start.map (normalize length)).getD (length - 1))
    let lower := clamp (-1) (length - 1) ((stop.map (normalize length)).getD (-length - 1))
    (List.range (stepsBelow (-upper) (-lower) (-step))).map fun (k : Nat) => (upper + k * step).toNat

end Slice

end JsonPath
