import JsonPath.Evaluation.Strict
import JsonPath.Proofs.Syntax.Regular

/-!
The positions of slices. To count from one position on, step by step, gives the progression that
the slice is defined by, and never leaves the array. The sums on the way fit 128 bits, as long as
the bounds fit 64.
-/

namespace JsonPath

namespace Slice

theorem stepsBelow_of_le {start stop step : Int} (h : stop ≤ start) :
    stepsBelow start stop step = 0 := if_neg (by omega)

/-- One step on, one step less is left. -/
theorem stepsBelow_of_lt {start stop step : Int} (hstep : 0 < step) (h : start < stop) :
    stepsBelow start stop step = stepsBelow (start + step) stop step + 1 := by
  have hshift : stop - start + step - 1 = (stop - start - 1) + 1 * step := by omega
  rw [stepsBelow, if_pos h, hshift, Int.add_mul_ediv_right _ _ (by omega), stepsBelow]
  split
  · have hnext : stop - (start + step) + step - 1 = stop - start - 1 := by omega
    have hnonneg := Int.ediv_nonneg (show 0 ≤ stop - start - 1 by omega) (Int.le_of_lt hstep)
    rw [hnext]
    omega
  · rw [Int.ediv_eq_zero_of_lt (by omega) (by omega)]
    rfl

/-- A step on from before the end ends less than a step behind it. -/
theorem lt_of_lt_stepsBelow {start stop step : Int} (hstep : 0 < step) {k : Nat}
    (hk : k < stepsBelow start stop step) : start + k * step < stop := by
  induction k generalizing start with
  | zero =>
    rcases Int.lt_or_le start stop with h | h
    · simpa using h
    · rw [stepsBelow_of_le h] at hk
      cases hk
  | succ k ih =>
    rcases Int.lt_or_le start stop with h | h
    · rw [stepsBelow_of_lt hstep h] at hk
      have hlt := ih (Nat.lt_of_succ_lt_succ hk)
      have hmul : ((k + 1 : Nat) : Int) * step = k * step + step := by
        rw [Int.natCast_add, Int.add_mul]
        simp
      omega
    · rw [stepsBelow_of_le h] at hk
      cases hk

/-- How many steps there are from a position to the end, in the direction of the step. -/
def stepsTo (step stop position : Int) : Nat :=
  if 0 < step then stepsBelow position stop step else stepsBelow (-position) (-stop) (-step)

theorem stepsTo_of_ahead {step stop position : Int}
    (h : 0 < step ∧ position < stop ∨ step < 0 ∧ stop < position) :
    stepsTo step stop position = stepsTo step stop (position + step) + 1 := by
  unfold stepsTo
  rcases h with ⟨hstep, h⟩ | ⟨hstep, h⟩
  · rw [if_pos hstep, if_pos hstep, stepsBelow_of_lt hstep h]
  · have hneg : ¬0 < step := by omega
    rw [if_neg hneg, if_neg hneg, stepsBelow_of_lt (by omega) (by omega), Int.neg_add]

theorem stepsTo_of_not_ahead {step stop position : Int} (hstep : step ≠ 0)
    (h : ¬(0 < step ∧ position < stop ∨ step < 0 ∧ stop < position)) :
    stepsTo step stop position = 0 := by
  unfold stepsTo
  split <;> exact stepsBelow_of_le (by omega)

theorem word_eq {length : Nat} {n : Int}
    (h : length < 2 ^ 64 → -(2 ^ 127) ≤ n ∧ n < 2 ^ 127) : word length n = .ok n :=
  if_neg fun ⟨hlength, hn⟩ => hn (h hlength)

/-- What counts through an array in steps starts and ends inside it. -/
structure Inside (length : Nat) (step stop position : Int) : Prop where
  nonzero : step ≠ 0
  up : 0 < step → 0 ≤ position ∧ stop ≤ length
  down : step < 0 → position < length ∧ -1 ≤ stop

namespace Inside

variable {length : Nat} {step stop position : Int}

theorem next (h : Inside length step stop position) :
    Inside length step stop (position + step) where
  nonzero := h.nonzero
  up hstep := by
    have := h.up hstep
    omega
  down hstep := by
    have := h.down hstep
    omega

/-- The steps up to the end are steps inside the array. -/
theorem bounds (h : Inside length step stop position) {k : Nat}
    (hk : k < stepsTo step stop position) :
    0 ≤ position + k * step ∧ position + k * step < length := by
  rcases Int.lt_or_gt_of_ne h.nonzero with hstep | hstep
  · have hdown := h.down hstep
    rw [stepsTo, if_neg (by omega)] at hk
    have hlt := lt_of_lt_stepsBelow (by omega) hk
    have hmul := Int.mul_nonneg (Int.natCast_nonneg k) (show 0 ≤ -step by omega)
    rw [Int.mul_neg] at hlt hmul
    omega
  · have hup := h.up hstep
    rw [stepsTo, if_pos hstep] at hk
    have hlt := lt_of_lt_stepsBelow hstep hk
    have hmul := Int.mul_nonneg (Int.natCast_nonneg k) (Int.le_of_lt hstep)
    omega

/-- To count through an array comes to no breach. -/
theorem march_eq (h : Inside length step stop position) (hstep : IsWord step) :
    march length step stop position =
      .ok ((List.range (stepsTo step stop position)).map fun (k : Nat) => position + k * step) := by
  fun_induction march length step stop position with
  | case1 position hahead ih =>
    have hword : word length (position + step) = .ok (position + step) := by
      have hup := h.up
      have hdown := h.down
      refine word_eq fun hlength => ?_
      unfold IsWord at hstep
      omega
    rw [hword, ih h.next, stepsTo_of_ahead hahead, List.range_succ_eq_map]
    simp only [List.map_cons, List.map_map]
    refine congrArg Except.ok (congr (congrArg List.cons ?_) (List.map_congr_left fun k _ => ?_))
    · simp
    · have hmul : ((k + 1 : Nat) : Int) * step = k * step + step := by
        rw [Int.natCast_add, Int.add_mul]
        simp
      dsimp only [Function.comp_apply]
      rw [hmul]
      omega
  | case2 position hahead =>
    rw [stepsTo_of_not_ahead h.nonzero hahead]
    rfl

end Inside

theorem clamp_bounds {low high : Int} (h : low ≤ high) (n : Int) :
    low ≤ clamp low high n ∧ clamp low high n ≤ high := by
  unfold clamp
  omega

/-- Where a slice starts and ends in an array, for its step and its bounds, each counted from the
front or left out. -/
def ends (length : Nat) (step : Int) (start stop : Option Int) : Int × Int :=
  if 0 < step then
    (clamp 0 length ((start.map (normalize length)).getD 0),
      clamp 0 length ((stop.map (normalize length)).getD length))
  else
    (clamp (-1) (length - 1) ((start.map (normalize length)).getD (length - 1)),
      clamp (-1) (length - 1) ((stop.map (normalize length)).getD (-length - 1)))

theorem ends_inside (length : Nat) {step : Int} (hstep : step ≠ 0) (start stop : Option Int) :
    Inside length step (ends length step start stop).2 (ends length step start stop).1 where
  nonzero := hstep
  up h := by
    rw [ends, if_pos h]
    exact ⟨(clamp_bounds (by omega) _).1, (clamp_bounds (by omega) _).2⟩
  down h := by
    rw [ends, if_neg (by omega)]
    have hhigh : (-1 : Int) ≤ length - 1 := by omega
    have hstart := clamp_bounds hhigh ((start.map (normalize length)).getD (length - 1))
    exact ⟨by dsimp only; omega, (clamp_bounds hhigh _).1⟩

/-- The positions of a slice are the steps from its start to its end. -/
theorem positions_eq (length : Nat) {step : Option Int} (hstep : step.getD 1 ≠ 0)
    (start stop : Option Int) :
    positions length start stop step =
      (List.range (stepsTo (step.getD 1) (ends length (step.getD 1) start stop).2
        (ends length (step.getD 1) start stop).1)).map fun (k : Nat) =>
          ((ends length (step.getD 1) start stop).1 + k * step.getD 1).toNat := by
  rw [positions, if_neg hstep, ends, stepsTo]
  split <;> rfl

/-- A number of 64 bits, if there is one. -/
def IsBound (bound : Option Int) : Prop := ∀ n, bound = some n → IsWord n

theorem IsBound.getD {bound : Option Int} (h : IsBound bound) : IsWord (bound.getD 1) := by
  cases bound with
  | none => simp [IsWord]
  | some n => exact h n rfl

theorem boundWord_eq {bound : Option Int} (h : IsBound bound) (length : Nat) (other : Int) :
    boundWord length other bound = .ok ((bound.map (normalize length)).getD other) := by
  cases bound with
  | none => rfl
  | some n =>
    have hn := h n rfl
    have hword : ¬0 ≤ n → word length (length + n) = .ok (length + n) := by
      refine fun hneg => word_eq fun hlength => ?_
      unfold IsWord at hn
      omega
    change normalizeWord length n = .ok (normalize length n)
    unfold normalizeWord normalize
    split
    · rfl
    · rename_i hneg
      exact hword hneg

theorem clampWord_eq {low high : Int} (h : low ≤ high) (n : Int) :
    clampWord low high n = .ok (clamp low high n) := if_pos h

/-- A slice selects positions of the array only. -/
theorem lt_of_mem_positions {length : Nat} {start stop step : Option Int} :
    ∀ i ∈ positions length start stop step, i < length := by
  intro i hi
  by_cases hstep : step.getD 1 = 0
  · rw [positions, if_pos hstep] at hi
    cases hi
  · rw [positions_eq length hstep] at hi
    obtain ⟨k, hk, rfl⟩ := List.mem_map.mp hi
    have hbounds := (ends_inside length hstep start stop).bounds (List.mem_range.mp hk)
    omega

/-- The walk through an array counts from the start of the slice to its end. -/
theorem walk_eq_march {start stop step : Option Int} {length : Nat} (hstart : IsBound start)
    (hstop : IsBound stop) (hnone : ¬(step.getD 1 = 0 ∨ length = 0)) :
    walk length start stop step =
      march length (step.getD 1) (ends length (step.getD 1) start stop).2
        (ends length (step.getD 1) start stop).1 := by
  have hlast : word length (length - 1) = .ok (length - 1) := word_eq fun _ => by omega
  have hbefore : word length (-length - 1) = .ok (-length - 1) := word_eq fun _ => by omega
  have hhigh : (-1 : Int) ≤ length - 1 := by omega
  rw [walk, if_neg hnone, ends]
  split
  · rw [boundWord_eq hstart, boundWord_eq hstop]
    simp only [clampWord_eq (Int.natCast_nonneg length), bind, Except.bind]
  · rw [hlast, hbefore]
    simp only [bind, Except.bind, boundWord_eq hstart, boundWord_eq hstop, clampWord_eq hhigh]

/-- To walk through an array comes to no breach and gives the positions of the slice. -/
theorem walk_eq {start stop step : Option Int} (length : Nat) (hstart : IsBound start)
    (hstop : IsBound stop) (hstep : IsBound step) :
    walk length start stop step =
      .ok ((positions length start stop step).map fun (i : Nat) => (i : Int)) := by
  by_cases hnone : step.getD 1 = 0 ∨ length = 0
  · have hnil : positions length start stop step = [] := by
      rcases hnone with hzero | rfl
      · rw [positions, if_pos hzero]
      · exact List.eq_nil_iff_forall_not_mem.mpr fun i hi => absurd (lt_of_mem_positions i hi)
          (Nat.not_lt_zero i)
    rw [walk, if_pos hnone, hnil]
    rfl
  · have hnonzero : step.getD 1 ≠ 0 := fun h => hnone (.inl h)
    have hinside := ends_inside length hnonzero start stop
    rw [walk_eq_march hstart hstop hnone, hinside.march_eq hstep.getD,
      positions_eq length hnonzero, List.map_map]
    refine congrArg Except.ok (List.map_congr_left fun k hk => ?_)
    have hbounds := hinside.bounds (List.mem_range.mp hk)
    exact (Int.toNat_of_nonneg hbounds.1).symm

end Slice

end JsonPath
