import JsonPath.Proofs.Evaluation.Slices

/-!
Slices as RFC 9535 defines them in section 2.3.4.2.2. The length of an array gives the two bounds,
by the defaults, by `Normalize` and by `Bounds`. What a slice selects is the progression from one
bound on, as long as it has not come to the other one. The loop that counts through it ends, and
nothing on the way leaves 128 bits.
-/

namespace JsonPath

namespace Slice

/-- The start of a slice that states none. -/
def defaultStart (length step : Int) : Int := if 0 ≤ step then 0 else length - 1

/-- The end of a slice that states none. -/
def defaultStop (length step : Int) : Int := if 0 ≤ step then length else -length - 1

/-- The function `Normalize`. -/
def fromFront (length i : Int) : Int := if 0 ≤ i then i else length + i

/-- The bounds between which a slice selects. Upwards the lower one belongs to the slice, and
downwards the upper one. -/
structure Limits where
  lower : Int
  upper : Int

/-- The function `Bounds`, after the defaults. -/
def limits (length : Int) (start stop : Option Int) (step : Int) : Limits :=
  let first := fromFront length (start.getD (defaultStart length step))
  let last := fromFront length (stop.getD (defaultStop length step))
  if 0 ≤ step then
    { lower := min (max first 0) length, upper := min (max last 0) length }
  else
    { lower := min (max last (-1)) (length - 1), upper := min (max first (-1)) (length - 1) }

/-- The end is still ahead of a position, in the direction of the step. -/
def Ahead (step stop position : Int) : Prop :=
  0 < step ∧ position < stop ∨ step < 0 ∧ stop < position

/-- A run of the loop that starts at a position and ends, with what it selects. As long as the end is
ahead, the position is selected and the step is added, and each sum fits 128 bits. -/
inductive Loop (step stop : Int) : Int → List Int → Prop
  | done {position : Int} (arrived : ¬Ahead step stop position) : Loop step stop position []
  | next {position : Int} {rest : List Int} (ahead : Ahead step stop position)
      (fits : -(2 ^ 127) ≤ position + step ∧ position + step < 2 ^ 127)
      (run : Loop step stop (position + step) rest) : Loop step stop position (position :: rest)

/-- What RFC 9535 demands of the positions that a slice selects, in the order of selection. -/
structure Selects (length : Nat) (start stop : Option Int) (step : Int) (selected : List Nat) :
    Prop where
  /-- Upwards each position is a step after the one before, from the lower bound on, and there is
  one for every step that stays below the upper bound. -/
  upwards : 0 < step → ∀ k : Nat,
    selected[k]?.map Int.ofNat =
      if (limits length start stop step).lower + k * step < (limits length start stop step).upper
      then some ((limits length start stop step).lower + k * step) else none
  downwards : step < 0 → ∀ k : Nat,
    selected[k]?.map Int.ofNat =
      if (limits length start stop step).lower < (limits length start stop step).upper + k * step
      then some ((limits length start stop step).upper + k * step) else none
  nowhere : step = 0 → selected = []
  ascending : 0 < step → selected.Pairwise (· < ·)
  descending : step < 0 → selected.Pairwise (· > ·)
  nodup : selected.Nodup
  inside : ∀ i ∈ selected, i < length

/-- The loop from the bound that belongs to the slice to the other one. -/
structure Counts (length : Nat) (start stop : Option Int) (step : Int) (selected : List Nat) :
    Prop where
  upwards : 0 < step → Loop step (limits length start stop step).upper
    (limits length start stop step).lower (selected.map Int.ofNat)
  downwards : step < 0 → Loop step (limits length start stop step).lower
    (limits length start stop step).upper (selected.map Int.ofNat)

section Limits

variable {length : Nat} {start stop : Option Int} {step : Int}

/-- A bound that is stated is normalized, and a default is its own position from the front once it
is put between the ends of the array. -/
theorem ends_of_pos (hstep : 0 < step) :
    ends length step start stop =
      ((limits length start stop step).lower, (limits length start stop step).upper) := by
  have hup : 0 ≤ step := by omega
  simp only [ends, limits, if_pos hstep, if_pos hup, defaultStart, defaultStop]
  cases start <;> cases stop <;> simp [normalize, fromFront, clamp]

theorem ends_of_neg (hstep : step < 0) :
    ends length step start stop =
      ((limits length start stop step).upper, (limits length start stop step).lower) := by
  have hdown : ¬0 < step := by omega
  have hdown' : ¬0 ≤ step := by omega
  -- for an empty array the default start is before its front, where normalizing changes nothing
  have hstart : clamp (-1) (length - 1) ((start.map (normalize length)).getD (length - 1)) =
      min (max (fromFront length (start.getD (length - 1))) (-1)) (length - 1) := by
    cases start with
    | none =>
      simp only [Option.map_none, Option.getD_none, clamp, fromFront]
      split <;> omega
    | some n => rfl
  have hstop : clamp (-1) (length - 1) ((stop.map (normalize length)).getD (-length - 1)) =
      min (max (fromFront length (stop.getD (-length - 1))) (-1)) (length - 1) := by
    cases stop with
    | none =>
      simp only [Option.map_none, Option.getD_none, clamp, fromFront]
      split <;> omega
    | some n => rfl
  simp only [ends, limits, if_neg hdown, if_neg hdown', defaultStart, defaultStop, hstart, hstop]

end Limits

section Progression

variable {step stop position : Int} {k : Nat}

/-- A progression has a further number just if that is still before the end. -/
theorem lt_stepsBelow_iff {start : Int} (hstep : 0 < step) :
    k < stepsBelow start stop step ↔ start + k * step < stop := by
  constructor
  · exact lt_of_lt_stepsBelow hstep
  · intro h
    have hmul : 0 ≤ k * step := Int.mul_nonneg (Int.natCast_nonneg k) (Int.le_of_lt hstep)
    have hstart : start < stop := by omega
    have hquotient : (k : Int) + 1 ≤ (stop - start + step - 1) / step := by
      apply (Int.le_ediv_iff_mul_le hstep).mpr
      rw [Int.add_mul, Int.one_mul]
      omega
    rw [stepsBelow, if_pos hstart]
    omega

theorem lt_stepsTo_iff (hstep : step ≠ 0) :
    k < stepsTo step stop position ↔ Ahead step stop (position + k * step) := by
  unfold stepsTo Ahead
  rcases Int.lt_or_gt_of_ne hstep with hneg | hpos
  · rw [if_neg (by omega), lt_stepsBelow_iff (by omega), Int.mul_neg]
    omega
  · rw [if_pos hpos, lt_stepsBelow_iff hpos]
    omega

theorem ahead_iff_of_pos (hstep : 0 < step) : Ahead step stop position ↔ position < stop := by
  unfold Ahead
  omega

theorem ahead_iff_of_neg (hstep : step < 0) : Ahead step stop position ↔ stop < position := by
  unfold Ahead
  omega

end Progression

section Positions

variable {length : Nat} {start stop step : Option Int}

/-- The positions of a slice are those of the progression that are not behind its end. -/
theorem getElem?_positions (hstep : step.getD 1 ≠ 0) (k : Nat) :
    (positions length start stop step)[k]?.map Int.ofNat =
      if k < stepsTo (step.getD 1) (ends length (step.getD 1) start stop).2
        (ends length (step.getD 1) start stop).1
      then some ((ends length (step.getD 1) start stop).1 + k * step.getD 1) else none := by
  have hinside := ends_inside length hstep start stop
  rw [positions_eq length hstep, List.getElem?_map]
  split
  case isTrue hk =>
    obtain ⟨hlow, -⟩ := hinside.bounds hk
    rw [List.getElem?_range hk]
    exact congrArg some (Int.toNat_of_nonneg hlow)
  case isFalse hk =>
    rw [List.getElem?_eq_none (by rw [List.length_range]; omega)]
    rfl

theorem getElem?_positions_of_pos (hstep : 0 < step.getD 1) (k : Nat) :
    (positions length start stop step)[k]?.map Int.ofNat =
      if (limits length start stop (step.getD 1)).lower + k * step.getD 1 <
        (limits length start stop (step.getD 1)).upper
      then some ((limits length start stop (step.getD 1)).lower + k * step.getD 1) else none := by
  have hnonzero : step.getD 1 ≠ 0 := by omega
  rw [getElem?_positions hnonzero, ends_of_pos hstep]
  simp only [lt_stepsTo_iff hnonzero, ahead_iff_of_pos hstep]

theorem getElem?_positions_of_neg (hstep : step.getD 1 < 0) (k : Nat) :
    (positions length start stop step)[k]?.map Int.ofNat =
      if (limits length start stop (step.getD 1)).lower <
        (limits length start stop (step.getD 1)).upper + k * step.getD 1
      then some ((limits length start stop (step.getD 1)).upper + k * step.getD 1) else none := by
  have hnonzero : step.getD 1 ≠ 0 := by omega
  rw [getElem?_positions hnonzero, ends_of_neg hstep]
  simp only [lt_stepsTo_iff hnonzero, ahead_iff_of_neg hstep]

/-- Of two positions of a slice, the later one is some steps after the earlier one. -/
theorem pairwise_positions {R : Nat → Nat → Prop} (hstep : step.getD 1 ≠ 0)
    (h : ∀ a b : Nat, ∀ d : Int, 0 < d → (b : Int) = a + d * step.getD 1 → R a b) :
    (positions length start stop step).Pairwise R := by
  have hinside := ends_inside length hstep start stop
  rw [positions_eq length hstep, List.pairwise_map]
  refine List.Pairwise.imp_of_mem ?_ List.pairwise_lt_range
  intro i j hi hj hij
  obtain ⟨hlowi, -⟩ := hinside.bounds (List.mem_range.mp hi)
  obtain ⟨hlowj, -⟩ := hinside.bounds (List.mem_range.mp hj)
  apply h _ _ ((j : Int) - i) (by omega)
  rw [Int.toNat_of_nonneg hlowi, Int.toNat_of_nonneg hlowj, Int.sub_mul]
  omega

theorem ascending_positions (hstep : 0 < step.getD 1) :
    (positions length start stop step).Pairwise (· < ·) := by
  apply pairwise_positions (by omega)
  intro a b d hd heq
  have hmul := Int.mul_pos hd hstep
  omega

theorem descending_positions (hstep : step.getD 1 < 0) :
    (positions length start stop step).Pairwise (· > ·) := by
  apply pairwise_positions (by omega)
  intro a b d hd heq
  have hmul := Int.mul_neg_of_pos_of_neg hd hstep
  omega

theorem positions_of_eq_zero (hstep : step.getD 1 = 0) : positions length start stop step = [] :=
  if_pos hstep

theorem nodup_positions : (positions length start stop step).Nodup := by
  rcases Int.lt_trichotomy (step.getD 1) 0 with hneg | hzero | hpos
  · exact (descending_positions hneg).imp Nat.ne_of_gt
  · rw [positions_of_eq_zero hzero]
    exact List.nodup_nil
  · exact (ascending_positions hpos).imp Nat.ne_of_lt

/-- The positions of a slice are those that RFC 9535 demands. -/
theorem selects_positions : Selects length start stop (step.getD 1)
    (positions length start stop step) where
  upwards := getElem?_positions_of_pos
  downwards := getElem?_positions_of_neg
  nowhere := positions_of_eq_zero
  ascending := ascending_positions
  descending := descending_positions
  nodup := nodup_positions
  inside := lt_of_mem_positions

end Positions

section Loop

variable {length : Nat} {step stop position n m : Int} {selected : List Int}

theorem fits_of_word (hlength : length < 2 ^ 64) (h : word length n = .ok m) :
    -(2 ^ 127) ≤ n ∧ n < 2 ^ 127 := by
  by_cases hfits : -(2 ^ 127) ≤ n ∧ n < 2 ^ 127
  · exact hfits
  · rw [word, if_pos ⟨hlength, hfits⟩] at h
    cases h

/-- A count that comes to no breach is a run of the loop. -/
theorem loop_of_march (hlength : length < 2 ^ 64)
    (h : march length step stop position = .ok selected) : Loop step stop position selected := by
  fun_induction march length step stop position generalizing selected with
  | case1 position hahead ih =>
    cases hword : word length (position + step) with
    | error breach =>
      rw [hword] at h
      cases h
    | ok sum =>
      cases hrest : march length step stop (position + step) with
      | error breach =>
        rw [hword, hrest] at h
        cases h
      | ok rest =>
        rw [hword, hrest] at h
        cases h
        exact .next hahead (fits_of_word hlength hword) (ih hrest)
  | case2 position hahead =>
    cases h
    exact .done hahead

/-- From its start on, the loop of a slice ends with the positions of the slice. -/
theorem loop_positions {start stop step : Option Int} (hlength : length < 2 ^ 64)
    (hbound : IsBound step) (hstep : step.getD 1 ≠ 0) :
    Loop (step.getD 1) (ends length (step.getD 1) start stop).2
      (ends length (step.getD 1) start stop).1
      ((positions length start stop step).map Int.ofNat) := by
  have hinside := ends_inside length hstep start stop
  apply loop_of_march hlength
  rw [hinside.march_eq hbound.getD, positions_eq length hstep, List.map_map]
  refine congrArg Except.ok (List.map_congr_left fun k hk => ?_)
  obtain ⟨hlow, -⟩ := hinside.bounds (List.mem_range.mp hk)
  exact (Int.toNat_of_nonneg hlow).symm

theorem counts_positions {start stop step : Option Int} (hlength : length < 2 ^ 64)
    (hbound : IsBound step) :
    Counts length start stop (step.getD 1) (positions length start stop step) where
  upwards hstep := by
    have hloop := @loop_positions length start stop step hlength hbound (by omega)
    rwa [ends_of_pos hstep] at hloop
  downwards hstep := by
    have hloop := @loop_positions length start stop step hlength hbound (by omega)
    rwa [ends_of_neg hstep] at hloop

end Loop

theorem isBound_some {n : Int} (h : IsWord n) : IsBound (some n) := by
  intro m hm
  cases hm
  exact h

/-- For an array whose length fits 63 bits and for bounds and a step of 64 bits, each of which may be
left out, the positions of a slice are those that RFC 9535 demands. The loop counts them, from the
bound that belongs to the slice, and ends. With a check of every number on the way, the slice comes
to the same positions. -/
theorem positions_conform {length : Nat} {start stop step : Option Int} (hlength : length < 2 ^ 63)
    (hstart : IsBound start) (hstop : IsBound stop) (hstep : IsBound step) :
    Selects length start stop (step.getD 1) (positions length start stop step) ∧
    Counts length start stop (step.getD 1) (positions length start stop step) ∧
    walk length start stop step = .ok ((positions length start stop step).map Int.ofNat) :=
  ⟨selects_positions, counts_positions (by omega) hstep, walk_eq length hstart hstop hstep⟩

/-- Every other one of five items, backwards from the greatest bound of 64 bits to the least. -/
theorem positions_conform_backwards :
    let greatest : Option Int := some (2 ^ 63 - 1)
    let least : Option Int := some (-(2 ^ 63))
    let back : Option Int := some (-2)
    5 < 2 ^ 63 ∧ IsBound greatest ∧ IsBound least ∧ IsBound back ∧
    Selects 5 greatest least (-2) [4, 2, 0] ∧ Counts 5 greatest least (-2) [4, 2, 0] ∧
    walk 5 greatest least back = .ok [4, 2, 0] := by
  intro greatest least back
  have hlength : 5 < 2 ^ 63 := by decide
  have hgreatest : IsBound greatest := isBound_some ⟨by decide, by decide⟩
  have hleast : IsBound least := isBound_some ⟨by decide, by decide⟩
  have hback : IsBound back := isBound_some ⟨by decide, by decide⟩
  exact ⟨hlength, hgreatest, hleast, hback,
    @positions_conform 5 greatest least back hlength hgreatest hleast hback⟩

end Slice

end JsonPath
