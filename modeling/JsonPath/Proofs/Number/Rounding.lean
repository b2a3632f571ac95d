import JsonPath.Number

/-!
Rounding of whole numbers to doubles. A whole number that fits 64 bits is rounded in units of
`2 ^ -1074` to 53 binary digits. The power of two at or below the number and the one above it bound
the rounded number as well, so that numbers with more digits do not get below those with fewer, and
rounding keeps the order of all.
-/

namespace JsonPath

section Quotients

variable {a b den : Nat}

theorem div_le_roundDiv (a den : Nat) : a / den ≤ roundDiv a den := by
  unfold roundDiv
  dsimp only
  split
  · exact Nat.le_refl _
  · split
    · exact Nat.le_add_right _ _
    · exact Nat.le_add_right _ _

theorem roundDiv_le (a den : Nat) : roundDiv a den ≤ a / den + 1 := by
  unfold roundDiv
  dsimp only
  split
  · exact Nat.le_add_right _ _
  · split <;> omega

theorem roundDiv_one (a : Nat) : roundDiv a 1 = a := by
  unfold roundDiv
  rw [Nat.mod_one, Nat.div_one]
  exact if_pos (by decide)

/-- A whole quotient stays as it is. -/
theorem roundDiv_mul (hden : 0 < den) (quotient : Nat) :
    roundDiv (quotient * den) den = quotient := by
  unfold roundDiv
  rw [Nat.mul_mod_left, Nat.mul_div_cancel _ hden]
  exact if_pos hden

/-- Rounding a quotient keeps the order of the numerators. -/
theorem roundDiv_mono (h : a ≤ b) : roundDiv a den ≤ roundDiv b den := by
  have hquotient := Nat.div_le_div_right (c := den) h
  rcases Nat.lt_or_eq_of_le hquotient with hlt | heq
  · calc roundDiv a den
      _ ≤ a / den + 1 := roundDiv_le a den
      _ ≤ b / den := hlt
      _ ≤ roundDiv b den := div_le_roundDiv b den
  · -- the same quotient leaves the remainders in the order of the numerators
    have ha := Nat.div_add_mod a den
    have hb := Nat.div_add_mod b den
    rw [heq] at ha
    have hremainder : a % den ≤ b % den := by omega
    unfold roundDiv
    dsimp only
    rw [heq]
    grind

end Quotients

namespace Double

/-- How many binary digits of a number of units are rounded away. -/
def excess (n : Nat) : Nat := n.log2 - 52

/-- A number of units, rounded to 53 binary digits. -/
def roundUnits (n : Nat) : Nat := roundDiv n (2 ^ excess n) * 2 ^ excess n

section Bounds

variable {n : Nat}

/-- A number of units without excess digits stays as it is. -/
theorem roundUnits_of_excess_eq_zero (h : excess n = 0) : roundUnits n = n := by
  unfold roundUnits
  rw [h, Nat.pow_zero, roundDiv_one, Nat.mul_one]

theorem log2_eq_of_excess (h : excess n ≠ 0) : n.log2 = 52 + excess n := by
  unfold excess at h ⊢
  omega

theorem ne_zero_of_excess (h : excess n ≠ 0) : n ≠ 0 := by
  rintro rfl
  exact h rfl

/-- Without the excess digits 53 are left, -/
theorem quotient_lt (n : Nat) : n / 2 ^ excess n < 2 ^ 53 := by
  have hlt := Nat.lt_log2_self (n := n)
  rw [Nat.div_lt_iff_lt_mul (Nat.two_pow_pos _), ← Nat.pow_add]
  refine Nat.lt_of_lt_of_le hlt (Nat.pow_le_pow_right (by decide) ?_)
  unfold excess
  omega

/-- and no fewer if there are any of these. -/
theorem le_quotient (h : excess n ≠ 0) : 2 ^ 52 ≤ n / 2 ^ excess n := by
  rw [Nat.le_div_iff_mul_le (Nat.two_pow_pos _), ← Nat.pow_add, ← log2_eq_of_excess h]
  exact Nat.log2_self_le (ne_zero_of_excess h)

/-- A rounded significand has 53 binary digits, or is the power of two above these. -/
theorem roundDiv_bounds (h : excess n ≠ 0) :
    2 ^ 52 ≤ roundDiv n (2 ^ excess n) ∧ roundDiv n (2 ^ excess n) ≤ 2 ^ 53 :=
  ⟨Nat.le_trans (le_quotient h) (div_le_roundDiv _ _),
    Nat.le_trans (roundDiv_le _ _) (quotient_lt n)⟩

theorem pow_log2_le_roundUnits (hn : n ≠ 0) : 2 ^ n.log2 ≤ roundUnits n := by
  by_cases h : excess n = 0
  · rw [roundUnits_of_excess_eq_zero h]
    exact Nat.log2_self_le hn
  · rw [log2_eq_of_excess h, Nat.pow_add]
    exact Nat.mul_le_mul_right _ (roundDiv_bounds h).1

theorem roundUnits_le_pow (n : Nat) : roundUnits n ≤ 2 ^ (n.log2 + 1) := by
  by_cases h : excess n = 0
  · rw [roundUnits_of_excess_eq_zero h]
    exact Nat.le_of_lt Nat.lt_log2_self
  · rw [log2_eq_of_excess h, Nat.add_right_comm, Nat.pow_add]
    exact Nat.mul_le_mul_right _ (roundDiv_bounds h).2

/-- Rounding keeps the order of numbers of units. -/
theorem roundUnits_mono {m n : Nat} (h : m ≤ n) : roundUnits m ≤ roundUnits n := by
  by_cases hm : m = 0
  · subst hm
    rw [roundUnits_of_excess_eq_zero (n := 0) rfl]
    exact Nat.zero_le _
  · have hn : n ≠ 0 := by omega
    have hlog : m.log2 ≤ n.log2 := (Nat.le_log2 hn).mpr (Nat.le_trans (Nat.log2_self_le hm) h)
    rcases Nat.lt_or_eq_of_le hlog with hlt | heq
    · calc roundUnits m
        _ ≤ 2 ^ (m.log2 + 1) := roundUnits_le_pow m
        _ ≤ 2 ^ n.log2 := Nat.pow_le_pow_right (by decide) hlt
        _ ≤ roundUnits n := pow_log2_le_roundUnits hn
    · have hexcess : excess m = excess n := by
        unfold excess
        rw [heq]
      unfold roundUnits
      rw [hexcess]
      exact Nat.mul_le_mul_right _ (roundDiv_mono h)

end Bounds

section Integers

/-- A rounded number of units that is in range is the magnitude of a double. -/
theorem exists_rounded {n : Nat} (h : excess n ≤ 2044) (negative : Bool) :
    ∃ d, (if roundDiv n (2 ^ excess n) < 2 ^ 53 then
        ofParts? negative (roundDiv n (2 ^ excess n)) (excess n)
      else ofParts? negative (2 ^ 52) (excess n + 1)) = some d ∧
      d.negative = negative ∧ d.magnitude = roundUnits n := by
  split
  · rename_i hmantissa
    have hnormal : excess n = 0 ∨ 2 ^ 52 ≤ roundDiv n (2 ^ excess n) :=
      (Nat.eq_zero_or_pos _).imp_right fun hpos => (roundDiv_bounds (Nat.ne_of_gt hpos)).1
    have hparts : roundDiv n (2 ^ excess n) < 2 ^ 53 ∧
        (excess n = 0 ∨ 2 ^ 52 ≤ roundDiv n (2 ^ excess n)) ∧ excess n ≤ 2045 :=
      ⟨hmantissa, hnormal, Nat.le_succ_of_le h⟩
    rw [ofParts?, dif_pos hparts]
    exact ⟨_, rfl, rfl, rfl⟩
  · -- rounded up to the next power of two
    rename_i hmantissa
    have hlow : 2 ^ 53 ≤ roundDiv n (2 ^ excess n) := Nat.le_of_not_lt hmantissa
    have hexact : roundDiv n (2 ^ excess n) = 2 ^ 53 := by
      by_cases hexcess : excess n = 0
      · have hlog : n.log2 < 53 := by
          unfold excess at hexcess
          omega
        rw [hexcess, Nat.pow_zero, roundDiv_one] at hlow
        have hlt := Nat.lt_log2_self (n := n)
        have hpow : 2 ^ (n.log2 + 1) ≤ 2 ^ 53 := Nat.pow_le_pow_right (by decide) hlog
        omega
      · exact Nat.le_antisymm (roundDiv_bounds hexcess).2 hlow
    have hparts : 2 ^ 52 < 2 ^ 53 ∧ (excess n + 1 = 0 ∨ 2 ^ 52 ≤ 2 ^ 52) ∧ excess n + 1 ≤ 2045 :=
      ⟨by decide, .inr (Nat.le_refl _), Nat.succ_le_succ h⟩
    rw [ofParts?, dif_pos hparts]
    refine ⟨_, rfl, rfl, ?_⟩
    rw [roundUnits, hexact]
    change 2 ^ 52 * 2 ^ (excess n + 1) = 2 ^ 53 * 2 ^ excess n
    rw [← Nat.pow_add, ← Nat.pow_add, Nat.add_comm (excess n), ← Nat.add_assoc]

/-- A whole number in units of `2 ^ -1074`. -/
def unitsOf (n : Int) : Nat := n.natAbs * 2 ^ 1074

theorem unitsOf_mono {m n : Int} (h : m.natAbs ≤ n.natAbs) : unitsOf m ≤ unitsOf n :=
  Nat.mul_le_mul_right _ h

theorem mul_pow_lt {m k e : Nat} (h : m < 2 ^ e) : m * 2 ^ k < 2 ^ (e + k) := by
  rw [Nat.pow_add]
  exact Nat.mul_lt_mul_of_pos_right h (Nat.two_pow_pos k)

theorem excess_unitsOf {n : Int} (h : n.natAbs ≤ 2 ^ 64) : excess (unitsOf n) ≤ 2044 := by
  by_cases hzero : unitsOf n = 0
  · rw [hzero]
    decide
  · have hnat : n.natAbs < 2 ^ 65 := Nat.lt_of_le_of_lt h (by decide)
    have hlt : unitsOf n < 2 ^ (65 + 1074) := mul_pow_lt hnat
    have hlog := (Nat.log2_lt hzero).mpr hlt
    unfold excess
    omega

/-- The units of the double nearest to a whole number are the rounded units of the number. -/
theorem units_ofInt {n : Int} (h : n.natAbs ≤ 2 ^ 64) :
    (ofInt n).units =
      if n < 0 then -(roundUnits (unitsOf n) : Int) else (roundUnits (unitsOf n) : Int) := by
  obtain ⟨d, hd, hnegative, hmagnitude⟩ := exists_rounded (excess_unitsOf h) (decide (n < 0))
  have hratio : ofRatio? (decide (n < 0)) n.natAbs 1 = some d := by
    rw [ofRatio?, Nat.div_one, Nat.one_mul]
    exact hd
  rw [ofInt, hratio, Option.getD_some, units, hnegative, hmagnitude]
  by_cases hn : n < 0
  · rw [if_pos hn, if_pos (decide_eq_true hn)]
  · rw [if_neg hn, if_neg (fun hneg => hn (of_decide_eq_true hneg))]

/-- Rounding whole numbers to the nearest doubles keeps their order. -/
theorem units_ofInt_mono {m n : Int} (hm : m.natAbs ≤ 2 ^ 64) (hn : n.natAbs ≤ 2 ^ 64)
    (h : m ≤ n) : (ofInt m).units ≤ (ofInt n).units := by
  rw [units_ofInt hm, units_ofInt hn]
  by_cases hmneg : m < 0
  · rw [if_pos hmneg]
    by_cases hnneg : n < 0
    · have hle := roundUnits_mono (@unitsOf_mono n m (by omega))
      rw [if_pos hnneg]
      omega
    · rw [if_neg hnneg]
      omega
  · have hle := roundUnits_mono (@unitsOf_mono m n (by omega))
    rw [if_neg hmneg, if_neg (by omega)]
    exact Int.ofNat_le.mpr hle

end Integers

end Double

end JsonPath
