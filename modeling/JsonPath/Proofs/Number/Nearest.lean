import JsonPath.Proofs.Number.Rounding
import Mathlib.Algebra.Order.Field.Rat
import Mathlib.Tactic.FieldSimp
import Mathlib.Tactic.Linarith
import Mathlib.Tactic.Positivity
import Mathlib.Tactic.Ring

/-!
The double nearest to a fraction. A fraction is rounded to whole steps, which are as long as 53
binary digits of it allow. Doubles with longer steps are whole numbers of these steps, and those
with shorter ones lie below the first step of 53 digits, so that no double is nearer than the
rounded one. Of two that are as near it is the one with the even mantissa.
-/

namespace JsonPath

section Quotients

variable {num den : Nat}

/-- A quotient is the whole part and the remainder over the divisor. -/
theorem cast_div_add_mod (hden : 0 < den) :
    (num : ℚ) / den = (num / den : Nat) + ((num % den : Nat) : ℚ) / den := by
  have hpos : (0 : ℚ) < den := by exact_mod_cast hden
  have hsplit : ((den * (num / den) + num % den : Nat) : ℚ) = num := by
    exact_mod_cast Nat.div_add_mod num den
  push_cast at hsplit
  rw [div_eq_iff hpos.ne', add_mul, div_mul_cancel₀ _ hpos.ne', ← hsplit]
  ring

/-- Rounding changes a quotient by no more than one half, and by one half only to an even
number. -/
theorem abs_roundDiv_sub (num : Nat) (hden : 0 < den) :
    |(roundDiv num den : ℚ) - num / den| < 1 / 2 ∨
      |(roundDiv num den : ℚ) - num / den| = 1 / 2 ∧ 2 ∣ roundDiv num den := by
  have hpos : (0 : ℚ) < den := by exact_mod_cast hden
  have hlt : num % den < den := Nat.mod_lt _ hden
  rw [cast_div_add_mod hden]
  unfold roundDiv
  dsimp only
  generalize num / den = quotient
  generalize num % den = remainder at hlt
  have hremainder : (0 : ℚ) ≤ (remainder : ℚ) / den := by positivity
  rcases Nat.lt_trichotomy (2 * remainder) den with hbelow | htie | habove
  · rw [if_pos hbelow]
    have hhalf : (remainder : ℚ) / den < 1 / 2 := by
      rw [div_lt_div_iff₀ hpos (by norm_num), one_mul, mul_comm]
      exact_mod_cast hbelow
    left
    rw [abs_lt]
    constructor <;> linarith
  · have hhalf : (remainder : ℚ) / den = 1 / 2 := by
      rw [div_eq_div_iff hpos.ne' (by norm_num), one_mul, mul_comm]
      exact_mod_cast htie
    rw [if_neg (by omega), if_neg (by omega)]
    right
    refine ⟨?_, by omega⟩
    rcases Nat.mod_two_eq_zero_or_one quotient with heven | hodd
    · rw [heven, hhalf, Nat.add_zero, sub_add_cancel_left, abs_neg, abs_of_pos (by norm_num)]
    · rw [hodd, hhalf, Nat.cast_add, Nat.cast_one, add_sub_add_left_eq_sub]
      norm_num
  · rw [if_neg (by omega), if_pos habove]
    have hhalf : 1 / 2 < (remainder : ℚ) / den := by
      rw [div_lt_div_iff₀ (by norm_num) hpos, one_mul, mul_comm]
      exact_mod_cast habove
    have hone : (remainder : ℚ) / den < 1 := by
      rw [div_lt_one hpos]
      exact_mod_cast hlt
    left
    rw [Nat.cast_add, Nat.cast_one, add_sub_add_left_eq_sub, abs_lt]
    constructor <;> linarith

/-- No whole number is nearer to a quotient than the rounded one, and one that is as near is the
rounded one or leaves that even. -/
theorem roundDiv_nearest (num : Nat) (hden : 0 < den) (k : Nat) :
    |(roundDiv num den : ℚ) - num / den| ≤ |(k : ℚ) - num / den| ∧
      (|(roundDiv num den : ℚ) - num / den| = |(k : ℚ) - num / den| →
        k = roundDiv num den ∨ 2 ∣ roundDiv num den) := by
  by_cases hk : k = roundDiv num den
  · rw [hk]
    exact ⟨le_refl _, fun _ => .inl rfl⟩
  · have hapart : (1 : ℚ) ≤ |(k : ℚ) - roundDiv num den| := by
      have hint : (1 : ℤ) ≤ |(k : ℤ) - roundDiv num den| := Int.one_le_abs (by omega)
      exact_mod_cast hint
    have htriangle := abs_sub_le (k : ℚ) (num / den) (roundDiv num den)
    rw [abs_sub_comm ((num : ℚ) / den)] at htriangle
    rcases abs_roundDiv_sub num hden with hlt | ⟨hhalf, heven⟩
    · exact ⟨by linarith, fun heq => by linarith⟩
    · exact ⟨by linarith, fun _ => .inr heven⟩

end Quotients

namespace Double

/-- The number of units in one. -/
def scale : ℚ := 2 ^ 1074

theorem scale_pos : 0 < scale := by
  unfold scale
  positivity

/-- The value without its sign. -/
def size (d : Double) : ℚ := d.magnitude / scale

/-- A number that is negative, or not. -/
def signed (negative : Bool) (x : ℚ) : ℚ := if negative then -x else x

/-- The number that a double is. -/
def value (d : Double) : ℚ := signed d.negative d.size

/-- No double is nearer to the number, and one that is as near has the same value or leaves this
one the even mantissa. -/
structure IsNearest (x : ℚ) (d : Double) : Prop where
  le (e : Double) : |d.value - x| ≤ |e.value - x|
  even (e : Double) : |d.value - x| = |e.value - x| → e.value = d.value ∨ 2 ∣ d.mantissa

section Signs

variable {x y : ℚ} (negative : Bool)

theorem abs_signed (x : ℚ) : |signed negative x| = |x| := by
  cases negative
  · rfl
  · exact abs_neg x

theorem signed_sub (x y : ℚ) : signed negative x - signed negative y = signed negative (x - y) := by
  cases negative
  · rfl
  · exact (neg_sub' x y).symm

theorem size_nonneg (d : Double) : 0 ≤ d.size :=
  div_nonneg (Nat.cast_nonneg _) scale_pos.le

theorem zero_size (negative : Bool) : (zero negative).size = 0 := by
  simp [size, magnitude, zero]

theorem abs_value (d : Double) : |d.value| = d.size := by
  rw [value, abs_signed, abs_of_nonneg d.size_nonneg]

end Signs

section Steps

variable {num den : Nat} {negative : Bool} {d : Double}

/-- A fraction in units of `2 ^ -1074`. -/
def inUnits (num den : Nat) : ℚ := (num * 2 ^ 1074 : Nat) / den

/-- The steps to which a fraction is rounded are so many powers of two long. -/
def shiftOf (num den : Nat) : Nat := excess (num * 2 ^ 1074 / den)

/-- The number of steps to which a fraction is rounded. -/
def stepsOf (num den : Nat) : Nat :=
  roundDiv (num * 2 ^ 1074) (den * 2 ^ shiftOf num den)

theorem inUnits_div (num den : Nat) :
    inUnits num den / 2 ^ shiftOf num den =
      ((num * 2 ^ 1074 : Nat) : ℚ) / (den * 2 ^ shiftOf num den : Nat) := by
  rw [inUnits, div_div, Nat.cast_mul den, Nat.cast_pow, Nat.cast_ofNat]

theorem inUnits_eq (num den : Nat) : inUnits num den = num / den * scale := by
  rw [inUnits, Nat.cast_mul, Nat.cast_pow, Nat.cast_ofNat, ← scale, div_mul_eq_mul_div]

theorem inUnits_nonneg (num den : Nat) : 0 ≤ inUnits num den :=
  div_nonneg (Nat.cast_nonneg _) (Nat.cast_nonneg _)

theorem le_inUnits {n : Nat} (hden : 0 < den) :
    (n : ℚ) ≤ inUnits num den ↔ n ≤ num * 2 ^ 1074 / den := by
  have hpos : (0 : ℚ) < den := by exact_mod_cast hden
  rw [inUnits, le_div_iff₀ hpos, Nat.le_div_iff_mul_le hden]
  exact_mod_cast Iff.rfl

theorem stepsOf_quotient (num den : Nat) :
    num * 2 ^ 1074 / (den * 2 ^ shiftOf num den) =
      num * 2 ^ 1074 / den / 2 ^ excess (num * 2 ^ 1074 / den) := by
  rw [Nat.div_div_eq_div_mul]
  rfl

/-- A fraction takes no more than `2 ^ 53` steps, and at least `2 ^ 52` of longer ones. -/
theorem stepsOf_bounds (num den : Nat) :
    stepsOf num den ≤ 2 ^ 53 ∧ (shiftOf num den = 0 ∨ 2 ^ 52 ≤ stepsOf num den) := by
  have hlow := div_le_roundDiv (num * 2 ^ 1074) (den * 2 ^ shiftOf num den)
  have hhigh := roundDiv_le (num * 2 ^ 1074) (den * 2 ^ shiftOf num den)
  rw [stepsOf_quotient] at hlow hhigh
  by_cases h : shiftOf num den = 0
  · have hlt := quotient_lt (num * 2 ^ 1074 / den)
    exact ⟨le_trans hhigh hlt, .inl h⟩
  · have hlt := quotient_lt (num * 2 ^ 1074 / den)
    exact ⟨le_trans hhigh hlt, .inr (le_trans (le_quotient h) hlow)⟩

theorem two_pow_carry (shift : Nat) : 2 ^ 52 * 2 ^ (shift + 1) = 2 ^ 53 * 2 ^ shift := by
  rw [Nat.pow_succ]
  omega

/-- The rounded fraction is made of the steps, and its mantissa is even if their number is. -/
structure IsRounded (num den : Nat) (d : Double) : Prop where
  magnitude : d.magnitude = stepsOf num den * 2 ^ shiftOf num den
  even : 2 ∣ stepsOf num den → 2 ∣ d.mantissa

theorem ofParts?_eq_some {mantissa shift : Nat} (h : ofParts? negative mantissa shift = some d) :
    d.negative = negative ∧ d.mantissa = mantissa ∧ d.shift = shift := by
  unfold ofParts? at h
  split at h
  · cases h
    exact ⟨rfl, rfl, rfl⟩
  · cases h

theorem ofRatio?_eq_some (h : ofRatio? negative num den = some d) :
    d.negative = negative ∧ IsRounded num den d := by
  have hle := (stepsOf_bounds num den).1
  change (if stepsOf num den < 2 ^ 53 then ofParts? negative (stepsOf num den) (shiftOf num den)
    else ofParts? negative (2 ^ 52) (shiftOf num den + 1)) = some d at h
  split at h
  · obtain ⟨hnegative, hmantissa, hshift⟩ := ofParts?_eq_some h
    refine ⟨hnegative, ?_, fun heven => hmantissa ▸ heven⟩
    rw [Double.magnitude, hmantissa, hshift]
  · -- rounded up to the next power of two
    rename_i hsteps
    obtain ⟨hnegative, hmantissa, hshift⟩ := ofParts?_eq_some h
    have hexact : stepsOf num den = 2 ^ 53 := le_antisymm hle (not_lt.mp hsteps)
    refine ⟨hnegative, ?_, fun _ => hmantissa ▸ by decide⟩
    rw [Double.magnitude, hmantissa, hshift, hexact, two_pow_carry]

/-- The largest magnitude of a double. -/
def top : Nat := (2 ^ 53 - 1) * 2 ^ 2045

theorem exists_ofParts? {mantissa shift : Nat} (negative : Bool) (hmantissa : mantissa < 2 ^ 53)
    (hnormal : shift = 0 ∨ 2 ^ 52 ≤ mantissa) (hshift : shift ≤ 2045) :
    ∃ d, ofParts? negative mantissa shift = some d :=
  ⟨_, dif_pos ⟨hmantissa, hnormal, hshift⟩⟩

/-- Of the longest steps there are fewer than `2 ^ 53` up to the largest double. -/
theorem stepsOf_lt (hden : 0 < den) (h : num * 2 ^ 1074 ≤ top * den)
    (hshift : shiftOf num den = 2045) : stepsOf num den < 2 ^ 53 := by
  have hpos : 0 < den * 2 ^ shiftOf num den := Nat.mul_pos hden (Nat.two_pow_pos _)
  have hle : num * 2 ^ 1074 ≤ (2 ^ 53 - 1) * (den * 2 ^ 2045) :=
    le_trans h (le_of_eq (by rw [top, Nat.mul_assoc, Nat.mul_comm (2 ^ 2045)]))
  rw [hshift] at hpos
  rw [stepsOf, hshift]
  calc roundDiv (num * 2 ^ 1074) (den * 2 ^ 2045)
    _ ≤ roundDiv ((2 ^ 53 - 1) * (den * 2 ^ 2045)) (den * 2 ^ 2045) := roundDiv_mono hle
    _ = 2 ^ 53 - 1 := roundDiv_mul hpos _
    _ < 2 ^ 53 := by decide

/-- A fraction that is no larger than the largest double is rounded to a double. -/
theorem exists_ofRatio? (hden : 0 < den) (h : num * 2 ^ 1074 ≤ top * den) (negative : Bool) :
    ∃ d, ofRatio? negative num den = some d := by
  obtain ⟨hsteps, hnormal⟩ := stepsOf_bounds num den
  have hshift : shiftOf num den ≤ 2045 := by
    have hlt : num * 2 ^ 1074 / den < 2 ^ (53 + 2045) := by
      rw [Nat.div_lt_iff_lt_mul hden]
      exact lt_of_le_of_lt h (Nat.mul_lt_mul_of_pos_right (mul_pow_lt (by decide)) hden)
    by_cases hzero : num * 2 ^ 1074 / den = 0
    · rw [shiftOf, hzero]
      decide
    · have hlog := (Nat.log2_lt hzero).mpr hlt
      unfold shiftOf excess
      omega
  change ∃ d, (if stepsOf num den < 2 ^ 53 then
      ofParts? negative (stepsOf num den) (shiftOf num den)
    else ofParts? negative (2 ^ 52) (shiftOf num den + 1)) = some d
  split
  · rename_i hlt
    exact exists_ofParts? negative hlt hnormal hshift
  · rename_i hcarry
    have hne : shiftOf num den ≠ 2045 := fun hlast => hcarry (stepsOf_lt hden h hlast)
    exact exists_ofParts? negative (by decide) (.inr (le_refl _)) (by omega)

end Steps

section Nearest

variable {num den : Nat} {negative : Bool} {d : Double}

/-- A double is a whole number of steps, or less than the first step of 53 digits. -/
theorem steps_or_lt (shift : Nat) (e : Double) :
    (∃ k, e.magnitude = k * 2 ^ shift) ∨ shift ≠ 0 ∧ e.magnitude < 2 ^ 52 * 2 ^ shift := by
  rcases Nat.lt_or_ge e.shift shift with hlt | hge
  · refine .inr ⟨by omega, ?_⟩
    calc e.mantissa * 2 ^ e.shift
      _ < 2 ^ 53 * 2 ^ e.shift := Nat.mul_lt_mul_of_pos_right e.mantissa_lt (Nat.two_pow_pos _)
      _ = 2 ^ 52 * 2 ^ (e.shift + 1) := (two_pow_carry e.shift).symm
      _ ≤ 2 ^ 52 * 2 ^ shift := Nat.mul_le_mul_left _ (Nat.pow_le_pow_right (by decide) hlt)
  · refine .inl ⟨e.mantissa * 2 ^ (e.shift - shift), ?_⟩
    rw [Nat.mul_assoc, ← Nat.pow_add, Nat.sub_add_cancel hge]
    rfl

/-- Distances are counted in steps. -/
theorem abs_steps_sub (num den k : Nat) :
    |((k * 2 ^ shiftOf num den : Nat) : ℚ) - inUnits num den| =
      |(k : ℚ) - inUnits num den / 2 ^ shiftOf num den| * 2 ^ shiftOf num den := by
  have hstep : (0 : ℚ) < 2 ^ shiftOf num den := by positivity
  rw [← abs_of_pos hstep, ← abs_mul, abs_of_pos hstep, sub_mul, div_mul_cancel₀ _ hstep.ne',
    Nat.cast_mul, Nat.cast_pow, Nat.cast_ofNat]

theorem inUnits_ge (hden : 0 < den) (h : shiftOf num den ≠ 0) :
    (2 : ℚ) ^ 52 * 2 ^ shiftOf num den ≤ inUnits num den := by
  have hquotient := le_quotient h
  rw [Nat.le_div_iff_mul_le (Nat.two_pow_pos _)] at hquotient
  have hle := (le_inUnits hden).mpr hquotient
  exact_mod_cast hle

/-- No double has a magnitude nearer to the fraction than the rounded one. -/
theorem IsRounded.nearest (hden : 0 < den) (h : IsRounded num den d) (e : Double) :
    |(d.magnitude : ℚ) - inUnits num den| ≤ |(e.magnitude : ℚ) - inUnits num den| ∧
      (|(d.magnitude : ℚ) - inUnits num den| = |(e.magnitude : ℚ) - inUnits num den| →
        e.magnitude = d.magnitude ∨ 2 ∣ d.mantissa) := by
  have hstep : (0 : ℚ) < 2 ^ shiftOf num den := by positivity
  have hpos : 0 < den * 2 ^ shiftOf num den := Nat.mul_pos hden (Nat.two_pow_pos _)
  rw [h.magnitude]
  rcases steps_or_lt (shiftOf num den) e with ⟨k, hk⟩ | ⟨hshift, hlt⟩
  · obtain ⟨hle, heven⟩ := roundDiv_nearest (num * 2 ^ 1074) hpos k
    rw [hk, abs_steps_sub, abs_steps_sub, inUnits_div]
    refine ⟨mul_le_mul_of_nonneg_right hle hstep.le, fun heq => ?_⟩
    rcases heven (mul_right_cancel₀ hstep.ne' heq) with hk | heven
    · exact .inl (by rw [hk]; rfl)
    · exact .inr (h.even heven)
  · -- the first step of 53 digits lies between the double and the fraction
    have hbetween := inUnits_ge hden hshift
    have hlt : (e.magnitude : ℚ) < 2 ^ 52 * 2 ^ shiftOf num den := by exact_mod_cast hlt
    have hle := (roundDiv_nearest (num * 2 ^ 1074) hpos (2 ^ 52)).1
    have hfirst := mul_le_mul_of_nonneg_right hle hstep.le
    rw [← inUnits_div, ← abs_steps_sub, ← abs_steps_sub] at hfirst
    rw [Nat.cast_mul (2 ^ 52), Nat.cast_pow, Nat.cast_pow, Nat.cast_ofNat,
      abs_of_nonpos (sub_nonpos.mpr hbetween)] at hfirst
    have habs : |(e.magnitude : ℚ) - inUnits num den| = -(e.magnitude - inUnits num den) :=
      abs_of_nonpos (by linarith)
    have hcloser : |((stepsOf num den * 2 ^ shiftOf num den : Nat) : ℚ) - inUnits num den| <
        |(e.magnitude : ℚ) - inUnits num den| := by
      rw [habs]
      exact lt_of_le_of_lt hfirst (by linarith)
    exact ⟨hcloser.le, fun heq => absurd heq hcloser.ne⟩

theorem size_sub (d : Double) (num den : Nat) :
    d.size - (num : ℚ) / den = (d.magnitude - inUnits num den) / scale := by
  rw [inUnits_eq, sub_div, mul_div_cancel_right₀ _ scale_pos.ne']
  rfl

theorem abs_size_sub (d : Double) (num den : Nat) :
    |d.size - (num : ℚ) / den| = |(d.magnitude : ℚ) - inUnits num den| / scale := by
  rw [size_sub, abs_div, abs_of_pos scale_pos]

theorem IsRounded.size_nearest (hden : 0 < den) (h : IsRounded num den d) (e : Double) :
    |d.size - (num : ℚ) / den| ≤ |e.size - (num : ℚ) / den| ∧
      (|d.size - (num : ℚ) / den| = |e.size - (num : ℚ) / den| →
        e.size = d.size ∨ 2 ∣ d.mantissa) := by
  obtain ⟨hle, heven⟩ := h.nearest hden e
  rw [abs_size_sub, abs_size_sub]
  refine ⟨div_le_div_of_nonneg_right hle scale_pos.le, fun heq => ?_⟩
  refine (heven ((div_left_inj' scale_pos.ne').mp heq)).imp_left fun hmagnitude => ?_
  rw [size, size, hmagnitude]

/-- Two doubles of one magnitude that are as near to a fraction have the same value: only zero is as
near with either sign. -/
theorem value_eq_of_size {e : Double} {x : ℚ} (hx : 0 ≤ x)
    (hzero : |d.size - x| ≤ |(zero true).size - x|) (hsize : e.size = d.size)
    (heq : |d.size - x| = |e.value - signed d.negative x|) : e.value = d.value := by
  rcases Bool.eq_or_eq_not e.negative d.negative with hsign | hsign
  · rw [value, value, hsign, hsize]
  · have hopposite : e.value - signed d.negative x = signed e.negative (d.size + x) := by
      rw [value, hsign, hsize]
      rw [signed, signed, signed]
      cases d.negative
      · simp only [Bool.not_false, Bool.false_eq_true, if_true, if_false]
        ring
      · simp only [Bool.not_true, Bool.false_eq_true, if_true, if_false]
        ring
    have hnonneg := d.size_nonneg
    rw [hopposite, abs_signed, abs_of_nonneg (add_nonneg hnonneg hx)] at heq
    rw [zero_size, zero_sub, abs_neg, abs_of_nonneg hx] at hzero
    have hnull : d.size = 0 := by linarith
    rw [value, value, hsize, hnull]
    simp [signed]

/-- The double to which a fraction is rounded is the nearest one. -/
theorem ofRatio?_isNearest (hden : 0 < den) (h : ofRatio? negative num den = some d) :
    d.IsNearest (signed negative (num / den)) := by
  obtain ⟨rfl, hrounded⟩ := ofRatio?_eq_some h
  have hfraction : (0 : ℚ) ≤ (num : ℚ) / den := by positivity
  have hself : |d.value - signed d.negative (num / den)| = |d.size - (num : ℚ) / den| := by
    rw [value, signed_sub, abs_signed]
  have hother (e : Double) : |e.size - (num : ℚ) / den| ≤
      |e.value - signed d.negative (num / den)| := by
    have hreverse := abs_abs_sub_abs_le e.value (signed d.negative (num / den))
    rwa [abs_value, abs_signed, abs_of_nonneg hfraction] at hreverse
  refine ⟨fun e => ?_, fun e heq => ?_⟩
  · rw [hself]
    exact le_trans (hrounded.size_nearest hden e).1 (hother e)
  · rw [hself] at heq
    obtain ⟨hle, heven⟩ := hrounded.size_nearest hden e
    rcases heven (le_antisymm hle (heq ▸ hother e)) with hsize | heven
    · exact .inl (value_eq_of_size hfraction (hrounded.size_nearest hden (zero true)).1 hsize heq)
    · exact .inr heven

theorem IsRounded.error_le_step (hden : 0 < den) (h : IsRounded num den d) :
    |(d.magnitude : ℚ) - inUnits num den| ≤ 2 ^ shiftOf num den / 2 := by
  have hpos : 0 < den * 2 ^ shiftOf num den := Nat.mul_pos hden (Nat.two_pow_pos _)
  have hround : |(stepsOf num den : ℚ) - inUnits num den / 2 ^ shiftOf num den| ≤ 1 / 2 := by
    rw [inUnits_div]
    exact (abs_roundDiv_sub _ hpos).elim le_of_lt fun h => h.1.le
  rw [h.magnitude, abs_steps_sub]
  calc |(stepsOf num den : ℚ) - inUnits num den / 2 ^ shiftOf num den| * 2 ^ shiftOf num den
    _ ≤ 1 / 2 * 2 ^ shiftOf num den := mul_le_mul_of_nonneg_right hround (by positivity)
    _ = 2 ^ shiftOf num den / 2 := by ring

/-- Rounding changes a fraction of 53 binary digits in units or more by no more than its part of
`2 ^ -53`, -/
theorem IsRounded.error_le_part (hden : 0 < den) (h : IsRounded num den d)
    (hlarge : 2 ^ 52 ≤ inUnits num den) :
    |(d.magnitude : ℚ) - inUnits num den| ≤ inUnits num den / 2 ^ 53 := by
  refine le_trans (h.error_le_step hden) ?_
  rw [div_le_div_iff₀ (by positivity) (by positivity)]
  by_cases hshift : shiftOf num den = 0
  · rw [hshift, pow_zero]
    linarith
  · have hlong := inUnits_ge hden hshift
    linarith

/-- and any other one by no more than half a unit. -/
theorem IsRounded.error_le (hden : 0 < den) (h : IsRounded num den d) :
    |(d.magnitude : ℚ) - inUnits num den| ≤ inUnits num den / 2 ^ 53 + 1 / 2 := by
  by_cases hlarge : 2 ^ 52 ≤ inUnits num den
  · have hpart := h.error_le_part hden hlarge
    linarith
  · have hshift : shiftOf num den = 0 := by
      by_contra hshift
      have hstep : (1 : ℚ) ≤ 2 ^ shiftOf num den := one_le_pow₀ (by norm_num)
      exact hlarge (le_trans (le_mul_of_one_le_right (by positivity) hstep)
        (inUnits_ge hden hshift))
    have hhalf := h.error_le_step hden
    rw [hshift, pow_zero] at hhalf
    have hpart : 0 ≤ inUnits num den / 2 ^ 53 :=
      div_nonneg (inUnits_nonneg num den) (by positivity)
    linarith

/-- A number with a significand of 53 binary digits stays as it is. -/
theorem IsRounded.exact {significand scale : Nat} (hden : 0 < den) (h : IsRounded num den d)
    (hsignificand : significand < 2 ^ 53)
    (heq : num * 2 ^ 1074 = significand * 2 ^ scale * den) :
    d.magnitude = significand * 2 ^ scale := by
  have hquotient : num * 2 ^ 1074 / den = significand * 2 ^ scale := by
    rw [heq, Nat.mul_div_cancel _ hden]
  have hshift : shiftOf num den ≤ scale := by
    rw [shiftOf, hquotient, excess]
    by_cases hzero : significand = 0
    · rw [hzero, Nat.zero_mul]
      exact Nat.zero_le _
    · have hne : significand * 2 ^ scale ≠ 0 := Nat.mul_ne_zero hzero (Nat.two_pow_pos _).ne'
      have hlog := (Nat.log2_lt hne).mpr (mul_pow_lt (k := scale) hsignificand)
      omega
  have hpos : 0 < den * 2 ^ shiftOf num den := Nat.mul_pos hden (Nat.two_pow_pos _)
  have hsplit : significand * 2 ^ scale =
      significand * 2 ^ (scale - shiftOf num den) * 2 ^ shiftOf num den := by
    rw [Nat.mul_assoc, ← Nat.pow_add, Nat.sub_add_cancel hshift]
  have hsteps : stepsOf num den = significand * 2 ^ (scale - shiftOf num den) := by
    rw [stepsOf, heq, hsplit, Nat.mul_assoc, Nat.mul_comm (2 ^ shiftOf num den)]
    exact roundDiv_mul hpos _
  rw [h.magnitude, hsteps, ← hsplit]

end Nearest

end Double

end JsonPath
