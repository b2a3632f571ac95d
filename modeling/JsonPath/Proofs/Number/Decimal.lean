import JsonPath.Double.Decimal
import JsonPath.Proofs.Number.Nearest
import Mathlib.Tactic.GCongr

/-!
Doubles from decimal notation. A significand and a power of ten are rounded, and so is their product
or quotient. Each rounding changes a number by a small part of it, or by a part of the smallest
double, and the changes add up. Where the significand and the power of ten are doubles already, the
one rounding that is left gives the nearest double.
-/

namespace JsonPath.Double

/-! ### Nearness -/

/-- A number is less than this times the rounded one, and the other way round. -/
def grain : ℚ := 1 + 1 / 2 ^ 52

/-- The smallest double above zero. -/
def unit : ℚ := 1 / scale

/-- Apart from a slack, the numbers are so many roundings from each other. -/
structure Near (roundings : Nat) (slack a x : ℚ) : Prop where
  below : a ≤ x * grain ^ roundings + slack
  above : x ≤ a * grain ^ roundings + slack

section Nearness

variable {a b x y r s : ℚ} {j k : Nat}

theorem one_le_grain : 1 ≤ grain := by norm_num [grain]

theorem grain_pos : 0 < grain := lt_of_lt_of_le one_pos one_le_grain

theorem grain_pow_le (hk : k ≤ 6) : grain ^ k ≤ 2 :=
  le_trans (pow_le_pow_right₀ one_le_grain hk) (by norm_num [grain])

theorem unit_pos : 0 < unit := one_div_pos.mpr scale_pos

namespace Near

theorem refl (x : ℚ) : Near 0 0 x x := by
  constructor <;> simp

theorem mono (h : Near j r a x) (ha : 0 ≤ a) (hx : 0 ≤ x) (hjk : j ≤ k) (hrs : r ≤ s) :
    Near k s a x where
  below := le_trans h.below <|
    add_le_add (mul_le_mul_of_nonneg_left (pow_le_pow_right₀ one_le_grain hjk) hx) hrs
  above := le_trans h.above <|
    add_le_add (mul_le_mul_of_nonneg_left (pow_le_pow_right₀ one_le_grain hjk) ha) hrs

/-- Roundings one after the other add up. -/
theorem trans (hab : Near j r a b) (hbx : Near k s b x) (hr : 0 ≤ r) (hs : 0 ≤ s) (hj : j ≤ 6)
    (hk : k ≤ 6) : Near (j + k) (2 * (r + s)) a x := by
  have half {u v t : ℚ} {m n : Nat} {p q : ℚ} (huv : u ≤ v * grain ^ m + p)
      (hvt : v ≤ t * grain ^ n + q) (hp : 0 ≤ p) (hq : 0 ≤ q) (hm : m ≤ 6) :
      u ≤ t * grain ^ (m + n) + 2 * (p + q) := by
    calc u
      _ ≤ v * grain ^ m + p := huv
      _ ≤ (t * grain ^ n + q) * grain ^ m + p := by
          gcongr
          exact (pow_pos grain_pos m).le
      _ = t * grain ^ (m + n) + (q * grain ^ m + p) := by rw [pow_add]; ring
      _ ≤ t * grain ^ (m + n) + 2 * (p + q) := by
          have hslack := mul_le_mul_of_nonneg_left (grain_pow_le hm) hq
          linarith
  refine ⟨half hab.below hbx.below hr hs hj, ?_⟩
  rw [Nat.add_comm, add_comm r]
  exact half hbx.above hab.above hs hr hk

theorem mul (hax : Near j 0 a x) (hby : Near k 0 b y) (ha : 0 ≤ a) (hx : 0 ≤ x) (hb : 0 ≤ b)
    (hy : 0 ≤ y) : Near (j + k) 0 (a * b) (x * y) := by
  have half {u v t w : ℚ} {m n : Nat} (hut : u ≤ t * grain ^ m + 0) (hvw : v ≤ w * grain ^ n + 0)
      (hv : 0 ≤ v) (ht : 0 ≤ t) : u * v ≤ t * w * grain ^ (m + n) + 0 := by
    rw [add_zero] at hut hvw ⊢
    have hgrain := (pow_pos grain_pos m).le
    calc u * v
      _ ≤ t * grain ^ m * (w * grain ^ n) := mul_le_mul hut hvw hv (mul_nonneg ht hgrain)
      _ = t * w * grain ^ (m + n) := by rw [pow_add]; ring
  exact ⟨half hax.below hby.below hb hx, half hax.above hby.above hy ha⟩

/-- A divisor of one or more makes the slack at most twice as large. -/
theorem div (hax : Near j s a x) (hby : Near k 0 b y) (ha : 0 ≤ a) (hx : 0 ≤ x) (hb : 0 < b)
    (hy : 1 ≤ y) (hs : 0 ≤ s) (hk : k ≤ 6) : Near (j + k) (2 * s) (a / b) (x / y) := by
  have hpos : 0 < y := lt_of_lt_of_le one_pos hy
  have hgrain (m : Nat) : 0 ≤ grain ^ m := (pow_pos grain_pos m).le
  have hinverse : 1 / b ≤ grain ^ k / y := by
    rw [div_le_div_iff₀ hb hpos, one_mul, mul_comm]
    simpa using hby.above
  have hinverse' : 1 / y ≤ grain ^ k / b := by
    rw [div_le_div_iff₀ hpos hb, one_mul, mul_comm]
    simpa using hby.below
  have hslack : s * (grain ^ k / y) ≤ 2 * s := by
    rw [mul_comm 2]
    refine mul_le_mul_of_nonneg_left (le_trans (div_le_self (hgrain k) hy) (grain_pow_le hk)) hs
  have hslack' : s * (1 / y) ≤ 2 * s := by
    rw [mul_comm 2]
    refine mul_le_mul_of_nonneg_left (le_trans (div_le_self one_pos.le hy) (by norm_num)) hs
  constructor
  · calc a / b
      _ = a * (1 / b) := by ring
      _ ≤ (x * grain ^ j + s) * (grain ^ k / y) :=
          mul_le_mul hax.below hinverse (by positivity)
            (add_nonneg (mul_nonneg hx (hgrain j)) hs)
      _ = x / y * grain ^ (j + k) + s * (grain ^ k / y) := by rw [pow_add]; ring
      _ ≤ x / y * grain ^ (j + k) + 2 * s := by linarith
  · calc x / y
      _ = x * (1 / y) := by ring
      _ ≤ (a * grain ^ j + s) * (1 / y) := mul_le_mul_of_nonneg_right hax.above (by positivity)
      _ = a * grain ^ j * (1 / y) + s * (1 / y) := by ring
      _ ≤ a * grain ^ j * (grain ^ k / b) + 2 * s :=
          add_le_add (mul_le_mul_of_nonneg_left hinverse' (mul_nonneg ha (hgrain j))) hslack'
      _ = a / b * grain ^ (j + k) + 2 * s := by rw [pow_add]; ring

/-- Six roundings change a number by less than its part of `2 ^ -49`. -/
theorem abs_sub_le (h : Near 6 s a x) (hx : 0 ≤ x) (hs : 0 ≤ s) :
    |a - x| ≤ x / 2 ^ 49 + 2 * s := by
  have hgrain : grain ^ 6 * (grain ^ 6 - 1) ≤ 1 / 2 ^ 49 := by norm_num [grain]
  have hone : 1 ≤ grain ^ 6 := one_le_pow₀ one_le_grain
  have htwo : grain ^ 6 ≤ 2 := grain_pow_le (by decide)
  obtain ⟨hbelow, habove⟩ := h
  generalize grain ^ 6 = g at *
  have hpart : x * (g * (g - 1)) ≤ x / 2 ^ 49 := by
    rw [div_eq_mul_one_div]
    exact mul_le_mul_of_nonneg_left hgrain hx
  have hrest : 0 ≤ g - 1 := sub_nonneg.mpr hone
  rw [abs_sub_le_iff]
  constructor
  · have hgrow : x * (g - 1) ≤ x * (g * (g - 1)) :=
      mul_le_mul_of_nonneg_left (le_mul_of_one_le_left hrest hone) hx
    linarith
  · have hgrow : a * (g - 1) ≤ (x * g + s) * (g - 1) := mul_le_mul_of_nonneg_right hbelow hrest
    have hslack : s * (g - 1) ≤ s * 1 := mul_le_mul_of_nonneg_left (by linarith) hs
    linarith

end Near

end Nearness

/-! ### One rounding -/

section Rounding

variable {num den : Nat} {negative : Bool} {a b d : Double}

theorem IsRounded.near_of_le (hden : 0 < den) (h : IsRounded num den d)
    (hlarge : 2 ^ 52 ≤ inUnits num den) : Near 1 0 d.size (num / den) := by
  have herror : |d.size - (num : ℚ) / den| ≤ num / den / 2 ^ 53 := by
    rw [abs_size_sub, div_le_iff₀ scale_pos, div_mul_eq_mul_div, ← inUnits_eq]
    exact h.error_le_part hden hlarge
  have hnonneg : (0 : ℚ) ≤ num / den := div_nonneg (Nat.cast_nonneg _) (Nat.cast_nonneg _)
  rw [abs_sub_le_iff] at herror
  constructor
  · rw [pow_one, grain]
    linarith
  · rw [pow_one, grain]
    linarith

theorem IsRounded.near (hden : 0 < den) (h : IsRounded num den d) :
    Near 1 unit d.size (num / den) := by
  have herror : |d.size - (num : ℚ) / den| ≤ num / den / 2 ^ 53 + unit / 2 := by
    rw [abs_size_sub, div_le_iff₀ scale_pos, add_mul, div_mul_eq_mul_div, ← inUnits_eq, unit,
      div_mul_eq_mul_div, div_mul_cancel₀ _ scale_pos.ne']
    exact h.error_le hden
  have hnonneg : (0 : ℚ) ≤ num / den := div_nonneg (Nat.cast_nonneg _) (Nat.cast_nonneg _)
  have hunit := unit_pos
  rw [abs_sub_le_iff] at herror
  constructor
  · rw [pow_one, grain]
    linarith
  · rw [pow_one, grain]
    linarith

/-- A whole number is rounded without slack. -/
theorem IsRounded.near_whole {n : Nat} (h : IsRounded n 1 d) : Near 1 0 d.size n := by
  by_cases hn : n = 0
  · have hzero : d.magnitude = 0 * 2 ^ 1074 :=
      h.exact (by decide) (by decide) (by rw [hn, Nat.mul_one])
    rw [hn, size, hzero, Nat.zero_mul, Nat.cast_zero, zero_div]
    constructor <;> simp
  · have hlarge : 2 ^ 52 ≤ inUnits n 1 := by
      have hone : (1 : ℚ) ≤ n := by exact_mod_cast Nat.one_le_iff_ne_zero.mpr hn
      rw [inUnits_eq, Nat.cast_one, div_one]
      calc (2 : ℚ) ^ 52
        _ ≤ scale := pow_le_pow_right₀ (by norm_num) (by decide)
        _ ≤ n * scale := le_mul_of_one_le_left scale_pos.le hone
    have hnear := h.near_of_le Nat.one_pos hlarge
    rwa [Nat.cast_one, div_one] at hnear

/-- Numbers up to this one are within the reach of doubles. -/
def reach : ℚ := 10 ^ 308

theorem reach_pos : 0 < reach := by
  unfold reach
  positivity

theorem reach_le_top : reach * (3 / 2) * scale ≤ top := by
  have htop : 10 ^ 308 * 3 * 2 ^ 1074 ≤ top * 2 := by decide +kernel
  have hcast : ((10 ^ 308 * 3 * 2 ^ 1074 : Nat) : ℚ) ≤ (top * 2 : Nat) := Nat.cast_le.mpr htop
  rw [Nat.cast_mul, Nat.cast_mul, Nat.cast_mul, Nat.cast_pow, Nat.cast_pow, Nat.cast_ofNat,
    Nat.cast_ofNat, Nat.cast_ofNat, ← scale, ← reach] at hcast
  linarith

/-- The result is that of rounding a number of a sign. -/
def Rounds (negative : Bool) (x : ℚ) (result : Option Double) : Prop :=
  ∃ num den : Nat, 0 < den ∧ (num : ℚ) / den = x ∧ result = ofRatio? negative num den

namespace Rounds

variable {x : ℚ} {result : Option Double}

theorem near (h : Rounds negative x (some d)) : d.negative = negative ∧ Near 1 unit d.size x := by
  obtain ⟨num, den, hden, rfl, hd⟩ := h
  obtain ⟨hnegative, hrounded⟩ := ofRatio?_eq_some hd.symm
  exact ⟨hnegative, hrounded.near hden⟩

theorem isNearest (h : Rounds negative x (some d)) : d.IsNearest (signed negative x) := by
  obtain ⟨num, den, hden, rfl, hd⟩ := h
  exact ofRatio?_isNearest hden hd.symm

/-- Zero is rounded to zero. -/
theorem size_zero (h : Rounds negative 0 (some d)) : d.size = 0 := by
  have hle := h.isNearest.le (zero negative)
  have hnull : signed negative 0 = 0 := by simp [signed]
  rw [hnull, sub_zero, sub_zero, abs_value, abs_value, zero_size] at hle
  exact le_antisymm hle d.size_nonneg

/-- Numbers that are no larger than the reach, or a little larger, are rounded to doubles. -/
theorem exists_some (h : Rounds negative x result) (hx : x ≤ reach * (3 / 2)) :
    ∃ d, result = some d := by
  obtain ⟨num, den, hden, rfl, rfl⟩ := h
  have hpos : (0 : ℚ) < den := by exact_mod_cast hden
  have hle : (num : ℚ) / den * scale ≤ top :=
    le_trans (mul_le_mul_of_nonneg_right hx scale_pos.le) reach_le_top
  rw [← inUnits_eq, inUnits, div_le_iff₀ hpos] at hle
  refine exists_ofRatio? hden ?_ negative
  exact_mod_cast hle

end Rounds

/-- The unit of a product is the square of the unit of the factors. -/
theorem product_units (m n : Nat) {k : Nat} (hk : k = 1074 + 1074) :
    0 < 2 ^ k ∧ ((m * n : Nat) : ℚ) / (2 ^ k : Nat) = m / scale * (n / scale) := by
  refine ⟨Nat.two_pow_pos k, ?_⟩
  rw [div_mul_div_comm, scale, ← pow_add, ← hk, Nat.cast_mul, Nat.cast_pow, Nat.cast_ofNat]

theorem times?_rounds (a b : Double) :
    Rounds (a.negative != b.negative) (a.size * b.size) (a.times? b) := by
  obtain ⟨hpos, hproduct⟩ := product_units a.magnitude b.magnitude (k := 2148) rfl
  exact ⟨_, _, hpos, hproduct, rfl⟩

theorem over?_rounds (a b : Double) (hb : 0 < b.size) :
    Rounds (a.negative != b.negative) (a.size / b.size) (a.over? b) := by
  refine ⟨a.magnitude, b.magnitude, ?_, ?_, rfl⟩
  · rw [Nat.pos_iff_ne_zero]
    intro hzero
    rw [size, hzero, Nat.cast_zero, zero_div] at hb
    exact lt_irrefl _ hb
  · rw [size, size, div_div_div_cancel_right₀ scale_pos.ne']

end Rounding

/-! ### Significands and powers of ten -/

section Parts

variable {n k : Nat} {negative : Bool} {d : Double}

/-- A significand of 64 bits is rounded to a double. -/
theorem exists_significand (hn : n < 2 ^ 64) (negative : Bool) :
    ∃ d, ofRatio? negative n 1 = some d := by
  refine exists_ofRatio? Nat.one_pos ?_ negative
  exact le_trans (Nat.mul_le_mul_right _ hn.le) (by decide +kernel)

theorem powerOfTen_isRounded (hk : k ≤ 308) :
    (powerOfTen k).negative = false ∧ IsRounded (10 ^ k) 1 (powerOfTen k) := by
  have htop : 10 ^ k * 2 ^ 1074 ≤ top * 1 :=
    le_trans (Nat.mul_le_mul_right _ (Nat.pow_le_pow_right (by decide) hk)) (by decide +kernel)
  obtain ⟨d, hd⟩ := exists_ofRatio? Nat.one_pos htop false
  have heq : powerOfTen k = d := by
    have hsign : decide ((10 : Int) ^ k < 0) = false := by
      rw [decide_eq_false_iff_not, not_lt]
      positivity
    rw [powerOfTen, ofInt, hsign, Int.natAbs_pow]
    exact congrArg (Option.getD · _) hd
  rw [heq]
  exact ofRatio?_eq_some hd

theorem near_powerOfTen (hk : k ≤ 308) : Near 1 0 (powerOfTen k).size (10 ^ k) := by
  have hnear := (powerOfTen_isRounded hk).2.near_whole
  rwa [Nat.cast_pow, Nat.cast_ofNat] at hnear

/-- Powers up to `10 ^ 22` have no more than 53 binary digits, apart from zeros at the end. -/
theorem powerOfTen_size (hk : k ≤ 22) : (powerOfTen k).size = 10 ^ k := by
  have hfive : 5 ^ k < 2 ^ 53 :=
    lt_of_le_of_lt (Nat.pow_le_pow_right (by decide) hk) (by decide)
  have hsplit : 10 ^ k * 2 ^ 1074 = 5 ^ k * 2 ^ (k + 1074) * 1 := by
    rw [Nat.mul_one, Nat.pow_add, ← Nat.mul_assoc, ← Nat.mul_pow]
  have hexact := (powerOfTen_isRounded (by omega)).2.exact Nat.one_pos hfive hsplit
  rw [Nat.mul_one] at hsplit
  rw [size, hexact, ← hsplit, Nat.cast_mul, Nat.cast_pow, Nat.cast_pow, Nat.cast_ofNat,
    Nat.cast_ofNat, ← scale, mul_div_cancel_right₀ _ scale_pos.ne']

theorem powerOfTen_pos (hk : k ≤ 308) : 0 < (powerOfTen k).size := by
  have habove := (near_powerOfTen hk).above
  rw [add_zero] at habove
  exact pos_of_mul_pos_left (lt_of_lt_of_le (by positivity) habove) (pow_pos grain_pos 1).le

/-- A significand of 53 bits is kept as it is. -/
theorem significand_size (hn : n < 2 ^ 53) (h : ofRatio? negative n 1 = some d) : d.size = n := by
  have hexact := (ofRatio?_eq_some h).2.exact Nat.one_pos hn (Nat.mul_one _).symm
  rw [size, hexact, Nat.cast_mul, Nat.cast_pow, Nat.cast_ofNat, ← scale,
    mul_div_cancel_right₀ _ scale_pos.ne']

end Parts

/-! ### Scaling -/

section Scaling

variable {n k : Nat} {x : ℚ} {a d : Double}

theorem one_le_pow_ten (k : Nat) : (1 : ℚ) ≤ 10 ^ k := one_le_pow₀ (by norm_num)

theorem rounds_up (a : Double) (hk : k ≤ 308) :
    Rounds a.negative (a.size * (powerOfTen k).size) (a.times? (powerOfTen k)) := by
  have hrounds := times?_rounds a (powerOfTen k)
  rwa [(powerOfTen_isRounded hk).1, Bool.bne_false] at hrounds

theorem rounds_down (a : Double) (hk : k ≤ 308) :
    Rounds a.negative (a.size / (powerOfTen k).size) (a.over? (powerOfTen k)) := by
  have hrounds := over?_rounds a (powerOfTen k) (powerOfTen_pos hk)
  rwa [(powerOfTen_isRounded hk).1, Bool.bne_false] at hrounds

theorem near_up (ha : Near 1 0 a.size x) (hx : 0 ≤ x) (hk : k ≤ 308) :
    Near 2 0 (a.size * (powerOfTen k).size) (x * 10 ^ k) :=
  ha.mul (near_powerOfTen hk) a.size_nonneg hx (size_nonneg _) (by positivity)

/-- Multiplying by a power of ten takes three roundings in all. -/
theorem scaleUp?_near (ha : Near 1 0 a.size x) (hx : 0 ≤ x) (h : a.scaleUp? k = some d) :
    d.negative = a.negative ∧ Near 3 (2 * unit) d.size (x * 10 ^ k) := by
  unfold scaleUp? at h
  split at h
  · rename_i hk
    have hrounds := rounds_up a hk
    rw [h] at hrounds
    obtain ⟨hnegative, hnear⟩ := hrounds.near
    have htrans := hnear.trans (near_up ha hx hk) unit_pos.le le_rfl (by decide) (by decide)
    rw [add_zero] at htrans
    exact ⟨hnegative, htrans⟩
  · split at h
    · rename_i hzero
      cases h
      have hsize : a.size = 0 := by rw [size, hzero, Nat.cast_zero, zero_div]
      have hnull : x = 0 := by
        have habove := ha.above
        rw [hsize, zero_mul, zero_add] at habove
        exact le_antisymm habove hx
      rw [hsize, hnull, zero_mul]
      exact ⟨rfl, (Near.refl 0).mono le_rfl le_rfl (by decide) (by have := unit_pos; linarith)⟩
    · cases h

/-- A significand can be multiplied by a power of ten if the product is not out of reach. -/
theorem exists_scaleUp? (ha : Near 1 0 a.size n) (hx : (n : ℚ) * 10 ^ k ≤ reach * grain) :
    ∃ d, a.scaleUp? k = some d := by
  unfold scaleUp?
  split
  · rename_i hk
    refine (rounds_up a hk).exists_some ?_
    have hbelow := (near_up ha (Nat.cast_nonneg n) hk).below
    have hgrain : grain * grain ^ 2 ≤ 3 / 2 := by norm_num [grain]
    calc a.size * (powerOfTen k).size
      _ ≤ n * 10 ^ k * grain ^ 2 + 0 := hbelow
      _ ≤ reach * grain * grain ^ 2 + 0 :=
          add_le_add_left (mul_le_mul_of_nonneg_right hx (pow_pos grain_pos 2).le) 0
      _ = reach * (grain * grain ^ 2) := by ring
      _ ≤ reach * (3 / 2) := mul_le_mul_of_nonneg_left hgrain reach_pos.le
  · rename_i hk
    have hzero : n = 0 := by
      by_contra hn
      have hone : (1 : ℚ) ≤ n := by exact_mod_cast Nat.one_le_iff_ne_zero.mpr hn
      have hlarge : reach * 10 ≤ n * 10 ^ k := by
        calc reach * 10
          _ = 10 ^ 309 := by rw [reach, ← pow_succ]
          _ ≤ 10 ^ k := pow_le_pow_right₀ (by norm_num) (by omega)
          _ ≤ n * 10 ^ k := le_mul_of_one_le_left (by positivity) hone
      have hgrain : grain < 10 := by norm_num [grain]
      have hless := mul_lt_mul_of_pos_left hgrain reach_pos
      linarith
    have hsize : a.size = 0 := by
      have hbelow := ha.below
      rw [hzero, Nat.cast_zero, zero_mul, zero_add] at hbelow
      exact le_antisymm hbelow a.size_nonneg
    have hmagnitude : a.magnitude = 0 := by
      rw [size, div_eq_zero_iff] at hsize
      exact_mod_cast hsize.resolve_right scale_pos.ne'
    exact ⟨a, if_pos hmagnitude⟩

/-- Dividing a number that is small enough by a power of ten gives a double near the quotient. -/
theorem over?_near {j : Nat} {s : ℚ} (ha : Near j s a.size x) (hx : 0 ≤ x) (hs : 0 ≤ s)
    (hsmall : a.size / (powerOfTen k).size ≤ reach * (3 / 2)) (hj : j ≤ 5) (hk : k ≤ 308) :
    ∃ d, a.over? (powerOfTen k) = some d ∧ d.negative = a.negative ∧
      Near (j + 2) (2 * (unit + 2 * s)) d.size (x / 10 ^ k) := by
  have hrounds := rounds_down a hk
  obtain ⟨d, hd⟩ := hrounds.exists_some hsmall
  rw [hd] at hrounds
  obtain ⟨hnegative, hnear⟩ := hrounds.near
  have hquotient := ha.div (near_powerOfTen hk) a.size_nonneg hx (powerOfTen_pos hk)
    (one_le_pow_ten k) hs (by decide)
  have htrans := hnear.trans hquotient unit_pos.le (by linarith) (by decide) (by omega)
  rw [show 1 + (j + 1) = j + 2 by omega] at htrans
  exact ⟨d, hd, hnegative, htrans⟩

/-- Quotients of significands are small. -/
theorem quotient_small {j : Nat} {s : ℚ} (ha : Near j s a.size x) (hx : 0 ≤ x) (hlt : x ≤ 2 ^ 64)
    (hs : 0 ≤ s) (hslack : s ≤ 1) (hj : j ≤ 5) (hk : k ≤ 308) :
    a.size / (powerOfTen k).size ≤ reach * (3 / 2) := by
  have hnear := ha.div (near_powerOfTen hk) a.size_nonneg hx (powerOfTen_pos hk)
    (one_le_pow_ten k) hs (by decide)
  have hreach : (2 : ℚ) ^ 66 ≤ reach := by
    calc (2 : ℚ) ^ 66
      _ ≤ 10 ^ 66 := pow_le_pow_left₀ (by norm_num) (by norm_num) 66
      _ ≤ reach := pow_le_pow_right₀ (by norm_num) (by decide)
  have hquotient : x / 10 ^ k ≤ 2 ^ 64 := le_trans (div_le_self hx (one_le_pow_ten k)) hlt
  have hgrain : grain ^ (j + 1) ≤ 2 := grain_pow_le (by omega)
  have hproduct : x / 10 ^ k * grain ^ (j + 1) ≤ 2 ^ 64 * 2 :=
    mul_le_mul hquotient hgrain (pow_pos grain_pos _).le (by norm_num)
  have hbelow := hnear.below
  linarith

theorem two_units_le : 2 * unit ≤ 1 := by
  have hscale : (2 : ℚ) ≤ scale := le_self_pow₀ (by norm_num) (by decide)
  rw [unit, mul_one_div, div_le_one scale_pos]
  exact hscale

/-- One division takes three roundings in all, -/
theorem divide_once (hn : n < 2 ^ 64) (ha : Near 1 0 a.size n) (hk : k ≤ 308) :
    ∃ d, a.over? (powerOfTen k) = some d ∧ d.negative = a.negative ∧
      Near 3 (2 * unit) d.size (n / 10 ^ k) := by
  have hlt : (n : ℚ) ≤ 2 ^ 64 := by exact_mod_cast hn.le
  have hsmall := quotient_small ha (Nat.cast_nonneg n) hlt le_rfl one_pos.le (by decide) hk
  obtain ⟨d, hd, hnegative, hnear⟩ :=
    over?_near ha (Nat.cast_nonneg n) le_rfl hsmall (by decide) hk
  rw [mul_zero, add_zero] at hnear
  exact ⟨d, hd, hnegative, hnear⟩

/-- and another one takes two more. -/
theorem divide_twice {j : Nat} (hn : n < 2 ^ 64) (ha : Near 1 0 a.size n) (hj : j ≤ 308)
    (hk : k ≤ 308) :
    ∃ d, (a.over? (powerOfTen j)).bind (·.over? (powerOfTen k)) = some d ∧
      d.negative = a.negative ∧ Near 5 (10 * unit) d.size (n / 10 ^ (j + k)) := by
  have hnonneg : (0 : ℚ) ≤ n / 10 ^ j := div_nonneg (Nat.cast_nonneg n) (by positivity)
  have hlt : (n : ℚ) / 10 ^ j ≤ 2 ^ 64 :=
    le_trans (div_le_self (Nat.cast_nonneg n) (one_le_pow_ten j)) (by exact_mod_cast hn.le)
  have hslack : 0 ≤ 2 * unit := mul_nonneg (by norm_num) unit_pos.le
  obtain ⟨b, hb, hsign, hnear⟩ := divide_once hn ha hj
  have hsmall := quotient_small hnear hnonneg hlt hslack two_units_le (by decide) hk
  obtain ⟨d, hd, hnegative, hnear⟩ := over?_near hnear hnonneg hslack hsmall (by decide) hk
  have hsum (u : ℚ) : 2 * (u + 2 * (2 * u)) = 10 * u := by ring
  rw [hsum, div_div, ← pow_add] at hnear
  rw [hb, Option.bind_some]
  exact ⟨d, hd, hnegative.trans hsign, hnear⟩

/-- Nothing is left of a significand after two divisions by `10 ^ 308`. -/
theorem lost (hn : n < 2 ^ 64) (hk : 616 < k) : (n : ℚ) / 10 ^ k ≤ unit := by
  have hpower : 2 ^ 64 * 2 ^ 1074 ≤ 10 ^ 617 := by decide +kernel
  have hmono {j : Nat} (hj : j ≤ k) : 10 ^ j ≤ 10 ^ k := Nat.pow_le_pow_right (by decide) hj
  have hle : n * 2 ^ 1074 ≤ 10 ^ k :=
    le_trans (le_trans (Nat.mul_le_mul_right _ hn.le) hpower) (hmono hk)
  have hcast : ((n * 2 ^ 1074 : Nat) : ℚ) ≤ (10 ^ k : Nat) := Nat.cast_le.mpr hle
  rw [Nat.cast_mul, Nat.cast_pow, Nat.cast_pow, Nat.cast_ofNat, Nat.cast_ofNat, ← scale] at hcast
  rwa [unit, div_le_div_iff₀ (by positivity) scale_pos, one_mul]

/-- A significand can be divided by any power of ten, with five roundings in all. -/
theorem scaleDown?_near (hn : n < 2 ^ 64) (ha : Near 1 0 a.size n) (k : Nat) :
    ∃ d, a.scaleDown? k = some d ∧ d.negative = a.negative ∧
      Near 5 (10 * unit) d.size (n / 10 ^ k) := by
  have hunit := unit_pos
  have hnonneg : (0 : ℚ) ≤ n := Nat.cast_nonneg n
  have hquotient (j : Nat) : (0 : ℚ) ≤ n / 10 ^ j := div_nonneg hnonneg (by positivity)
  unfold scaleDown?
  by_cases hk : k ≤ 308
  · obtain ⟨d, hd, hnegative, hnear⟩ := divide_once hn ha hk
    rw [if_pos hk]
    exact ⟨d, hd, hnegative, hnear.mono d.size_nonneg (hquotient k) (by decide) (by linarith)⟩
  by_cases hk' : k ≤ 616
  · have htwice := divide_twice hn ha (le_refl 308) (show k - 308 ≤ 308 by omega)
    rw [Nat.add_sub_cancel' (by omega)] at htwice
    rw [if_neg hk, if_pos hk']
    exact htwice
  · have hlost := lost hn (Nat.lt_of_not_le hk')
    have hpos : 0 ≤ n / 10 ^ k * grain ^ 5 := mul_nonneg (hquotient k) (pow_pos grain_pos 5).le
    rw [if_neg hk, if_neg hk']
    refine ⟨zero a.negative, rfl, rfl, ?_⟩
    rw [zero_size]
    constructor
    · linarith
    · rw [zero_mul]
      linarith

end Scaling

/-! ### Decimal notation -/

section Decimals

variable {n : Nat} {k : Int} {negative : Bool} {d : Double}

theorem ofDecimal?_eq {a : Double} (h : ofRatio? negative n 1 = some a) (k : Int) :
    ofDecimal? negative n k =
      if k < 0 then a.scaleDown? k.natAbs else a.scaleUp? k.natAbs := by
  rw [ofDecimal?, h]
  rfl

theorem zpow_ten (k : Int) :
    (10 : ℚ) ^ k = if k < 0 then 1 / 10 ^ k.natAbs else 10 ^ k.natAbs := by
  by_cases hk : k < 0
  · rw [if_pos hk, one_div, ← zpow_natCast, ← zpow_neg, Int.ofNat_natAbs_of_nonpos hk.le, neg_neg]
  · rw [if_neg hk, ← zpow_natCast, Int.natAbs_of_nonneg (not_lt.mp hk)]

theorem zpow_ten_pos (k : Int) : (0 : ℚ) < 10 ^ k := zpow_pos (by norm_num) k

/-- Only numbers out of reach are no doubles. -/
theorem exists_ofDecimal? (hn : n < 2 ^ 64) (hx : (n : ℚ) * 10 ^ k ≤ reach * grain)
    (negative : Bool) : ∃ d, ofDecimal? negative n k = some d := by
  obtain ⟨a, ha⟩ := exists_significand hn negative
  have hnear := (ofRatio?_eq_some ha).2.near_whole
  rw [ofDecimal?_eq ha]
  rw [zpow_ten] at hx
  split
  · obtain ⟨d, hd, -⟩ := scaleDown?_near hn hnear k.natAbs
    exact ⟨d, hd⟩
  · rename_i hk
    rw [if_neg hk] at hx
    exact exists_scaleUp? hnear hx

/-- A double from decimal notation is five roundings from the number that is written. -/
theorem ofDecimal?_near (hn : n < 2 ^ 64) (h : ofDecimal? negative n k = some d) :
    d.negative = negative ∧ Near 5 (10 * unit) d.size (n * 10 ^ k) := by
  obtain ⟨a, ha⟩ := exists_significand hn negative
  obtain ⟨rfl, hrounded⟩ := ofRatio?_eq_some ha
  have hunit := unit_pos
  rw [ofDecimal?_eq ha] at h
  rw [zpow_ten]
  split at h
  · rename_i hk
    obtain ⟨d', hd', hnear⟩ := scaleDown?_near hn hrounded.near_whole k.natAbs
    obtain rfl : d' = d := Option.some.inj (hd'.symm.trans h)
    rwa [if_pos hk, mul_one_div]
  · rename_i hk
    obtain ⟨hnegative, hnear⟩ := scaleUp?_near hrounded.near_whole (Nat.cast_nonneg n) h
    rw [if_neg hk]
    exact ⟨hnegative, hnear.mono d.size_nonneg (by positivity) (by decide) (by linarith)⟩

/-- Where the significand and the power of ten are doubles, the nearest double is taken. -/
theorem ofDecimal?_isNearest (hn : n < 2 ^ 53) (hk : k.natAbs ≤ 22)
    (h : ofDecimal? negative n k = some d) : d.IsNearest (signed negative (n * 10 ^ k)) := by
  obtain ⟨a, ha⟩ := exists_significand (lt_trans hn (by decide)) negative
  have hsize := significand_size hn ha
  obtain ⟨rfl, -⟩ := ofRatio?_eq_some ha
  rw [ofDecimal?_eq ha] at h
  rw [zpow_ten]
  split at h
  · rename_i hneg
    rw [scaleDown?, if_pos (by omega)] at h
    have hrounds := rounds_down a (show k.natAbs ≤ 308 by omega)
    rw [h, hsize, powerOfTen_size hk] at hrounds
    rw [if_pos hneg, mul_one_div]
    exact hrounds.isNearest
  · rename_i hneg
    rw [scaleUp?, if_pos (by omega)] at h
    have hrounds := rounds_up a (show k.natAbs ≤ 308 by omega)
    rw [h, hsize, powerOfTen_size hk] at hrounds
    rw [if_neg hneg]
    exact hrounds.isNearest

theorem scaleDown?_zero {a : Double} {k : Nat} (ha : a.size = 0) (h : a.scaleDown? k = some d) :
    d.size = 0 := by
  have hdown {b c : Double} {j : Nat} (hb : b.size = 0) (hj : j ≤ 308)
      (hc : b.over? (powerOfTen j) = some c) : c.size = 0 := by
    have hrounds := rounds_down b hj
    rw [hc, hb, zero_div] at hrounds
    exact hrounds.size_zero
  unfold scaleDown? at h
  split at h
  · rename_i hk
    exact hdown ha hk h
  · split at h
    · obtain ⟨b, hb, hd⟩ := Option.bind_eq_some_iff.mp h
      exact hdown (hdown ha le_rfl hb) (by omega) hd
    · rw [← Option.some.inj h, zero_size]

theorem scaleUp?_zero {a : Double} {k : Nat} (ha : a.size = 0) (h : a.scaleUp? k = some d) :
    d.size = 0 := by
  unfold scaleUp? at h
  split at h
  · rename_i hk
    have hrounds := rounds_up a hk
    rw [h, ha, zero_mul] at hrounds
    exact hrounds.size_zero
  · split at h
    · rw [← Option.some.inj h, ha]
    · cases h

/-- Only zero comes of a significand of zero. -/
theorem ofDecimal?_zero (h : ofDecimal? negative 0 k = some d) : d.size = 0 := by
  obtain ⟨a, ha⟩ := exists_significand (by decide : 0 < 2 ^ 64) negative
  have hsize : a.size = 0 := by simpa using significand_size (by decide) ha
  rw [ofDecimal?_eq ha] at h
  split at h
  · exact scaleDown?_zero hsize h
  · exact scaleUp?_zero hsize h

end Decimals

end JsonPath.Double
