import JsonPath.Proofs.Json.Reading
import JsonPath.Proofs.Number.Decimal

/-!
What is read of a number and the number that is written. A whole number of 64 bits is kept as it is,
and any other number as a double. The digits that do not fit 64 bits are left out, the significand
and the power of ten are rounded, and so is what becomes of them: a number of few digits is kept as
the nearest double, and every other one as a double close to it. Only a number that is out of reach
is not kept at all.
-/

namespace JsonPath

/-- The number that a number of a document is. -/
def Number.value : Number → ℚ
  | .int n _ => n
  | .double d => d.value

namespace Parser.NumberText

/-- All digits before the exponent as a whole number. -/
def significand (t : NumberText) : Nat := Text.decimalValue (t.digits ++ t.fraction.getD [])

/-- The exponent that is written, or zero. -/
def power (t : NumberText) : Int :=
  match t.exponent with
  | none => 0
  | some (sign, digits) =>
    if sign = ['-'] then -Text.decimalValue digits else Text.decimalValue digits

/-- The power of ten by which the significand is multiplied. -/
def scale (t : NumberText) : Int := t.power - (t.fraction.getD []).length

/-- The number that is written. -/
def denoted (t : NumberText) : ℚ := Double.signed t.negative (t.significand * 10 ^ t.scale)

/-- There are only a sign and digits. -/
def IsWhole (t : NumberText) : Prop := t.fraction = none ∧ t.exponent = none

/-- The whole number of the sign and the digits. -/
def whole (t : NumberText) : Int := if t.negative then -t.significand else t.significand

/-- The whole number has no more than 64 bits. -/
def InRange (t : NumberText) : Prop := -(2 ^ 63) ≤ t.whole ∧ t.whole < 2 ^ 64

/-- The digits take no more than 64 bits, and no more than 53 with a power of ten, which is one up
to `10 ^ 22` then. -/
def Short (t : NumberText) : Prop :=
  t.IsWhole ∧ t.significand < 2 ^ 64 ∨ t.significand < 2 ^ 53 ∧ t.scale.natAbs ≤ 22

/-- What stands for digits are digits. -/
structure HasDigits (t : NumberText) : Prop where
  whole : ∀ c ∈ t.digits, Grammar.IsDigit c
  fraction : ∀ c ∈ t.fraction.getD [], Grammar.IsDigit c

theorem hasDigits_ofChars (chars : List Char) : (ofChars chars).HasDigits := by
  refine ⟨fun c hc => isDigit_of_mem_takeWhile hc, fun c hc => ?_⟩
  change c ∈ (fractionOf ((unsigned chars).dropWhile Text.isDigit)).getD [] at hc
  unfold fractionOf at hc
  split at hc
  · exact isDigit_of_mem_takeWhile hc
  · cases hc

theorem whole_natAbs (t : NumberText) : t.whole.natAbs = t.significand := by
  unfold whole
  split <;> omega

theorem scale_eq (t : NumberText) :
    -((t.fraction.getD []).length : Int) + t.power = t.scale := by
  rw [scale]
  ring

/-- The size of the number that is written. -/
theorem abs_denoted (t : NumberText) : |t.denoted| = t.significand * 10 ^ t.scale := by
  rw [denoted, Double.abs_signed,
    abs_of_nonneg (mul_nonneg (Nat.cast_nonneg _) (Double.zpow_ten_pos _).le)]

theorem denoted_eq_zero {t : NumberText} : t.denoted = 0 ↔ t.significand = 0 := by
  rw [← abs_eq_zero, abs_denoted, mul_eq_zero, or_iff_left (Double.zpow_ten_pos _).ne',
    Nat.cast_eq_zero]

/-- Without fraction and exponent the number written is the whole number. -/
theorem denoted_of_whole {t : NumberText} (hwhole : t.IsWhole) : t.denoted = t.whole := by
  obtain ⟨hfraction, hexponent⟩ := hwhole
  have hscale : t.scale = 0 := by
    rw [scale, power, hexponent, hfraction]
    rfl
  rw [denoted, hscale, zpow_zero, mul_one, whole, Double.signed]
  split <;> simp

end Parser.NumberText

/-! ### Significant digits -/

namespace Json.Reader

open Grammar JsonPath.Parser

section Significant

variable {digits : List Char} {value : Nat}

theorem decimalFrom_append (value : Nat) (v w : List Char) :
    decimalFrom value (v ++ w) = decimalFrom (decimalFrom value v) w := List.foldl_append

theorem digit_lt {c : Char} (hc : IsDigit c) : c.toNat - 48 < 10 := by
  have hle : c.toNat ≤ 57 := hc.2
  omega

/-- More digits leave a number in its decade. -/
theorem decimalFrom_bounds (hdigits : ∀ c ∈ digits, IsDigit c) (value : Nat) :
    value * 10 ^ digits.length ≤ decimalFrom value digits ∧
      decimalFrom value digits < (value + 1) * 10 ^ digits.length := by
  induction digits generalizing value with
  | nil => simp [decimalFrom]
  | cons c rest ih =>
    have hc := digit_lt (hdigits c (List.mem_cons_self ..))
    obtain ⟨hlow, hhigh⟩ := ih (fun d hd => hdigits d (List.mem_cons_of_mem _ hd))
      (value * 10 + (c.toNat - 48))
    rw [List.length_cons, pow_succ, mul_comm _ 10, ← mul_assoc, ← mul_assoc]
    constructor
    · exact le_trans (Nat.mul_le_mul_right _ (by omega)) hlow
    · exact lt_of_lt_of_le hhigh (Nat.mul_le_mul_right _ (by omega))

/-- As many digits are taken as 64 bits have room for. -/
theorem significant_spec (hvalue : value < 2 ^ 64) (digits : List Char) :
    (significant value digits).1 < 2 ^ 64 ∧
      (significant value digits).2 ≤ digits.length ∧
      (significant value digits).1 =
        decimalFrom value (digits.take (significant value digits).2) := by
  induction digits generalizing value with
  | nil => exact ⟨hvalue, le_refl _, rfl⟩
  | cons c rest ih =>
    rw [significant]
    dsimp only
    split
    · rename_i hnext
      obtain ⟨hlt, hle, heq⟩ := ih hnext
      exact ⟨hlt, Nat.succ_le_succ hle, heq⟩
    · exact ⟨hvalue, Nat.zero_le _, rfl⟩

/-- Digits are left out only where there is no more room. -/
theorem significant_full (hdigits : ∀ c ∈ digits, IsDigit c) (value : Nat) :
    (significant value digits).2 = digits.length ∨
      2 ^ 64 ≤ (significant value digits).1 * 10 + 9 := by
  induction digits generalizing value with
  | nil => exact .inl rfl
  | cons c rest ih =>
    have hc := digit_lt (hdigits c (List.mem_cons_self ..))
    rw [significant]
    dsimp only
    split
    · rename_i hnext
      refine (ih (fun d hd => hdigits d (List.mem_cons_of_mem _ hd))
        (value * 10 + (c.toNat - 48))).imp_left fun hcount => ?_
      rw [hcount, List.length_cons]
    · right
      dsimp only
      omega

/-- A number of 64 bits is kept with all its digits. -/
theorem significant_all (h : decimalFrom value digits < 2 ^ 64) :
    significant value digits = (decimalFrom value digits, digits.length) := by
  induction digits generalizing value with
  | nil => rfl
  | cons c rest ih =>
    have hnext : value * 10 + (c.toNat - 48) < 2 ^ 64 :=
      lt_of_le_of_lt (le_decimalFrom _ rest) h
    rw [significant]
    dsimp only
    rw [if_pos hnext, ih h]
    rfl

end Significant

section Kept

open Double (Near grain)

variable {x y : ℚ} {n : Nat} {k : Int}

/-- The number begins with the digits of the whole number. -/
structure Within (n : Nat) (k : Int) (x : ℚ) : Prop where
  low : n * 10 ^ k ≤ x
  high : x ≤ (n + 1) * 10 ^ k

/-- Numbers that begin with the same 19 digits are one rounding from each other. -/
theorem Within.near (hx : Within n k x) (hy : Within n k y) (hn : 2 ^ 64 ≤ n * 10 + 9) :
    Near 1 0 x y := by
  have hlarge : (2 : ℚ) ^ 52 ≤ n := by
    have hnat : 2 ^ 52 ≤ n := by omega
    exact_mod_cast hnat
  have half {u v : ℚ} (hu : Within n k u) (hv : Within n k v) : u ≤ v * grain ^ 1 + 0 := by
    have hgrain : (n : ℚ) + 1 ≤ n * grain := by
      rw [grain, mul_add, mul_one, mul_one_div]
      have hone : (1 : ℚ) ≤ n / 2 ^ 52 := (one_le_div (by positivity)).mpr hlarge
      linarith
    calc u
      _ ≤ (n + 1) * 10 ^ k := hu.high
      _ ≤ n * grain * 10 ^ k := mul_le_mul_of_nonneg_right hgrain (Double.zpow_ten_pos k).le
      _ = n * 10 ^ k * grain ^ 1 + 0 := by ring
      _ ≤ v * grain ^ 1 + 0 :=
          add_le_add_left (mul_le_mul_of_nonneg_right hv.low (pow_pos Double.grain_pos 1).le) 0
  exact ⟨half hx hy, half hy hx⟩

theorem Within.scale (hx : Within n k x) (m : Int) : Within n (k + m) (x * 10 ^ m) := by
  have hten : (10 : ℚ) ^ (k + m) = 10 ^ k * 10 ^ m := zpow_add₀ (by norm_num) k m
  have hpos := (Double.zpow_ten_pos m).le
  refine ⟨?_, ?_⟩
  · rw [hten, ← mul_assoc]
    exact mul_le_mul_of_nonneg_right hx.low hpos
  · rw [hten, ← mul_assoc]
    exact mul_le_mul_of_nonneg_right hx.high hpos

theorem within_self (n : Nat) (k : Int) : Within n k (n * 10 ^ k) where
  low := le_refl _
  high := mul_le_mul_of_nonneg_right (by linarith) (Double.zpow_ten_pos k).le

/-- A number that is followed by digits is what the longer one begins with. -/
theorem within_decimalFrom {digits : List Char} (hdigits : ∀ c ∈ digits, IsDigit c) (value : Nat) :
    Within value digits.length (decimalFrom value digits) := by
  obtain ⟨hlow, hhigh⟩ := decimalFrom_bounds hdigits value
  refine ⟨?_, ?_⟩
  · rw [zpow_natCast]
    exact_mod_cast hlow
  · rw [zpow_natCast]
    exact_mod_cast hhigh.le

variable {t : NumberText}

theorem significand_eq (t : NumberText) :
    t.significand = decimalFrom (decimalFrom 0 t.digits) (t.fraction.getD []) :=
  decimalFrom_append 0 t.digits (t.fraction.getD [])

theorem kept_lt (t : NumberText) : (kept t).1 < 2 ^ 64 :=
  (significant_spec (significant_spec (by decide) t.digits).1 _).1

/-- A number of 64 bits is kept with all its digits. -/
theorem kept_all (h : t.significand < 2 ^ 64) :
    kept t = (t.significand, -((t.fraction.getD []).length : Int)) := by
  rw [significand_eq] at h ⊢
  have hwhole := significant_all (lt_of_le_of_lt (le_decimalFrom _ _) h)
  rw [kept, hwhole]
  dsimp only
  rw [significant_all h, sub_self, zero_sub]

/-- Where digits of the whole part are left out, both what is kept and the number begin with the
digits that are taken. -/
theorem near_of_full {v w : List Char} {value count count' : Nat} (hv : ∀ c ∈ v, IsDigit c)
    (hw : ∀ c ∈ w, IsDigit c) (hcount : count ≤ v.length) (hcount' : count' ≤ w.length)
    (hvalue : value = decimalFrom 0 (v.take count)) (hfull : 2 ^ 64 ≤ value * 10 + 9) :
    Near 1 0 (decimalFrom value (w.take count') * 10 ^ ((v.length : Int) - count - count'))
      (decimalFrom (decimalFrom 0 v) w * 10 ^ (-(w.length : Int))) := by
  have htaken : ∀ c ∈ w.take count', IsDigit c := fun c hc => hw c (List.mem_of_mem_take hc)
  have hkept := (within_decimalFrom htaken value).scale ((v.length : Int) - count - count')
  have hrest : decimalFrom (decimalFrom 0 v) w = decimalFrom value (v.drop count ++ w) := by
    conv => lhs; rw [← List.take_append_drop count v]
    rw [decimalFrom_append, ← hvalue, ← decimalFrom_append]
  have hall : ∀ c ∈ v.drop count ++ w, IsDigit c := fun c hc =>
    (List.mem_append.mp hc).elim (fun h => hv c (List.mem_of_mem_drop h)) (hw c)
  have hnumber := (within_decimalFrom hall value).scale (-(w.length : Int))
  rw [hrest]
  rw [List.length_take, Nat.min_eq_left hcount'] at hkept
  rw [List.length_append, List.length_drop] at hnumber
  have hleft : (count' : Int) + ((v.length : Int) - count - count') = v.length - count := by omega
  have hright : ((v.length - count + w.length : Nat) : Int) + -(w.length : Int) =
      v.length - count := by omega
  rw [hleft] at hkept
  rw [hright] at hnumber
  exact hkept.near hnumber hfull

/-- Where only digits after the point are left out, the number begins with what is kept. -/
theorem near_of_fraction {w : List Char} {value kept count : Nat} (hw : ∀ c ∈ w, IsDigit c)
    (hcount : count ≤ w.length) (hkept : kept = decimalFrom value (w.take count))
    (hfull : count = w.length ∨ 2 ^ 64 ≤ kept * 10 + 9) :
    Near 1 0 (kept * 10 ^ (-(count : Int)))
      (decimalFrom value w * 10 ^ (-(w.length : Int))) := by
  have hrest : decimalFrom value w = decimalFrom kept (w.drop count) := by
    conv => lhs; rw [← List.take_append_drop count w]
    rw [decimalFrom_append, ← hkept]
  rcases hfull with hall | hfull
  · have hsame : kept = decimalFrom value w := by rw [hkept, hall, List.take_length]
    have hnonneg : (0 : ℚ) ≤ decimalFrom value w * 10 ^ (-(w.length : Int)) :=
      mul_nonneg (Nat.cast_nonneg _) (Double.zpow_ten_pos _).le
    rw [hall, hsame]
    exact (Near.refl _).mono hnonneg hnonneg (by decide) le_rfl
  · have hleft : ∀ c ∈ w.drop count, IsDigit c := fun c hc => hw c (List.mem_of_mem_drop hc)
    have hnumber := (within_decimalFrom hleft kept).scale (-(w.length : Int))
    have hscale : ((w.length - count : Nat) : Int) + -(w.length : Int) = -(count : Int) := by omega
    rw [List.length_drop, hscale] at hnumber
    rw [hrest]
    exact (within_self kept _).near hnumber hfull

/-- What is kept of a number is one rounding from it. -/
theorem kept_near (hdigits : ∀ c ∈ t.digits, IsDigit c)
    (hfraction : ∀ c ∈ t.fraction.getD [], IsDigit c) :
    Near 1 0 ((kept t).1 * 10 ^ (kept t).2)
      (t.significand * 10 ^ (-((t.fraction.getD []).length : Int))) := by
  obtain ⟨hwhole, hle, hvalue⟩ := significant_spec (by decide : 0 < 2 ^ 64) t.digits
  have hfull := significant_full hdigits 0
  rw [significand_eq]
  unfold kept
  generalize significant 0 t.digits = first at *
  obtain ⟨value, count⟩ := first
  dsimp only at hwhole hle hvalue hfull ⊢
  obtain ⟨-, hle', hvalue'⟩ := significant_spec hwhole (t.fraction.getD [])
  have hfull' := significant_full hfraction value
  generalize significant value (t.fraction.getD []) = second at *
  obtain ⟨value', count'⟩ := second
  dsimp only at hle' hvalue' hfull' ⊢
  rcases hfull with hall | hfull
  · rw [hall, List.take_length] at hvalue
    rw [hall, sub_self, zero_sub, ← hvalue]
    exact near_of_fraction hfraction hle' hvalue' hfull'
  · rw [hvalue']
    exact near_of_full hdigits hfraction hle hle' hvalue hfull

end Kept

/-! ### Numbers that are read -/

section Numbers

open Double (Near unit)

variable {t : NumberText} {n : Number}

/-- Without fraction and exponent a number of 64 bits is kept as a whole number, and a negative zero
as a double. -/
theorem number?_of_whole (hwhole : t.IsWhole) (hbits : t.significand < 2 ^ 64) :
    number? t = some (if t.negative && t.significand = 0 then .double (Double.zero true)
      else .ofInt t.whole) := by
  have hparts : t.fraction = none ∧ t.exponent = none := hwhole
  rw [number?, if_pos hparts, kept_all hbits, hwhole.1, Option.getD_none, List.length_nil,
    Nat.cast_zero, neg_zero, whole?, NumberText.whole]
  split
  · rfl
  · rw [if_neg (by simp)]

/-- Of a longer whole number digits are left out. -/
theorem kept_long (hdigits : t.HasDigits) (hfraction : t.fraction = none)
    (hlong : ¬t.significand < 2 ^ 64) : (kept t).1 ≠ 0 ∧ (kept t).2 ≠ 0 := by
  obtain ⟨negative, lead, fraction, exponent⟩ := t
  obtain rfl : fraction = none := hfraction
  obtain ⟨hbits, hle, hvalue⟩ := significant_spec (by decide : 0 < 2 ^ 64) lead
  have hcount : (significant 0 lead).2 ≠ lead.length := fun hall => by
    rw [hall, List.take_length] at hvalue
    rw [significand_eq] at hlong
    exact hlong (hvalue ▸ hbits)
  have hfull := (significant_full hdigits.whole 0).resolve_left hcount
  rw [kept_whole]
  dsimp only at hfull ⊢
  omega

theorem finished?_eq (negative : Bool) (significand : Nat) (scale : Int)
    (hpower : t.power.natAbs < 2 ^ 31) :
    finished? negative significand scale t.exponent =
      decimal? negative significand (scale + t.power) := by
  unfold NumberText.power at hpower ⊢
  cases hexponent : t.exponent with
  | none => rw [finished?, add_zero]
  | some parts =>
    obtain ⟨sign, digits⟩ := parts
    rw [hexponent] at hpower
    dsimp only at hpower ⊢
    have hsmall : Text.decimalValue digits < 2 ^ 31 := by
      split at hpower <;> simpa using hpower
    rw [finished?, scaled?, if_pos hsmall]
    by_cases hsign : sign = ['-']
    · rw [if_pos (decide_eq_true hsign), if_pos hsign, sub_eq_add_neg]
    · rw [if_neg (by simpa using hsign), if_neg hsign]

/-- Any other number is kept as a double, if its exponent has no more than 31 bits. -/
theorem number?_of_decimal (hdigits : t.HasDigits)
    (hother : ¬(t.IsWhole ∧ t.significand < 2 ^ 64)) (hpower : t.power.natAbs < 2 ^ 31) :
    number? t = decimal? t.negative (kept t).1 ((kept t).2 + t.power) := by
  by_cases hwhole : t.IsWhole
  · obtain ⟨hfraction, hexponent⟩ := hwhole
    obtain ⟨hvalue, hscale⟩ := kept_long hdigits hfraction fun hbits =>
      hother ⟨⟨hfraction, hexponent⟩, hbits⟩
    have hzero : t.power = 0 := by rw [NumberText.power, hexponent]
    rw [number?, if_pos ⟨hfraction, hexponent⟩, whole?, if_neg (by simp [hvalue]), if_pos hscale,
      hzero, add_zero]
  · have hparts : ¬(t.fraction = none ∧ t.exponent = none) := hwhole
    rw [number?, if_neg hparts, finished?_eq _ _ _ hpower]

/-- A longer exponent leaves a zero, or nothing. -/
theorem number?_of_long (hpower : ¬t.power.natAbs < 2 ^ 31) :
    number? t =
      if (kept t).1 ≠ 0 ∧ 0 ≤ t.power then none else some (.double (Double.zero t.negative)) := by
  unfold NumberText.power at hpower ⊢
  cases hexponent : t.exponent with
  | none =>
    rw [hexponent] at hpower
    exact absurd (by decide) hpower
  | some parts =>
    obtain ⟨sign, digits⟩ := parts
    rw [hexponent] at hpower
    dsimp only at hpower ⊢
    have hlarge : ¬Text.decimalValue digits < 2 ^ 31 := fun hsmall => hpower (by
      split <;> simpa using hsmall)
    rw [number?, if_neg (by simp [hexponent]), hexponent, finished?, scaled?, if_neg hlarge]
    refine if_congr ?_ rfl rfl
    rw [Bool.and_eq_true, decide_eq_true_eq, Bool.not_eq_true', decide_eq_false_iff_not]
    refine and_congr_right fun _ => ?_
    split <;> rename_i hsign
    · exact iff_of_false (not_not.mpr hsign) (by omega)
    · exact iff_of_true hsign (Int.natCast_nonneg _)

/-- What is kept of a number, with the exponent, is one rounding from what is written. -/
theorem kept_near_denoted (hdigits : t.HasDigits) :
    Near 1 0 ((kept t).1 * 10 ^ ((kept t).2 + t.power)) |t.denoted| := by
  have hten : (10 : ℚ) ≠ 0 := by norm_num
  have hnear := (kept_near hdigits.whole hdigits.fraction).mul (Near.refl (10 ^ t.power))
    (mul_nonneg (Nat.cast_nonneg _) (Double.zpow_ten_pos _).le)
    (mul_nonneg (Nat.cast_nonneg _) (Double.zpow_ten_pos _).le)
    (Double.zpow_ten_pos _).le (Double.zpow_ten_pos _).le
  rw [mul_assoc, mul_assoc, ← zpow_add₀ hten, ← zpow_add₀ hten] at hnear
  rwa [NumberText.scale_eq, ← NumberText.abs_denoted] at hnear

theorem decimal?_eq_some {negative : Bool} {significand : Nat} {scale : Int}
    (h : decimal? negative significand scale = some n) :
    ∃ d, n = .double d ∧ Double.ofDecimal? negative significand scale = some d := by
  obtain ⟨d, hd, rfl⟩ := Option.map_eq_some_iff.mp h
  exact ⟨d, rfl, hd⟩

/-- A double that is as negative as the number written is as far from it as their sizes. -/
theorem abs_value_sub {d : Double} (hnegative : d.negative = t.negative) :
    |d.value - t.denoted| = |d.size - (|t.denoted|)| := by
  rw [Double.value, hnegative, NumberText.abs_denoted, NumberText.denoted, Double.signed_sub,
    Double.abs_signed]

/-- A double from the digits that are kept is close to the number that is written. -/
theorem decimal?_close (hdigits : t.HasDigits)
    (h : decimal? t.negative (kept t).1 ((kept t).2 + t.power) = some n) :
    |n.value - t.denoted| ≤ |t.denoted| / 2 ^ 49 + 40 * unit := by
  obtain ⟨d, rfl, hd⟩ := decimal?_eq_some h
  have hslack : 0 ≤ 10 * unit := mul_nonneg (by norm_num) Double.unit_pos.le
  obtain ⟨hnegative, hnear⟩ := Double.ofDecimal?_near (kept_lt t) hd
  have htrans := hnear.trans (kept_near_denoted hdigits) hslack le_rfl (by decide) (by decide)
  have hclose := htrans.abs_sub_le (abs_nonneg _) (by linarith)
  rw [Number.value, abs_value_sub hnegative]
  refine le_trans hclose (add_le_add_right ?_ _)
  linarith

/-- A whole number of 64 bits is one rounding from a double, if it is not kept as it is. -/
theorem ofInt_rounds {m : Int} (hm : m.natAbs < 2 ^ 64) :
    Double.Rounds (decide (m < 0)) m.natAbs (some (Double.ofInt m)) := by
  obtain ⟨d, hd⟩ := Double.exists_significand hm (decide (m < 0))
  refine ⟨m.natAbs, 1, Nat.one_pos, by rw [Nat.cast_one, div_one], ?_⟩
  rw [Double.ofInt, hd]
  rfl

theorem signed_natAbs (m : Int) : Double.signed (decide (m < 0)) (m.natAbs : ℚ) = m := by
  rw [Double.signed, Nat.cast_natAbs, Int.cast_abs]
  split
  · rename_i hm
    have hneg : (m : ℚ) < 0 := Int.cast_lt_zero.mpr (of_decide_eq_true hm)
    rw [abs_of_neg hneg, neg_neg]
  · rename_i hm
    have hnonneg : (0 : ℚ) ≤ m := Int.cast_nonneg (not_lt.mp fun h => hm (decide_eq_true h))
    exact abs_of_nonneg hnonneg

theorem ofInt_isNearest {m : Int} (hm : m.natAbs < 2 ^ 64) : (Double.ofInt m).IsNearest m := by
  have hnearest := (ofInt_rounds hm).isNearest
  rwa [signed_natAbs] at hnearest

theorem allowance_nonneg (x : ℚ) : 0 ≤ |x| / 2 ^ 49 + 40 * unit :=
  add_nonneg (div_nonneg (abs_nonneg x) (by norm_num)) (mul_nonneg (by norm_num) Double.unit_pos.le)

/-- A whole number of 64 bits is exact, or close as a double. -/
theorem ofInt_close {m : Int} (hm : m.natAbs < 2 ^ 64) :
    |(Number.ofInt m).value - m| ≤ |(m : ℚ)| / 2 ^ 49 + 40 * unit := by
  unfold Number.ofInt
  split
  · rw [Number.value, sub_self, abs_zero]
    exact allowance_nonneg _
  · have hunit := Double.unit_pos
    obtain ⟨hnegative, hnear⟩ := (ofInt_rounds hm).near
    have hclose := (hnear.mono (Double.size_nonneg _) (Nat.cast_nonneg _) (by decide)
      le_rfl).abs_sub_le (Nat.cast_nonneg _) hunit.le
    have habs : |(m : ℚ)| = (m.natAbs : ℚ) := by rw [Nat.cast_natAbs, Int.cast_abs]
    have hsame : |(Double.ofInt m).value - m| = |(Double.ofInt m).size - (m.natAbs : ℚ)| := by
      conv => lhs; rw [Double.value, hnegative, ← signed_natAbs m]
      rw [Double.signed_sub, Double.abs_signed]
    rw [Number.value, hsame, habs]
    linarith

theorem zero_value (negative : Bool) : (Double.zero negative).value = 0 := by
  rw [← abs_eq_zero, Double.abs_value, Double.zero_size]

/-- Only zero is kept of a number that is zero, whatever its exponent. -/
theorem number?_zero (hdigits : t.HasDigits) (hzero : t.significand = 0)
    (h : number? t = some n) : n.value = 0 := by
  have hbits : t.significand < 2 ^ 64 := hzero ▸ by decide
  by_cases hwhole : t.IsWhole
  · rw [number?_of_whole hwhole hbits] at h
    rw [← Option.some.inj h]
    split
    · exact zero_value true
    · have hnull : t.whole = 0 := Int.natAbs_eq_zero.mp ((NumberText.whole_natAbs t).trans hzero)
      rw [hnull]
      exact Int.cast_zero
  · by_cases hpower : t.power.natAbs < 2 ^ 31
    · rw [number?_of_decimal hdigits (fun h => hwhole h.1) hpower, kept_all hbits, hzero] at h
      obtain ⟨d, rfl, hd⟩ := decimal?_eq_some h
      rw [Number.value, ← abs_eq_zero, Double.abs_value]
      exact Double.ofDecimal?_zero hd
    · rw [number?_of_long hpower, kept_all hbits, if_neg fun hlong => hlong.1 hzero] at h
      rw [← Option.some.inj h]
      exact zero_value t.negative

/-- The number that is read is close to the number that is written. -/
theorem number?_close (hdigits : t.HasDigits) (hpower : t.power.natAbs < 2 ^ 31)
    (h : number? t = some n) : |n.value - t.denoted| ≤ |t.denoted| / 2 ^ 49 + 40 * unit := by
  by_cases hbits : t.IsWhole ∧ t.significand < 2 ^ 64
  · obtain ⟨hwhole, hbits⟩ := hbits
    by_cases hzero : t.significand = 0
    · have hexact : |n.value - t.denoted| = 0 := by
        rw [number?_zero hdigits hzero h, NumberText.denoted_eq_zero.mpr hzero, sub_self, abs_zero]
      rw [hexact]
      exact allowance_nonneg t.denoted
    · rw [number?_of_whole hwhole hbits, if_neg (by simp [hzero])] at h
      rw [← Option.some.inj h, NumberText.denoted_of_whole hwhole]
      exact ofInt_close ((NumberText.whole_natAbs t).symm ▸ hbits)
  · rw [number?_of_decimal hdigits hbits hpower] at h
    exact decimal?_close hdigits h

/-- A whole number of 64 bits that is out of range is rounded. -/
theorem number?_of_outside (hwhole : t.IsWhole) (hbits : t.significand < 2 ^ 64)
    (hrange : ¬t.InRange) : number? t = some (.double (Double.ofInt t.whole)) := by
  have hsize := NumberText.whole_natAbs t
  have hzero : t.significand ≠ 0 := fun hzero => hrange (by
    unfold NumberText.InRange
    omega)
  have hint : Number.ofInt t.whole = .double (Double.ofInt t.whole) := dif_neg hrange
  rw [number?_of_whole hwhole hbits, if_neg (by simp [hzero]), hint]

/-- What is not kept as a whole number is kept as a double of its sign, -/
theorem number?_double (hdigits : t.HasDigits) (hother : ¬(t.IsWhole ∧ t.InRange))
    (h : number? t = some n) : ∃ d, n = .double d ∧ d.negative = t.negative := by
  by_cases hpower : t.power.natAbs < 2 ^ 31
  · by_cases hbits : t.IsWhole ∧ t.significand < 2 ^ 64
    · obtain ⟨hwhole, hbits⟩ := hbits
      have hrange : ¬t.InRange := fun hrange => hother ⟨hwhole, hrange⟩
      rw [number?_of_outside hwhole hbits hrange] at h
      refine ⟨_, (Option.some.inj h).symm, ?_⟩
      rw [(ofInt_rounds ((NumberText.whole_natAbs t).symm ▸ hbits)).near.1]
      unfold NumberText.InRange NumberText.whole at hrange
      unfold NumberText.whole
      cases hsign : t.negative
      · simp
      · rw [hsign] at hrange
        simp only [if_true, decide_eq_true_eq] at hrange ⊢
        omega
    · rw [number?_of_decimal hdigits hbits hpower] at h
      obtain ⟨d, rfl, hd⟩ := decimal?_eq_some h
      exact ⟨d, rfl, (Double.ofDecimal?_near (kept_lt t) hd).1⟩
  · rw [number?_of_long hpower] at h
    split at h
    · cases h
    · exact ⟨_, (Option.some.inj h).symm, rfl⟩

/-- and as the nearest double where its digits are few. -/
theorem number?_isNearest {d : Double} (hdigits : t.HasDigits)
    (hother : ¬(t.IsWhole ∧ t.InRange)) (hshort : t.Short) (hpower : t.power.natAbs < 2 ^ 31)
    (h : number? t = some (.double d)) : d.IsNearest t.denoted := by
  by_cases hbits : t.IsWhole ∧ t.significand < 2 ^ 64
  · obtain ⟨hwhole, hbits⟩ := hbits
    rw [number?_of_outside hwhole hbits fun hrange => hother ⟨hwhole, hrange⟩] at h
    rw [NumberText.denoted_of_whole hwhole, ← Number.double.inj (Option.some.inj h)]
    exact ofInt_isNearest ((NumberText.whole_natAbs t).symm ▸ hbits)
  · obtain ⟨hsignificand, hscale⟩ := hshort.resolve_left hbits
    rw [number?_of_decimal hdigits hbits hpower,
      kept_all (lt_trans hsignificand (by decide)), NumberText.scale_eq] at h
    obtain ⟨d', hd', hd⟩ := decimal?_eq_some h
    rw [Number.double.inj hd']
    exact Double.ofDecimal?_isNearest hsignificand hscale hd

/-- Nothing is kept only of numbers that are out of reach. -/
theorem number?_none (hdigits : t.HasDigits) (h : number? t = none) :
    t.denoted ≠ 0 ∧ (Double.reach < |t.denoted| ∨ 2 ^ 31 ≤ t.power) := by
  by_cases hpower : t.power.natAbs < 2 ^ 31
  · have hbits : ¬(t.IsWhole ∧ t.significand < 2 ^ 64) := fun hbits => by
      rw [number?_of_whole hbits.1 hbits.2] at h
      cases h
    rw [number?_of_decimal hdigits hbits hpower, decimal?, Option.map_eq_none_iff] at h
    have hreach : Double.reach < |t.denoted| := by
      by_contra hle
      have hgrain := Double.grain_pos
      have hbelow := (kept_near_denoted hdigits).below
      rw [pow_one, add_zero] at hbelow
      obtain ⟨d, hd⟩ := Double.exists_ofDecimal? (kept_lt t)
        (le_trans hbelow (mul_le_mul_of_nonneg_right (not_lt.mp hle) hgrain.le)) t.negative
      rw [hd] at h
      cases h
    refine ⟨fun hzero => ?_, .inl hreach⟩
    rw [hzero, abs_zero] at hreach
    exact lt_asymm hreach Double.reach_pos
  · rw [number?_of_long hpower] at h
    split at h
    · rename_i hlong
      refine ⟨fun hzero => hlong.1 ?_, .inr (by omega)⟩
      have hnull := NumberText.denoted_eq_zero.mp hzero
      rw [kept_all (hnull ▸ by decide)]
      exact hnull
    · cases h

end Numbers

end Json.Reader

/-! ### The number of a text -/

namespace Parser.NumberText

variable {t : NumberText} {n : Number}

/-- The number is what is written, exactly or as a double. -/
structure Carries (t : NumberText) (n : Number) : Prop where
  /-- A whole number that is in range is kept as it is, but a negative zero as a double. -/
  whole (hwhole : t.IsWhole) (hrange : t.InRange) :
    n = if t.negative && t.significand = 0 then .double (Double.zero true) else .int t.whole hrange
  /-- Any other number is a double of the same sign, -/
  double : ¬(t.IsWhole ∧ t.InRange) → ∃ d, n = .double d ∧ d.negative = t.negative ∧
    (t.Short → t.power.natAbs < 2 ^ 31 → d.IsNearest t.denoted)
  /-- which differs from it by a small part of it, or by some of the smallest doubles. -/
  close : t.power.natAbs < 2 ^ 31 →
    |n.value - t.denoted| ≤ |t.denoted| / 2 ^ 49 + 40 * Double.unit
  zero : t.denoted = 0 → n.value = 0

theorem carries_of_number? (hdigits : t.HasDigits) (h : Json.Reader.number? t = some n) :
    t.Carries n where
  whole hwhole hrange := by
    have hsize := t.whole_natAbs
    have hbits : t.significand < 2 ^ 64 := by
      unfold InRange at hrange
      omega
    have hint : Number.ofInt t.whole = .int t.whole hrange := dif_pos hrange
    rw [Json.Reader.number?_of_whole hwhole hbits, hint] at h
    exact (Option.some.inj h).symm
  double hother := by
    obtain ⟨d, rfl, hsign⟩ := Json.Reader.number?_double hdigits hother h
    exact ⟨d, rfl, hsign, fun hshort hpower =>
      Json.Reader.number?_isNearest hdigits hother hshort hpower h⟩
  close hpower := Json.Reader.number?_close hdigits hpower h
  zero hzero := Json.Reader.number?_zero hdigits (denoted_eq_zero.mp hzero) h

end Parser.NumberText

end JsonPath
