import JsonPath.Evaluation.Result
import JsonPath.Proofs.Json.Same
import JsonPath.Proofs.Number.Rounding

/-!
Equality and order of values. Whole numbers compare exactly and other pairs of numbers as the
nearest doubles, which keep the order of whole numbers. The order of all numbers is therefore
strict and transitive, with every two numbers either in order or equal. Equality is reflexive and
symmetric, but a double may be equal to different whole numbers: it is transitive, and goes with
the order, just for numbers among which there is no such double.
-/

namespace JsonPath

namespace Number

/-- The first number is less than the second, where results are compared. -/
def Less (a b : Number) : Prop := Result.less (.value (.number a)) (.value (.number b)) = true

/-- The numbers are equal as values. -/
def Same (a b : Number) : Prop := (Json.number a).same (.number b) = true

/-- The units of the nearest double. -/
def units (a : Number) : Int := a.toDouble.units

variable {a b c : Number} {m n : Int}

section Views

theorem less_iff : a.Less b ↔ a.order b = .lt := by
  rw [← beq_iff_eq]
  rfl

theorem same_iff : a.Same b ↔ a.order b = .eq := by
  rw [← beq_iff_eq]
  rfl

theorem order_whole (ha : a.toInt? = some m) (hb : b.toInt? = some n) :
    a.order b = compare m n := by
  cases a <;> cases ha
  cases b <;> cases hb
  rfl

theorem order_units (h : a.toInt? = none ∨ b.toInt? = none) :
    a.order b = compare a.units b.units := by
  cases a with
  | int =>
    cases b with
    | int => rcases h with h | h <;> cases h
    | double => rfl
  | double => rfl

theorem whole_or (a b : Number) :
    (∃ m n, a.toInt? = some m ∧ b.toInt? = some n) ∨ a.toInt? = none ∨ b.toInt? = none := by
  cases ha : a.toInt? with
  | none => exact .inr (.inl rfl)
  | some m =>
    cases hb : b.toInt? with
    | none => exact .inr (.inr rfl)
    | some n => exact .inl ⟨m, n, rfl, rfl⟩

/-- Whole numbers do not get into the opposite order by being rounded. -/
theorem units_mono (ha : a.toInt? = some m) (hb : b.toInt? = some n) (h : m ≤ n) :
    a.units ≤ b.units := by
  cases a <;> cases ha
  cases b <;> cases hb
  exact Double.units_ofInt_mono (by omega) (by omega) h

end Views

section Order

/-- Numbers whose doubles are in order are in order. -/
theorem less_of_units (h : a.units < b.units) : a.Less b := by
  rw [less_iff]
  rcases whole_or a b with ⟨m, n, ha, hb⟩ | hnone
  · rw [order_whole ha hb, Int.compare_eq_lt]
    refine Int.lt_of_not_ge fun hle => ?_
    have hunits := units_mono hb ha hle
    omega
  · rw [order_units hnone, Int.compare_eq_lt]
    exact h

/-- The doubles of numbers in order are in order, or they are equal and the numbers are whole. -/
theorem Less.units (h : a.Less b) :
    a.units < b.units ∨
      a.units = b.units ∧ ∃ m n, a.toInt? = some m ∧ b.toInt? = some n ∧ m < n := by
  rw [less_iff] at h
  rcases whole_or a b with ⟨m, n, ha, hb⟩ | hnone
  · rw [order_whole ha hb, Int.compare_eq_lt] at h
    rcases Int.lt_or_eq_of_le (units_mono ha hb (Int.le_of_lt h)) with hlt | heq
    · exact .inl hlt
    · exact .inr ⟨heq, m, n, ha, hb, h⟩
  · rw [order_units hnone, Int.compare_eq_lt] at h
    exact .inl h

theorem Same.units (h : a.Same b) : a.units = b.units := by
  rw [same_iff] at h
  rcases whole_or a b with ⟨m, n, ha, hb⟩ | hnone
  · rw [order_whole ha hb, Int.compare_eq_eq] at h
    exact Int.le_antisymm (units_mono ha hb (Int.le_of_eq h))
      (units_mono hb ha (Int.le_of_eq h.symm))
  · rw [order_units hnone, Int.compare_eq_eq] at h
    exact h

theorem same_of_units (h : a.units = b.units) (hnone : a.toInt? = none ∨ b.toInt? = none) :
    a.Same b := by
  rw [same_iff, order_units hnone, Int.compare_eq_eq]
  exact h

theorem Same.symm (h : a.Same b) : b.Same a := by
  rw [same_iff] at h ⊢
  exact order_eq_symm h

/-- What is true of all numbers: one comes before another, or after it, or both are equal, and
what comes before also comes before all that comes after. -/
structure IsOrdered : Prop where
  irrefl : ∀ a : Number, ¬ a.Less a
  trans : ∀ a b c : Number, a.Less b → b.Less c → a.Less c
  total : ∀ a b : Number, a.Same b ↔ ¬ a.Less b ∧ ¬ b.Less a

theorem not_less_self (a : Number) : ¬ a.Less a := by
  rw [less_iff, order_self]
  exact nofun

theorem Less.trans (hab : a.Less b) (hbc : b.Less c) : a.Less c := by
  rcases hab.units with hlt | ⟨heq, m, n, ha, hb, hmn⟩
  · refine less_of_units (Int.lt_of_lt_of_le hlt ?_)
    rcases hbc.units with hlt' | ⟨heq', -⟩
    · exact Int.le_of_lt hlt'
    · exact Int.le_of_eq heq'
  · rcases hbc.units with hlt' | ⟨-, n', k, hb', hc, hnk⟩
    · exact less_of_units (heq ▸ hlt')
    · obtain rfl := Option.some.inj (hb.symm.trans hb')
      rw [less_iff, order_whole ha hc, Int.compare_eq_lt]
      omega

theorem same_iff_not_less : a.Same b ↔ ¬ a.Less b ∧ ¬ b.Less a := by
  rw [same_iff, less_iff, less_iff]
  rcases whole_or a b with ⟨m, n, ha, hb⟩ | hnone
  · rw [order_whole ha hb, order_whole hb ha, Int.compare_eq_eq, Int.compare_eq_lt,
      Int.compare_eq_lt]
    omega
  · rw [order_units hnone, order_units hnone.symm, Int.compare_eq_eq, Int.compare_eq_lt,
      Int.compare_eq_lt]
    omega

theorem less_or (a b : Number) : a.Less b ∨ a.Same b ∨ b.Less a := by
  by_cases hab : a.Less b
  · exact .inl hab
  · by_cases hba : b.Less a
    · exact .inr (.inr hba)
    · exact .inr (.inl (same_iff_not_less.mpr ⟨hab, hba⟩))

theorem isOrdered : IsOrdered where
  irrefl := not_less_self
  trans _ _ _ := Less.trans
  total _ _ := same_iff_not_less

end Order

section Blur

/-- Two different whole numbers among the given numbers are equal to a third number. -/
def Blurred (among : Number → Prop) : Prop :=
  ∃ (a b c : Number) (m n : Int), among a ∧ among b ∧ among c ∧ a.toInt? = some m ∧
    c.toInt? = some n ∧ m ≠ n ∧ a.Same b ∧ c.Same b

/-- Equality of the given numbers goes with their order. -/
structure Respects (among : Number → Prop) : Prop where
  left : ∀ a b c, among a → among b → among c → a.Same b → b.Less c → a.Less c
  right : ∀ a b c, among a → among b → among c → a.Less b → b.Same c → a.Less c

variable {among : Number → Prop}

/-- Numbers that are equal to a third one are equal, if they are not two whole numbers. -/
theorem Same.trans_of_not_blurred (h : ¬ Blurred among) (ha : among a) (hb : among b)
    (hc : among c) (hab : a.Same b) (hbc : b.Same c) : a.Same c := by
  have hunits := hab.units.trans hbc.units
  rcases whole_or a c with ⟨m, n, ham, hcn⟩ | hnone
  · by_cases hmn : m = n
    · rw [same_iff, order_whole ham hcn, Int.compare_eq_eq]
      exact hmn
    · exact absurd ⟨a, b, c, m, n, ha, hb, hc, ham, hcn, hmn, hab, hbc.symm⟩ h
  · exact same_of_units hunits hnone

theorem not_same_of_whole (ha : a.toInt? = some m) (hb : b.toInt? = some n) (h : m ≠ n) :
    ¬ a.Same b := by
  rw [same_iff, order_whole ha hb, Int.compare_eq_eq]
  exact h

/-- The sets of numbers among which equality is transitive are those without such a third number. -/
theorem exists_numberSet_iff : (∃ S : NumberSet, S.Mem = among) ↔ ¬ Blurred among := by
  constructor
  · rintro ⟨S, rfl⟩ ⟨a, b, c, m, n, ha, hb, hc, ham, hcn, hmn, hab, hcb⟩
    have hac := S.trans ha hb hc (same_iff.mp hab) (same_iff.mp hcb.symm)
    exact not_same_of_whole ham hcn hmn (same_iff.mpr hac)
  · intro h
    refine ⟨⟨among, ?_⟩, rfl⟩
    intro a b c ha hb hc hab hbc
    exact same_iff.mp
      (Same.trans_of_not_blurred h ha hb hc (same_iff.mpr hab) (same_iff.mpr hbc))

/-- Where equality is transitive it goes with the order: what is neither before nor equal would be
after. -/
theorem respects_of_trans
    (h : ∀ a b c, among a → among b → among c → a.Same b → b.Same c → a.Same c) :
    Respects among where
  left a b c ha hb hc hab hbc := by
    rcases less_or a c with hlt | hsame | hgt
    · exact hlt
    · exact absurd hbc (same_iff_not_less.mp (h b a c hb ha hc hab.symm hsame)).1
    · exact absurd (hbc.trans hgt) (same_iff_not_less.mp hab).2
  right a b c ha hb hc hab hbc := by
    rcases less_or a c with hlt | hsame | hgt
    · exact hlt
    · exact absurd hab (same_iff_not_less.mp (h a c b ha hc hb hsame hbc.symm)).1
    · exact absurd (hgt.trans hab) (same_iff_not_less.mp hbc).2

theorem not_blurred_of_respects (h : Respects among) : ¬ Blurred among := by
  rintro ⟨a, b, c, m, n, ha, hb, hc, ham, hcn, hmn, hab, hcb⟩
  rcases less_or a c with hlt | hsame | hgt
  · exact (same_iff_not_less.mp hab).1 (h.right a c b ha hc hb hlt hcb)
  · exact not_same_of_whole ham hcn hmn hsame
  · exact (same_iff_not_less.mp hcb).1 (h.right c a b hc ha hb hgt hab)

end Blur

end Number

/-- Equality of values is reflexive and symmetric and their order is strict, transitive and total.
Equality is transitive, and goes with the order, exactly for numbers among which no two different
whole numbers are equal to a third number. -/
theorem Json.same_less_coherent (among : Number → Prop) :
    (∀ v : Json, v.WellFormed → v.same v = true) ∧
    (∀ v w : Json, v.WellFormed → w.WellFormed → v.same w = w.same v) ∧
    Number.IsOrdered ∧
    (∀ (S : NumberSet) (u v w : Json), u.Over S → v.Over S → w.Over S → u.same v = true →
      v.same w = true → u.same w = true) ∧
    ((∃ S : NumberSet, S.Mem = among) ↔ ¬ Number.Blurred among) ∧
    (Number.Respects among ↔ ¬ Number.Blurred among) := by
  refine ⟨fun v hv => hv.same_self, ?_, Number.isOrdered, ?_, Number.exists_numberSet_iff,
    Number.not_blurred_of_respects, fun h => Number.respects_of_trans ?_⟩
  · intro v w hv hw
    exact Bool.eq_iff_iff.mpr ⟨hv.same_symm hw, hw.same_symm hv⟩
  · intro S u v w hu hv hw
    exact same_trans hu hv hw
  · intro a b c ha hb hc hab hbc
    exact Number.Same.trans_of_not_blurred h ha hb hc hab hbc

/-- Two whole numbers next to each other that round to one double. -/
def Number.neighbours : Number × Number := (.ofInt (2 ^ 53), .ofInt (2 ^ 53 + 1))

/-- The double. -/
def Number.between : Number := .double (Double.ofInt (2 ^ 53))

/-- Both whole numbers are equal to the double, though the first is less than the second. -/
theorem Json.not_coherent_neighbours :
    (number Number.neighbours.1).same (number Number.between) = true ∧
      (number Number.between).same (number Number.neighbours.2) = true ∧
      (number Number.neighbours.1).same (number Number.neighbours.2) = false ∧
      Number.neighbours.1.Less Number.neighbours.2 ∧
      ¬ Number.between.Less Number.neighbours.2 := by
  unfold Number.Less
  decide +kernel

end JsonPath
