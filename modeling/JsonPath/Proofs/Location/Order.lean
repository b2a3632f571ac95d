import JsonPath.Location

/-!
The order of locations. It is the lexicographic order of their steps, so it is total, and a list of
locations that is sorted and from which repetitions are removed has each of its locations once, in
increasing order.
-/

namespace JsonPath

namespace Step

instance : Std.LawfulEqCmp order where
  compare_self {a} := by
    cases a <;> exact Std.compare_self
  eq_of_compare {a b} h := by
    cases a <;> cases b
    case index.index => exact congrArg _ (Std.compare_eq_eq_iff_eq.mp h)
    case name.name => exact congrArg _ (Std.compare_eq_eq_iff_eq.mp h)
    all_goals cases h

instance : Std.TransCmp order where
  eq_swap {a b} := by
    cases a <;> cases b
    case index.index => exact Std.OrientedOrd.eq_swap
    case name.name => exact Std.OrientedOrd.eq_swap
    all_goals rfl
  isLE_trans {a b c} hab hbc := by
    cases a <;> cases b <;> cases c
    case index.index.index => exact Std.TransOrd.isLE_trans hab hbc
    case name.name.name => exact Std.TransOrd.isLE_trans hab hbc
    case index.index.name | index.name.name => rfl
    case index.name.index | name.name.index => exact absurd hbc Bool.false_ne_true
    case name.index.index | name.index.name => exact absurd hab Bool.false_ne_true

end Step

namespace Location

theorem order_eq_compareLex (a b : Location) : order a b = List.compareLex Step.order a b := by
  induction a generalizing b with
  | nil => cases b <;> rfl
  | cons step rest ih =>
    cases b with
    | nil => rfl
    | cons other others => rw [order, List.compareLex_cons_cons, ih]

theorem order_eq : order = List.compareLex Step.order :=
  funext fun a => funext fun b => order_eq_compareLex a b

instance : Std.LawfulEqCmp order := order_eq ▸ inferInstance

instance : Std.TransCmp order := order_eq ▸ inferInstance

/-- Below a common step, locations stand in the order of what follows it. -/
@[simp] theorem order_cons_cons (step : Step) (a b : Location) :
    order (step :: a) (step :: b) = order a b := by
  rw [order, @Std.ReflCmp.compare_self _ Step.order]
  rfl

/-- Nothing comes before the location of what it is inside of. -/
theorem not_order_prefix (step : Step) (a : Location) : order (step :: a) [step] ≠ .lt := by
  rw [order_cons_cons]
  cases a <;> nofun

variable {ls : List Location} {l : Location}

theorem mem_sort : l ∈ sort ls ↔ l ∈ ls := (List.mergeSort_perm ls _).mem_iff

theorem pairwise_sort (ls : List Location) :
    (sort ls).Pairwise fun a b => (order a b).isLE = true := by
  refine List.pairwise_mergeSort ?_ ?_ ls
  · exact fun a b c hab hbc => Std.TransCmp.isLE_trans hab hbc
  · intro a b
    rw [Bool.or_eq_true, @Std.OrientedCmp.eq_swap _ order _ b a]
    cases order a b <;> simp

/-- Removing repetitions goes through a list with the last element seen and those kept before it,
latest first. -/
theorem mem_eraseRepsLoop {rest kept : List Location} {a : Location} :
    l ∈ List.eraseRepsBy.loop (· == ·) a rest kept ↔ l ∈ kept ∨ l ∈ a :: rest := by
  induction rest generalizing a kept with
  | nil => simp [List.eraseRepsBy.loop, or_comm]
  | cons b rest ih =>
    rw [List.eraseRepsBy.loop]
    cases heq : a == b with
    | true =>
      obtain rfl := eq_of_beq heq
      simp [ih]
    | false => simp only [ih, List.mem_cons, or_assoc, or_left_comm]

theorem pairwise_eraseRepsLoop {rest kept : List Location} {a : Location}
    (hrest : (a :: rest).Pairwise fun a b => (order a b).isLE = true)
    (hkept : (a :: kept).Pairwise fun a b => order b a = .lt) :
    (List.eraseRepsBy.loop (· == ·) a rest kept).Pairwise fun a b => order a b = .lt := by
  induction rest generalizing a kept with
  | nil => exact List.pairwise_reverse.mpr hkept
  | cons b rest ih =>
    obtain ⟨hle, htail⟩ := List.pairwise_cons.mp hrest
    rw [List.eraseRepsBy.loop]
    cases heq : a == b with
    | true =>
      obtain rfl := eq_of_beq heq
      exact ih htail hkept
    | false =>
      have hlt : order a b = .lt := by
        have hne : order a b ≠ .eq := fun h => ne_of_beq_false heq (Std.LawfulEqCmp.eq_of_compare h)
        have hab := hle b List.mem_cons_self
        cases hcase : order a b with
        | lt => rfl
        | eq => exact absurd hcase hne
        | gt => rw [hcase] at hab; cases hab
      refine ih htail (List.pairwise_cons.mpr ⟨?_, hkept⟩)
      intro c hc
      rcases List.mem_cons.mp hc with rfl | hc
      · exact hlt
      · exact Std.TransCmp.lt_trans ((List.pairwise_cons.mp hkept).1 c hc) hlt

theorem mem_eraseReps_sort : l ∈ (sort ls).eraseReps ↔ l ∈ ls := by
  rw [← @mem_sort ls]
  cases sort ls with
  | nil => exact Iff.rfl
  | cons a rest => exact mem_eraseRepsLoop.trans (by simp)

theorem pairwise_eraseReps_sort (ls : List Location) :
    (sort ls).eraseReps.Pairwise fun a b => order a b = .lt := by
  have hsorted := pairwise_sort ls
  generalize sort ls = sorted at hsorted ⊢
  cases sorted with
  | nil => exact .nil
  | cons a rest => exact pairwise_eraseRepsLoop hsorted (List.pairwise_singleton _ a)

/-- Sorted and without repetitions, a list has each of its locations once. -/
theorem nodup_eraseReps_sort (ls : List Location) : (sort ls).eraseReps.Nodup := by
  refine (pairwise_eraseReps_sort ls).imp ?_
  rintro a b hlt rfl
  rw [@Std.ReflCmp.compare_self _ order] at hlt
  cases hlt

end Location

end JsonPath
