import JsonPath.Proofs.Typing.Combination

/-!
Comparisons by an order. An order holds of two values only, unless it includes equality, which holds
of two absences too. A true order between what a location leads to and something else therefore
tells that there is a value at the location, except when both are absent. Without that exception
narrowing by a true order, which makes the location present, keeps the candidate.
-/

namespace JsonPath

/-- The comparison asks for an order, and not only for equality or its opposite. -/
def Comparison.IsOrder (op : Comparison) : Prop := op ≠ .equal ∧ op ≠ .notEqual

/-- The comparison asks for an order or equality. -/
def Comparison.IsInclusive (op : Comparison) : Prop := op = .lessOrEqual ∨ op = .greaterOrEqual

namespace Result

variable {a b : Result} {op : Comparison}

theorem less_eq_true (h : less a b = true) : ∃ v w, a = value v ∧ b = value w := by
  cases a with
  | value v =>
    cases b with
    | value w => exact ⟨v, w, rfl, rfl⟩
    | nothing | logical | nodes => cases v <;> cases h
  | nothing | logical | nodes => cases h

/-- Two things in order are values, or both absent and equal. -/
theorem compare_eq_true (hop : op.IsOrder) (h : a.compare op b = true) :
    (∃ v w, a.single = value v ∧ b.single = value w) ∨
      op.IsInclusive ∧ a.single = nothing ∧ b.single = nothing := by
  have hless (hless : less a.single b.single = true) :
      ∃ v w, a.single = value v ∧ b.single = value w := less_eq_true hless
  have hgreater (hless : less b.single a.single = true) :
      ∃ v w, a.single = value v ∧ b.single = value w := by
    obtain ⟨w, v, hw, hv⟩ := less_eq_true hless
    exact ⟨v, w, hv, hw⟩
  have hequal (hequal : equal a.single b.single = true) (hinclusive : op.IsInclusive) :
      (∃ v w, a.single = value v ∧ b.single = value w) ∨
        op.IsInclusive ∧ a.single = nothing ∧ b.single = nothing := by
    rcases equal_eq_true hequal with ⟨ha, hb⟩ | ⟨v, w, ha, hb, -⟩
    · exact .inr ⟨hinclusive, ha, hb⟩
    · exact .inl ⟨v, w, ha, hb⟩
  cases op with
  | equal => exact absurd rfl hop.1
  | notEqual => exact absurd rfl hop.2
  | less => exact .inl (hless h)
  | greater => exact .inl (hgreater h)
  | lessOrEqual =>
    rcases Bool.or_eq_true_iff.mp h with h | h
    · exact .inl (hless h)
    · exact hequal h (.inl rfl)
  | greaterOrEqual =>
    rcases Bool.or_eq_true_iff.mp h with h | h
    · exact .inl (hgreater h)
    · exact hequal h (.inr rfl)

theorem value_of_ofValue? {found : Option Json} {v : Json} (h : ofValue? found = value v) :
    found = some v := by
  cases found with
  | none => cases h
  | some w => cases h; rfl

end Result

theorem Comparison.IsOrder.mirror {op : Comparison} (h : op.IsOrder) : op.mirror.IsOrder := by
  cases op with
  | equal => exact absurd rfl h.1
  | notEqual => exact absurd rfl h.2
  | less | lessOrEqual | greater | greaterOrEqual => exact ⟨nofun, nofun⟩

/-- Whatever it is compared with, a location in a true order is made present. -/
theorem narrowComparison_of_isOrder {op : Comparison} (h : op.IsOrder) (l : Location)
    (other t : DataType) : narrowComparison l op other true t = DataType.presentAt l t := by
  cases op with
  | equal => exact absurd rfl h.1
  | notEqual => exact absurd rfl h.2
  | less | lessOrEqual | greater | greaterOrEqual => rfl

namespace Expr

variable {id : Nat} {left right : Expr} {operator : Token} {op : Comparison} {l : Location}
  {s : TypeScope} {scope : Scope} {current : Node}

/-- An expression that stands for a location comes to what is there. -/
theorem single_of_relativeLocation? {e : Expr} (h : e.relativeLocation? = some l) (scope : Scope)
    (current : Node) :
    (e.evaluate scope current).result.single = .ofValue? (current.value.at? l) := by
  rw [evaluate_result]
  cases e with
  | path id p => exact (result_path h scope current).1
  | _ => cases h

/-- A true order leaves the candidates alone or makes a location present that one side stands
for. -/
theorem narrow_comparison_of_isOrder (h : op.IsOrder) (s : TypeScope) (t : DataType) :
    (comparison id left operator op right).narrow s true t = t ∨
      ∃ l, (left.relativeLocation? = some l ∨ right.relativeLocation? = some l) ∧
        (comparison id left operator op right).narrow s true t = DataType.presentAt l t := by
  rw [Expr.narrow]
  cases hleft : left.relativeLocation? with
  | some l => exact .inr ⟨l, .inl rfl, narrowComparison_of_isOrder h l _ t⟩
  | none =>
    cases hright : right.relativeLocation? with
    | some l => exact .inr ⟨l, .inr rfl, narrowComparison_of_isOrder h.mirror l _ t⟩
    | none => exact .inl rfl

/-- Between two values a true order keeps the candidate. -/
theorem describes_narrow_of_values {S : NumberSet} {t : DataType} (hop : op.IsOrder)
    (ht : t.Over S) (hcurrent : current.value.Over S) (h : t.Describes (some current.value))
    (hvalues : ∃ v w, (left.evaluate scope current).result.single = .value v ∧
      (right.evaluate scope current).result.single = .value w) :
    ((comparison id left operator op right).narrow s true t).Describes (some current.value) := by
  obtain ⟨v, w, hv, hw⟩ := hvalues
  rcases narrow_comparison_of_isOrder hop s t with heq | ⟨l, hl | hl, heq⟩
  · rw [heq]
    exact h
  · rw [single_of_relativeLocation? hl] at hv
    rw [heq]
    exact DataType.describes_presentAt l t ht hcurrent h (Result.value_of_ofValue? hv)
  · rw [single_of_relativeLocation? hl] at hw
    rw [heq]
    exact DataType.describes_presentAt l t ht hcurrent h (Result.value_of_ofValue? hw)

/-- Where one side of a true order stands for a location below the candidate, there is a value at
the location and the candidate is kept, or the order includes equality and both sides are absent. -/
theorem present_of_ordered (hop : op.IsOrder)
    (hl : left.relativeLocation? = some l ∨ right.relativeLocation? = some l)
    (htrue : ((comparison id left operator op right).evaluate scope current).result.holds = true) :
    ((current.value.at? l).isSome = true ∧
      ∀ (S : NumberSet) (s : TypeScope) (t : DataType), t.Over S → current.value.Over S →
        t.Describes (some current.value) →
        ((comparison id left operator op right).narrow s true t).Describes
          (some current.value)) ∨
    (op.IsInclusive ∧ (left.evaluate scope current).result.single = .nothing ∧
      (right.evaluate scope current).result.single = .nothing) := by
  have hcompare : (left.evaluate scope current).result.compare op
      (right.evaluate scope current).result = true := by
    rw [evaluate_result, Expr.result] at htrue
    rw [evaluate_result, evaluate_result]
    exact htrue
  rcases Result.compare_eq_true hop hcompare with hvalues | habsent
  · refine .inl ⟨?_, ?_⟩
    · obtain ⟨v, w, hv, hw⟩ := hvalues
      rcases hl with hl | hl
      · rw [single_of_relativeLocation? hl] at hv
        rw [Result.value_of_ofValue? hv]
        rfl
      · rw [single_of_relativeLocation? hl] at hw
        rw [Result.value_of_ofValue? hw]
        rfl
    · intro S s t ht hcurrent h
      exact describes_narrow_of_values hop ht hcurrent h hvalues
  · exact .inr habsent

/-- The test `length(@.name) >= @.size`. -/
def longEnough : Expr :=
  .comparison 0 (.call 0 ⟨0, .name, "length", "", ⟨0, 0⟩, false⟩ (.bare .leftParen)
      (.some (.last (.path 0 (.leadingTo [.name "name"])))) (.bare .rightParen))
    (.bare .greaterOrEqual) .greaterOrEqual (.path 0 (.leadingTo [.name "size"]))

/-- Objects in which neither the name nor the size has to be present. -/
def named : DataType :=
  .ofObject [("name", .ofPrimitive .string), ("size", .ofPrimitive .number)] .bottom []

/-- An object whose name is longer than its size. -/
def threeOfTwo : Json := .object [("name", .string "abc"), ("size", .natural 2)]

theorem present_of_ordered_length :
    Comparison.greaterOrEqual.IsOrder ∧
      (Expr.path 0 (.leadingTo [.name "size"])).relativeLocation? = some [.name "size"] ∧
      (longEnough.evaluate ⟨.standard, .null⟩ ⟨threeOfTwo, []⟩).result.holds = true ∧
      (threeOfTwo.at? [.name "size"]).isSome = true ∧
      (longEnough.narrow ⟨.standard, .top, .top⟩ true named).Describes (some threeOfTwo) := by
  have hop : Comparison.greaterOrEqual.IsOrder := ⟨nofun, nofun⟩
  have hsize : (Expr.path 0 (.leadingTo [.name "size"])).relativeLocation? =
      some [.name "size"] := rfl
  have htrue : (longEnough.evaluate ⟨.standard, .null⟩ ⟨threeOfTwo, []⟩).result.holds = true := by
    decide +kernel
  have hnormal : named.Normal .whole :=
    (DataType.Built.ofObject _ (DataType.forall_mem_pair (.primitive _) (.primitive _))
      .bottom).normal
  have hcurrent : threeOfTwo.Over .whole :=
    .object (by decide) (DataType.forall_mem_pair (.string _) (.number ⟨2, by decide, rfl⟩))
  have hdescribes := hnormal.describes_of_ofJson hcurrent (by decide)
  refine ⟨hop, hsize, htrue, ?_⟩
  rcases present_of_ordered hop (.inr hsize) htrue with ⟨hsome, hkept⟩ | ⟨-, -, habsent⟩
  · exact ⟨hsome, hkept _ _ _ hnormal.over hcurrent hdescribes⟩
  · rw [single_of_relativeLocation? hsize] at habsent
    cases habsent

/-- The test `@.a >= @.b`. -/
def notBelow : Expr :=
  .comparison 0 (.path 0 (.leadingTo [.name "a"])) (.bare .greaterOrEqual) .greaterOrEqual
    (.path 0 (.leadingTo [.name "b"]))

/-- The order is true of an object without members, in which the location leads nowhere, and
narrowing does not keep the object. -/
theorem not_present_absent_members :
    (notBelow.evaluate ⟨.standard, .null⟩ ⟨.object [], []⟩).result.holds = true ∧
      (DataType.ofJson (.object [])).Describes (some (.object [])) ∧
      (Json.object []).at? [.name "a"] = none ∧
      ¬ (notBelow.narrow ⟨.standard, .top, .top⟩ true (.ofJson (.object []))).Describes
        (some (.object [])) := by
  have hempty : (Json.object []).Over .whole := .object List.nodup_nil (List.forall_mem_nil _)
  refine ⟨by decide, ?_, rfl, ?_⟩
  · exact (DataType.describes_ofJson_iff hempty.wellFormed hempty.wellFormed).mpr rfl
  · intro h
    have hnever : (notBelow.narrow ⟨.standard, .top, .top⟩ true
        (.ofJson (.object []))).isNever = true := by decide
    rw [h.isNever] at hnever
    cases hnever

end Expr

end JsonPath
