import JsonPath.Proofs.DataType.Definite
import JsonPath.Proofs.Typing.Combination

/-!
Narrowing by tests for existence. Where each test asks for a location whose elements are near, and
no part of the type describes everything or the absence of a value, a combination of such tests
divides the candidates exactly: either outcome narrows the type to the candidates that give it. The
type is then narrowed to the empty type just if there are none.
-/

namespace JsonPath

variable {S : NumberSet} {s : TypeScope} {t : DataType}

section Locations

/-- The selector is a name, or an index that gets a type of its own in every array type. -/
def Selector.isNear : Selector → Bool
  | .name _ _ _ => true
  | .index _ _ value => 0 ≤ value && value ≤ 63
  | _ => false

/-- The segment leads to one child, by a name or by a near index. -/
def Segment.isNear (segment : Segment) : Bool := segment.single?.any Selector.isNear

/-- A relative path whose segments all lead to one child, as a test. -/
def Expr.IsNearTest : Expr → Prop
  | .path _ p => p.isRelative = true ∧ ∀ segment ∈ p.segments, segment.isNear = true
  | _ => False

theorem Selector.exists_step_of_isNear {selector : Selector} (h : selector.isNear = true) :
    ∃ step, selector.step? = some step ∧ DataType.Near [step] := by
  cases selector with
  | name _ _ value =>
    refine ⟨.name value, rfl, ?_⟩
    intro i hi
    cases List.mem_singleton.mp hi
  | index _ _ value =>
    rw [isNear, Bool.and_eq_true, decide_eq_true_eq, decide_eq_true_eq] at h
    refine ⟨.index value.toNat, if_pos h.1, ?_⟩
    intro i hi
    cases List.mem_singleton.mp hi
    unfold DataType.growth
    omega
  | slice | wildcard | filter | missing => cases h

theorem Path.exists_location_of_isNear : (p : Path) →
    (∀ segment ∈ p.segments, segment.isNear = true) →
    ∃ l, p.location? = some l ∧ DataType.Near l
  | .root _ _, _ => ⟨[], rfl, fun i hi => by cases hi⟩
  | .step before segment, h => by
    obtain ⟨hbefore, hsegment⟩ := List.forall_mem_append.mp h
    obtain ⟨l, hl, hnear⟩ := exists_location_of_isNear before hbefore
    have hone : segment.single?.any Selector.isNear = true :=
      hsegment segment (List.mem_singleton_self segment)
    obtain ⟨selector, hselector, hone⟩ := (Option.any_eq_true _ _).mp hone
    obtain ⟨step, hstep, hnearStep⟩ := selector.exists_step_of_isNear hone
    refine ⟨l ++ [step], ?_, ?_⟩
    · rw [location?, hl, hselector]
      exact congrArg (Option.bind · _) hstep
    · intro i hi
      exact (List.mem_append.mp hi).elim (hnear i) (hnearStep i)

end Locations

section Tests

theorem definite_narrowTogether {all : Bool} {first : DataType} {others : List DataType}
    (hfirst : first.Definite S) (hothers : ∀ u ∈ others, u.Definite S) :
    (narrowTogether all first others).Definite S := by
  unfold narrowTogether
  split
  · exact hfirst.foldl_intersect hothers
  · exact (DataType.definite_rebuilt S).union (List.forall_mem_cons.mpr ⟨hfirst, hothers⟩)

theorem definite_narrowExistence (ht : t.Definite S) (l : Location) (b : Bool) :
    (narrowExistence l b t).Definite S := by
  cases b with
  | true => exact ht.presentAt l
  | false => exact ht.absentAt l

/-- A test for existence at a near location leaves just the candidates for which it comes out as
assumed. -/
theorem describes_narrowExistence_iff {l : Location} {v : Json} (ht : t.Definite S)
    (hl : DataType.Near l) (hv : v.Over S) (b : Bool) :
    (narrowExistence l b t).Describes (some v) ↔
      t.Describes (some v) ∧ (v.at? l).isSome = b := by
  cases b with
  | true => exact ht.describes_presentAt_iff hl hv
  | false => exact ht.describes_absentAt_iff hl hv

end Tests

namespace Expr

/-- The expression divides the candidates: for each outcome, it narrows their type to just those
that give it. -/
structure Divides (S : NumberSet) (s : TypeScope) (t : DataType) (e : Expr) : Prop where
  definite : ∀ b, (e.narrow s b t).Definite S
  describes_iff : ∀ b scope (current : Node), current.value.Over S →
    ((e.narrow s b t).Describes (some current.value) ↔
      t.Describes (some current.value) ∧ (e.result scope current).holds = b)

theorem IsNearTest.divides {e : Expr} (h : e.IsNearTest) (ht : t.Definite S) :
    e.Divides S s t := by
  cases e with
  | path id p =>
    obtain ⟨hrelative, hsegments⟩ := h
    obtain ⟨l, hl, hnear⟩ := p.exists_location_of_isNear hsegments
    have hlocation : p.relativeLocation? = some l := (if_pos hrelative).trans hl
    have hnarrow (b : Bool) : (Expr.path id p).narrow s b t = narrowExistence l b t := by
      rw [Expr.narrow, hlocation]
    constructor
    · intro b
      rw [hnarrow]
      exact definite_narrowExistence ht l b
    · intro b scope current hcurrent
      rw [hnarrow, (result_path hlocation scope current).2]
      exact describes_narrowExistence_iff ht hnear hcurrent b
  | or | and | not | comparison | call | literal | parens | missing => exact h.elim

theorem Divides.not {id : Nat} {bang : Token} {inner : Expr} (h : inner.Divides S s t) :
    (not id bang inner).Divides S s t where
  definite b := h.definite !b
  describes_iff b scope current hcurrent := by
    have hinner := h.describes_iff (!b) scope current hcurrent
    rw [Expr.narrow, Expr.result, Result.holds, hinner, Bool.not_eq_eq_eq_not]

theorem Divides.parens {id : Nat} {opening closing : Token} {inner : Expr}
    (h : inner.Divides S s t) : (parens id opening inner closing).Divides S s t where
  definite b := h.definite b
  describes_iff b scope current hcurrent := by
    rw [Expr.narrow, Expr.result]
    exact h.describes_iff b scope current hcurrent

theorem Divides.joins {e first : Expr} {others : List Expr} {all : Bool → Bool}
    (he : e.Joins first others all) (h : ∀ o ∈ first :: others, o.Divides S s t) :
    e.Divides S s t := by
  obtain ⟨hfirst, hothers⟩ := List.forall_mem_cons.mp h
  have hdefinite (b : Bool) : ∀ u ∈ others.map fun o => o.narrow s b t, u.Definite S :=
    List.forall_mem_map.mpr fun o ho => (hothers o ho).definite b
  constructor
  · intro b
    rw [he.narrow]
    exact definite_narrowTogether (hfirst.definite b) (hdefinite b)
  · intro b scope current hcurrent
    have hoperand (o : Expr) (ho : o ∈ first :: others) :=
      (h o ho).describes_iff b scope current hcurrent
    rw [he.narrow, describes_narrowTogether_iff hcurrent (hfirst.definite b).1
      fun u hu => (hdefinite b u hu).1, he.holds_iff]
    refine (together_map_iff (f := fun o : Expr => o.narrow s b t)).trans ?_
    by_cases hall : all b = true
    · rw [if_pos hall, if_pos hall]
      constructor
      · intro hevery
        refine ⟨((hoperand first List.mem_cons_self).mp (hevery _ List.mem_cons_self)).1, ?_⟩
        exact fun o ho => ((hoperand o ho).mp (hevery o ho)).2
      · rintro ⟨hdescribes, hevery⟩ o ho
        exact (hoperand o ho).mpr ⟨hdescribes, hevery o ho⟩
    · rw [if_neg hall, if_neg hall]
      constructor
      · rintro ⟨o, ho, hkept⟩
        obtain ⟨hdescribes, hholds⟩ := (hoperand o ho).mp hkept
        exact ⟨hdescribes, o, ho, hholds⟩
      · rintro ⟨hdescribes, o, ho, hholds⟩
        exact ⟨o, ho, (hoperand o ho).mpr ⟨hdescribes, hholds⟩⟩

theorem Combines.divides {e : Expr} (he : e.Combines IsNearTest) (ht : t.Definite S) :
    e.Divides S s t := by
  refine he.of_joins (fun _ htest => htest.divides ht) ?_ ?_ ?_
  · exact fun _ _ _ hinner => hinner.not
  · exact fun _ _ _ _ hinner => hinner.parens
  · exact fun _ _ _ _ hjoins hoperands => .joins hjoins hoperands

/-- Narrowing by a combination of tests for existence leaves exactly the candidates for which it
comes out as assumed, and the empty type just if there are none. Where there are no numbers to take
for the candidates, zero is. -/
theorem describes_narrow_iff_of_near {e : Expr} (he : e.Combines IsNearTest) (ht : t.Built S)
    (hany : t.occurs DataType.isAny = false) (hnothing : t.occurs DataType.isNothing = false)
    (s : TypeScope) (b : Bool) :
    (∀ scope (current : Node), current.value.Over S →
      ((e.narrow s b t).Describes (some current.value) ↔
        t.Describes (some current.value) ∧ (e.evaluate scope current).result.holds = b)) ∧
    ¬ (e.narrow s b t).Describes none ∧
    ∀ scope, (e.narrow s b t).isNever = true ↔
      ¬ ∃ current : Node, current.value.Over S.orZero ∧ t.Describes (some current.value) ∧
        (e.evaluate scope current).result.holds = b := by
  have hle : ∀ n, S.Mem n → S.orZero.Mem n := fun _ => .inl
  have hdivides : e.Divides S s t := he.divides ⟨ht.normal, hany, hnothing⟩
  have hdividesZero : e.Divides S.orZero s t := he.divides ⟨ht.normal.mono hle, hany, hnothing⟩
  refine ⟨?_, (hdivides.definite b).not_describes_none, ?_⟩
  · intro scope current hcurrent
    rw [evaluate_result]
    exact hdivides.describes_iff b scope current hcurrent
  · intro scope
    obtain ⟨hnormal, -, hpresent⟩ := hdividesZero.definite b
    rw [hnormal.isNever_iff S.exists_mem_orZero hpresent, not_iff_not]
    constructor
    · rintro ⟨v, hv, hdescribes⟩
      have hcandidate := (hdividesZero.describes_iff b scope ⟨v, []⟩ hv).mp hdescribes
      rw [← evaluate_result] at hcandidate
      exact ⟨⟨v, []⟩, hv, hcandidate⟩
    · rintro ⟨current, hcurrent, hcandidate⟩
      rw [evaluate_result] at hcandidate
      exact ⟨current.value, hcurrent,
        (hdividesZero.describes_iff b scope current hcurrent).mpr hcandidate⟩

/-- The test `@.a && !(@.b || @.c[1])`. -/
def onlyA : Expr :=
  .and 0 (.path 0 (.leadingTo [.name "a"])) (.bare .and) (.last (.not 0 (.bare .not)
    (.parens 0 (.bare .leftParen) (.or 0 (.path 0 (.leadingTo [.name "b"])) (.bare .or)
      (.last (.path 0 (.leadingTo [.name "c", .index 1])))) (.bare .rightParen))))

/-- Objects with a number as `a` and an array of texts as `c`, both optional, and other texts. -/
def lettered : DataType :=
  .ofObject [("a", .ofPrimitive .number), ("c", .ofArray [] (.ofPrimitive .string) 0)]
    (.ofPrimitive .string) []

theorem describes_narrow_iff_of_near_onlyA :
    onlyA.Combines IsNearTest ∧ lettered.Built .whole ∧
      lettered.occurs DataType.isAny = false ∧ lettered.occurs DataType.isNothing = false ∧
      (onlyA.narrow ⟨.standard, .top, .top⟩ true lettered).Describes
        (some (.object [("a", .natural 1)])) ∧
      ¬ (onlyA.narrow ⟨.standard, .top, .top⟩ true lettered).Describes
        (some (.object [("a", .natural 1), ("b", .string "x")])) ∧
      (onlyA.narrow ⟨.standard, .top, .top⟩ false lettered).Describes
        (some (.object [("a", .natural 1), ("b", .string "x")])) ∧
      ¬ (onlyA.narrow ⟨.standard, .top, .top⟩ true lettered).isNever = true := by
  have hlettered : lettered.Built .whole :=
    .ofObject _ (List.forall_mem_cons.mpr ⟨.primitive _, List.forall_mem_singleton.mpr
      (.ofArray 0 (List.forall_mem_nil _) (.primitive _))⟩) (.primitive _)
  have htests : onlyA.Combines IsNearTest :=
    .and (.test ⟨rfl, by decide⟩) (List.forall_mem_singleton.mpr (.not (.parens
      (.or (.test ⟨rfl, by decide⟩) (List.forall_mem_singleton.mpr (.test ⟨rfl, by decide⟩))))))
  have hone : (Json.natural 1).Over .whole := .number ⟨1, by decide, rfl⟩
  have ha : (Json.object [("a", .natural 1)]).Over .whole :=
    .object (by decide) (List.forall_mem_singleton.mpr hone)
  have hab : (Json.object [("a", .natural 1), ("b", .string "x")]).Over .whole :=
    .object (by decide)
      (List.forall_mem_cons.mpr ⟨hone, List.forall_mem_singleton.mpr (.string "x")⟩)
  have hdescribesA := hlettered.normal.describes_of_ofJson ha (by decide)
  have hdescribesB := hlettered.normal.describes_of_ofJson hab (by decide)
  have hany : lettered.occurs DataType.isAny = false := by decide
  have hnothing : lettered.occurs DataType.isNothing = false := by decide
  have hnarrow := describes_narrow_iff_of_near htests hlettered hany hnothing
    ⟨.standard, .top, .top⟩
  have htrue : (onlyA.evaluate ⟨.standard, .null⟩
      ⟨.object [("a", .natural 1)], []⟩).result.holds = true := by decide
  have hfalse : (onlyA.evaluate ⟨.standard, .null⟩
      ⟨.object [("a", .natural 1), ("b", .string "x")], []⟩).result.holds = false := by decide
  refine ⟨htests, hlettered, hany, hnothing, ?_, ?_, ?_, ?_⟩
  · exact ((hnarrow true).1 ⟨.standard, .null⟩ ⟨_, []⟩ ha).mpr ⟨hdescribesA, htrue⟩
  · intro hkept
    have hholds := (((hnarrow true).1 ⟨.standard, .null⟩ ⟨_, []⟩ hab).mp hkept).2
    exact Bool.false_ne_true (hfalse.symm.trans hholds)
  · exact ((hnarrow false).1 ⟨.standard, .null⟩ ⟨_, []⟩ hab).mpr ⟨hdescribesB, hfalse⟩
  · intro hnever
    exact ((hnarrow true).2.2 ⟨.standard, .null⟩).mp hnever
      ⟨⟨_, []⟩, ha.mono fun _ => .inl, hdescribesA, htrue⟩

end Expr

end JsonPath
