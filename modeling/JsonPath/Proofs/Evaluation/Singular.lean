import JsonPath.Evaluation.Select
import JsonPath.Proofs.Syntax.WellFormed

/-!
Paths that select at most one value. If every step of such a path is a name or an index from
the front, then the path selects what is at the location made of these steps.
-/

namespace JsonPath

namespace Traced

variable {α β : Type}

@[simp] theorem pure_result (a : α) : (pure a : Traced α).result = a := rfl

@[simp] theorem bind_result (t : Traced α) (f : α → Traced β) :
    (t >>= f).result = (f t.result).result := rfl

@[simp] theorem note_result (describe : α → Event) (t : Traced α) :
    (note describe t).result = t.result := rfl

theorem collect_length_le {select : Node → Traced (List Node)} {nodes : List Node}
    (hselect : ∀ n, (select n).result.length ≤ 1) (hnodes : nodes.length ≤ 1) :
    (collect select nodes).result.length ≤ 1 := by
  match nodes, hnodes with
  | [], _ => exact Nat.zero_le 1
  | [n], _ =>
    have hn := hselect n
    simpa [collect] using hn

end Traced

namespace Selector

theorem select_length_le {s : Selector} (h : s.isSingular = true) (scope : Scope) (n : Node) :
    (s.select scope n).result.length ≤ 1 := by
  cases s with
  | name | index =>
    rw [Selector.select]
    simp only [Traced.note_result, Traced.pure_result]
    exact Option.length_toList_le
  | slice | wildcard | filter | missing => cases h

/-- A name or an index from the front selects what is one step below. -/
theorem select_of_step? {s : Selector} {step : Step} (h : s.step? = some step) (scope : Scope)
    (n : Node) : (s.select scope n).result = (n.child? step).toList := by
  cases s with
  | name id token value =>
    cases h
    rw [Selector.select]
    rfl
  | index id token value =>
    simp only [step?] at h
    split at h
    · rename_i hvalue
      cases h
      rw [Selector.select, Traced.note_result, Traced.pure_result, Node.item?]
      cases hv : n.value with
      | array items => simp [Json.asArray?, position?, hvalue]
      | null | bool | number | string | object => simp [Json.asArray?, Node.child?, Json.child?, hv]
    · cases h
  | slice | wildcard | filter | missing => cases h

end Selector

namespace Segment

/-- A singular segment does what its only selector does. -/
theorem select_result {s : Segment} {t : Selector} (h : s.single? = some t) (scope : Scope)
    (n : Node) : (s.select scope n).result = (t.select scope n).result := by
  obtain ⟨hdescendant, hselectors, -⟩ := (s.single?_eq_some_iff t).mp h
  cases s with
  | shorthand id dots selector =>
    obtain rfl : selector = t := by simpa [selectors] using hselectors
    rw [Segment.select, Traced.note_result,
      show decide (dots.kind = .doubleDot) = false from hdescendant]
    rfl
  | bracketed id dots opening selectors closing =>
    cases selectors with
    | last selector =>
      obtain rfl : selector = t := by simpa [Segment.selectors, Selectors.toList] using hselectors
      rw [Segment.select, Traced.note_result, show dots.isSome = false from hdescendant]
      rfl
    | more selector comma rest =>
      simp [Segment.selectors, Selectors.toList, Selectors.toList_ne_nil] at hselectors

theorem select_length_le {s : Segment} (h : s.isSingular = true) (scope : Scope) (n : Node) :
    (s.select scope n).result.length ≤ 1 := by
  obtain ⟨t, hsingle⟩ := Option.isSome_iff_exists.mp h
  obtain ⟨-, -, ht⟩ := (s.single?_eq_some_iff t).mp hsingle
  rw [select_result hsingle]
  exact Selector.select_length_le ht scope n

end Segment

namespace Path

theorem follow_length_le (scope : Scope) (seed : Node) : (p : Path) → p.isSingular = true →
    (p.follow scope seed).result.length ≤ 1
  | .root _ _, _ => by
    rw [Path.follow]
    exact Nat.le_refl 1
  | .step before segment, h => by
    obtain ⟨hbefore, hsegment⟩ := Bool.and_eq_true_iff.mp h
    rw [Path.follow]
    refine Traced.collect_length_le ?_ (follow_length_le scope seed before hbefore)
    intro n
    exact segment.select_length_le hsegment scope n

/-- A path with a location leads to the one node that is there, if there is one. -/
theorem follow_node {l : Location} (scope : Scope) (seed : Node) : (p : Path) →
    p.location? = some l → (p.follow scope seed).result =
      ((seed.value.at? l).map fun v => ⟨v, seed.location ++ l⟩).toList
  | .root _ _, h => by
    cases h
    rw [Path.follow, List.append_nil]
    rfl
  | .step before segment, h => by
    rw [location?] at h
    obtain ⟨start, hstart, h⟩ := Option.bind_eq_some_iff.mp h
    obtain ⟨selector, hsingle, h⟩ := Option.bind_eq_some_iff.mp h
    obtain ⟨step, hstep, h⟩ := Option.bind_eq_some_iff.mp h
    cases h
    have hselect (n : Node) : (segment.select scope n).result = (n.child? step).toList :=
      (Segment.select_result hsingle scope n).trans (Selector.select_of_step? hstep scope n)
    rw [Path.follow, Traced.bind_result, Json.at?_append, follow_node scope seed before hstart]
    cases seed.value.at? start with
    | none => rfl
    | some v =>
      have hcollect (n : Node) : (Traced.collect (fun n => segment.select scope n) [n]).result =
          (n.child? step).toList := by
        simp [Traced.collect, hselect]
      refine (hcollect _).trans ?_
      simp only [Node.child?, Json.at?, Option.bind_some, List.append_assoc]
      cases v.child? step <;> rfl

/-- A path with a location selects what is there. -/
theorem follow_location {l : Location} (scope : Scope) (seed : Node) (p : Path)
    (h : p.location? = some l) :
    (p.follow scope seed).result.map (·.value) = (seed.value.at? l).toList := by
  rw [follow_node scope seed p h]
  cases seed.value.at? l <;> rfl

/-- Only singular paths have a location. -/
theorem isSingular_of_location? {l : Location} : (p : Path) → p.location? = some l →
    p.isSingular = true
  | .root _ _, _ => rfl
  | .step before segment, h => by
    obtain ⟨start, hstart, h⟩ := Option.bind_eq_some_iff.mp h
    obtain ⟨selector, hsingle, -⟩ := Option.bind_eq_some_iff.mp h
    have hsegment : segment.isSingular = true := Option.isSome_iff_exists.mpr ⟨selector, hsingle⟩
    exact Bool.and_eq_true_iff.mpr ⟨isSingular_of_location? before hstart, hsegment⟩

/-- A singular path selects at most one node, wherever it starts. A path with a location is singular
and selects the one node that is there, seen from its start, or none if nothing is there. -/
theorem select_singular (scope : Scope) (current : Option Node) (p : Path) :
    let start := p.seed scope current
    let found := (p.select scope current).result
    (p.isSingular = true → found.length ≤ 1) ∧
    ∀ l, p.location? = some l → p.isSingular = true ∧
      (∀ v, start.value.at? l = some v → found = [⟨v, start.location ++ l⟩]) ∧
      (start.value.at? l = none → found = []) := by
  intro start found
  have hfound : found = (p.follow scope start).result := rfl
  rw [hfound]
  refine ⟨p.follow_length_le scope start, ?_⟩
  intro l hl
  rw [p.follow_node scope start hl]
  refine ⟨p.isSingular_of_location? hl, ?_, ?_⟩
  · intro v hv
    rw [hv]
    rfl
  · intro hnone
    rw [hnone]
    rfl

end Path

end JsonPath
