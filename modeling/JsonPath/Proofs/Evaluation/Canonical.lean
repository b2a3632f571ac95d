import JsonPath.Proofs.Evaluation.Singular
import JsonPath.Proofs.Syntax.Canonical

/-!
What a query selects is said by its canonical form. The two differ in what they report on the way,
where elements are numbered and calls are located, and never in a result.
-/

namespace JsonPath

namespace Traced

theorem collect_congr {select select' : Node → Traced (List Node)}
    (h : ∀ n, (select n).result = (select' n).result) (nodes : List Node) :
    (collect select nodes).result = (collect select' nodes).result := by
  induction nodes with
  | nil => rfl
  | cons n rest ih =>
    simp only [collect, bind_result, pure_result]
    rw [h n, ih]

theorem filter_congr {test test' : Node → Traced Bool}
    (h : ∀ n, (test n).result = (test' n).result) (nodes : List Node) :
    (filter test nodes).result = (filter test' nodes).result := by
  induction nodes with
  | nil => rfl
  | cons n rest ih =>
    simp only [filter, bind_result, pure_result]
    rw [h n, ih]

end Traced

section Reach

variable {select select' : Node → Traced (List Node)}

mutual

theorem descend_congr (hselect : ∀ n, (select n).result = (select' n).result) (l : Location) :
    (v : Json) →
    (descend select l v).result = (descend select' l v).result
  | .array items => by
    simp only [descend, Traced.bind_result, Traced.pure_result]
    rw [hselect, descendItems_congr hselect l 0 items]
  | .object members => by
    simp only [descend, Traced.bind_result, Traced.pure_result]
    rw [hselect, descendMembers_congr hselect l members]
  | .null | .bool _ | .number _ | .string _ => by
    simp only [descend]
    exact hselect _

theorem descendItems_congr (hselect : ∀ n, (select n).result = (select' n).result)
    (l : Location) (i : Nat) : (items : List Json) →
    (descendItems select l i items).result = (descendItems select' l i items).result
  | [] => rfl
  | item :: rest => by
    simp only [descendItems, Traced.bind_result, Traced.pure_result]
    rw [descend_congr hselect _ item, descendItems_congr hselect l (i + 1) rest]

theorem descendMembers_congr (hselect : ∀ n, (select n).result = (select' n).result)
    (l : Location) : (members : List (String × Json)) →
    (descendMembers select l members).result = (descendMembers select' l members).result
  | [] => rfl
  | (name, value) :: rest => by
    simp only [descendMembers, Traced.bind_result, Traced.pure_result]
    rw [descend_congr hselect _ value, descendMembers_congr hselect l rest]

end

theorem reach_congr (hselect : ∀ n, (select n).result = (select' n).result) (descendant : Bool)
    (n : Node) :
    (reach descendant select n).result = (reach descendant select' n).result := by
  cases descendant with
  | false => exact hselect n
  | true => exact descend_congr hselect n.location n.value

end Reach

mutual

theorem Path.follow_canonical (scope : Scope) (seed : Node) : (p : Path) →
    (p.canonical.follow scope seed).result = (p.follow scope seed).result
  | .root _ _ => by
    rw [Path.canonical, Path.follow, Path.follow]
  | .step before segment => by
    rw [Path.canonical, Path.follow, Path.follow]
    simp only [Traced.bind_result]
    rw [before.follow_canonical scope seed]
    exact Traced.collect_congr (fun n => segment.select_canonical scope n) _

theorem Segment.select_canonical (scope : Scope) (input : Node) : (s : Segment) →
    (s.canonical.select scope input).result = (s.select scope input).result
  | .shorthand _ dots selector => by
    rw [Segment.canonical, Segment.select, Segment.select]
    simp only [Traced.note_result, Token.isSome_dots, Selectors.select]
    exact reach_congr (fun n => selector.select_canonical scope n) _ input
  | .bracketed _ dots _ selectors _ => by
    rw [Segment.canonical, Segment.select, Segment.select]
    simp only [Traced.note_result, Token.isSome_dots]
    exact reach_congr (fun n => selectors.select_canonical scope n) _ input

theorem Selectors.select_canonical (scope : Scope) (input : Node) : (ss : Selectors) →
    (ss.canonical.select scope input).result = (ss.select scope input).result
  | .last selector => by
    rw [Selectors.canonical, Selectors.select, Selectors.select]
    exact selector.select_canonical scope input
  | .more selector _ rest => by
    rw [Selectors.canonical, Selectors.select, Selectors.select]
    simp only [Traced.bind_result, Traced.pure_result]
    rw [selector.select_canonical scope input, rest.select_canonical scope input]

theorem Selector.select_canonical (scope : Scope) (input : Node) : (s : Selector) →
    (s.canonical.select scope input).result = (s.select scope input).result
  | .name _ _ _ => by
    rw [Selector.canonical, Selector.select, Selector.select]
    rfl
  | .index _ _ _ => by
    rw [Selector.canonical, Selector.select, Selector.select]
    rfl
  | .slice _ start _ stop step => by
    rw [Selector.canonical, Selector.select, Selector.select]
    cases start <;> cases stop <;> rcases step with _ | ⟨_, _ | _⟩ <;> rfl
  | .wildcard _ _ => by
    rw [Selector.canonical, Selector.select, Selector.select]
    rfl
  | .filter _ _ test => by
    rw [Selector.canonical, Selector.select, Selector.select]
    simp only [Traced.note_result]
    refine Traced.filter_congr (fun n => ?_) _
    simp only [Traced.bind_result, Traced.pure_result]
    rw [test.evaluate_canonical scope n]
  | .missing _ _ => by
    rw [Selector.canonical, Selector.select, Selector.select]
    rfl

theorem Expr.evaluate_canonical (scope : Scope) (current : Node) : (e : Expr) →
    (e.canonical.evaluate scope current).result = (e.evaluate scope current).result
  | .or _ first _ rest => by
    rw [Expr.canonical, Expr.evaluate, Expr.evaluate]
    simp only [Traced.note_result, Traced.bind_result]
    rw [first.evaluate_canonical scope current]
    split
    · rfl
    · simp only [Traced.bind_result, Traced.pure_result]
      rw [rest.some_canonical scope current]
  | .and _ first _ rest => by
    rw [Expr.canonical, Expr.evaluate, Expr.evaluate]
    simp only [Traced.note_result, Traced.bind_result]
    rw [first.evaluate_canonical scope current]
    split
    · simp only [Traced.bind_result, Traced.pure_result]
      rw [rest.all_canonical scope current]
    · rfl
  | .not _ _ inner => by
    rw [Expr.canonical, Expr.evaluate, Expr.evaluate]
    simp only [Traced.note_result, Traced.bind_result, Traced.pure_result]
    rw [inner.evaluate_canonical scope current]
  | .comparison _ left _ _ right => by
    rw [Expr.canonical, Expr.evaluate, Expr.evaluate]
    simp only [Traced.note_result, Traced.bind_result, Traced.pure_result]
    rw [left.evaluate_canonical scope current, right.evaluate_canonical scope current]
  | .path _ p => by
    have hseed : p.canonical.seed scope (some current) = p.seed scope (some current) := by
      rw [Path.seed, Path.seed, p.isRelative_canonical]
    rw [Expr.canonical, Expr.evaluate, Expr.evaluate]
    simp only [Traced.note_result, Traced.bind_result, Traced.pure_result]
    rw [hseed, p.follow_canonical scope _]
  | .call _ name _ arguments closing => by
    rw [Expr.canonical, Expr.evaluate, Expr.evaluate]
    simp only [Traced.note_result, Token.text_mark, arguments.length_canonical]
    cases scope.environment.function? name.text with
    | none => rfl
    | some f =>
      dsimp only
      split
      · rfl
      · simp only [Traced.bind_result]
        rw [arguments.evaluate_canonical scope current _
          (warn name.text (arguments.toList.map Expr.range) (name.range.cover closing.range))]
        generalize (arguments.evaluate scope current _ f.parameters).result = results
        cases results <;> rfl
  | .literal _ _ _ => by
    rw [Expr.canonical, Expr.evaluate, Expr.evaluate]
    rfl
  | .parens _ _ inner _ => by
    rw [Expr.canonical, Expr.evaluate, Expr.evaluate]
    exact inner.evaluate_canonical scope current
  | .missing _ _ => by
    rw [Expr.canonical, Expr.evaluate, Expr.evaluate]
    rfl

theorem Operands.some_canonical (scope : Scope) (current : Node) : (os : Operands) →
    (os.canonical.some scope current).result = (os.some scope current).result
  | .last operand => by
    rw [Operands.canonical, Operands.some, Operands.some]
    simp only [Traced.bind_result, Traced.pure_result]
    rw [operand.evaluate_canonical scope current]
  | .more operand _ rest => by
    rw [Operands.canonical, Operands.some, Operands.some]
    simp only [Traced.bind_result]
    rw [operand.evaluate_canonical scope current]
    split
    · rfl
    · exact rest.some_canonical scope current

theorem Operands.all_canonical (scope : Scope) (current : Node) : (os : Operands) →
    (os.canonical.all scope current).result = (os.all scope current).result
  | .last operand => by
    rw [Operands.canonical, Operands.all, Operands.all]
    simp only [Traced.bind_result, Traced.pure_result]
    rw [operand.evaluate_canonical scope current]
  | .more operand _ rest => by
    rw [Operands.canonical, Operands.all, Operands.all]
    simp only [Traced.bind_result]
    rw [operand.evaluate_canonical scope current]
    split
    · exact rest.all_canonical scope current
    · rfl

theorem Operands.evaluate_canonical (scope : Scope) (current : Node)
    (trouble trouble' : CallTrouble → Traced Unit) (i : Nat) : (os : Operands) →
    (kinds : List Kind) → (os.canonical.evaluate scope current trouble i kinds).result =
      (os.evaluate scope current trouble' i kinds).result
  | .last operand, kind :: _ => by
    rw [Operands.canonical, Operands.evaluate, Operands.evaluate]
    simp only [Traced.bind_result]
    rw [operand.evaluate_canonical scope current]
    split <;> rfl
  | .more operand _ rest, kind :: kinds => by
    rw [Operands.canonical, Operands.evaluate, Operands.evaluate]
    simp only [Traced.bind_result]
    rw [operand.evaluate_canonical scope current]
    split
    · simp only [Traced.bind_result, Traced.pure_result]
      rw [rest.evaluate_canonical scope current trouble trouble' (i + 1) kinds]
    · rfl
  | .last _, [] | .more _ _ _, [] => by
    rw [Operands.canonical, Operands.evaluate, Operands.evaluate]

theorem Arguments.evaluate_canonical (scope : Scope) (current : Node)
    (trouble trouble' : CallTrouble → Traced Unit) : (as : Arguments) → (kinds : List Kind) →
    (as.canonical.evaluate scope current trouble kinds).result =
      (as.evaluate scope current trouble' kinds).result
  | .none, _ => by
    rw [Arguments.canonical, Arguments.evaluate, Arguments.evaluate]
  | .some operands, kinds => by
    rw [Arguments.canonical, Arguments.evaluate, Arguments.evaluate]
    exact operands.evaluate_canonical scope current trouble trouble' 0 kinds

end

namespace Query

/-- Queries of one canonical form select the same nodes. -/
theorem find_eq_of_canonical {q q' : Query} (h : q.path.canonical = q'.path.canonical)
    (env : Environment) (document : Json) : q.find env document = q'.find env document := by
  have hfind (q : Query) : q.find env document =
      (q.path.canonical.follow ⟨env, document⟩ (.root document)).result := by
    rw [Path.follow_canonical]
    rfl
  rw [hfind q, hfind q', h]

end Query

end JsonPath
