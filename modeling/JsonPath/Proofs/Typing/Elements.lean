import JsonPath.Proofs.Syntax.Numbering
import JsonPath.Typing.Elements

/-!
Every element of a query has a type. The typed elements are the elements of the query's tree in
their order, and since no two have the same number each is found by its own.
-/

namespace JsonPath

namespace Typed

@[simp] theorem element_token (t : DataType) (token : Token) :
    (Typed.token t token).element = .token token := rfl

@[simp] theorem element_expression (s : TypeScope) (e : Expr) :
    (Typed.expression s e).element = .expression e := rfl

/-- The elements that have types. -/
def elements (typed : List Typed) : List Element := typed.map (·.element)

@[simp] theorem elements_nil : elements [] = [] := rfl

@[simp] theorem elements_cons (e : Typed) (rest : List Typed) :
    elements (e :: rest) = e.element :: elements rest := rfl

@[simp] theorem elements_append (a b : List Typed) :
    elements (a ++ b) = elements a ++ elements b := List.map_append

@[simp] theorem elements_map_token (t : DataType) (tokens : List Token) :
    elements (tokens.map (Typed.token t)) = tokens.map Element.token := by
  rw [elements, List.map_map]
  rfl

end Typed

namespace Tree

@[simp] theorem elements_leaf (t : Token) : (leaf t).elements = [.token t] := elements_node _ _

@[simp] theorem flatMap_elements_leaf? (t : Option Token) :
    (leaf? t).flatMap elements = t.toList.map Element.token := by
  cases t with
  | none => rfl
  | some token => simp [leaf?]

end Tree

@[simp] theorem Bound.flatMap_elements_leaf? (b : Option Bound) :
    (Bound.leaf? b).flatMap Tree.elements = (Entry.tokens (Bound.entries b)).map .token := by
  cases b <;> simp [Bound.leaf?, Bound.entries]

@[simp] theorem StepPart.flatMap_elements_leaves (p : Option StepPart) :
    (StepPart.leaves p).flatMap Tree.elements = (Entry.tokens (StepPart.entries p)).map .token := by
  cases p <;> simp [StepPart.leaves, StepPart.entries]

mutual

theorem Path.elements_typed (s : TypeScope) : (p : Path) →
    Typed.elements (p.typed s) = p.parts.flatMap Tree.elements
  | .root _ _ => by simp [Path.typed, Path.parts]
  | .step before segment => by
    simp [Path.typed, Path.parts, before.elements_typed, segment.elements_typed]

theorem Segment.elements_typed (s : TypeScope) (incoming : DataType) : (segment : Segment) →
    Typed.elements (segment.typed s incoming) = segment.tree.elements
  | .shorthand _ _ selector => by
    simp [Segment.typed, Segment.tree, Tree.elements_node, selector.elements_typed]
  | .bracketed _ dots _ selectors _ => by
    cases dots <;>
      simp [Segment.typed, Segment.tree, Tree.elements_node, selectors.elements_typed]

theorem Selectors.elements_typed (s : TypeScope) (incoming whole : DataType) :
    (selectors : Selectors) →
    Typed.elements (selectors.typed s incoming whole) = selectors.trees.flatMap Tree.elements
  | .last selector => by simp [Selectors.typed, Selectors.trees, selector.elements_typed]
  | .more selector _ rest => by
    simp [Selectors.typed, Selectors.trees, selector.elements_typed, rest.elements_typed]

theorem Selector.elements_typed (s : TypeScope) (incoming : DataType) : (selector : Selector) →
    Typed.elements (selector.typed s incoming) = selector.tree.elements
  | .name .. | .index .. | .wildcard .. | .missing .. | .slice .. => by
    simp [Selector.typed, Selector.tree, Tree.elements_node, Tree.tokens]
  | .filter _ _ test => by
    simp [Selector.typed, Selector.tree, Tree.elements_node, test.elements_typed]

theorem Expr.elements_typed (s : TypeScope) : (e : Expr) →
    Typed.elements (e.typed s) = e.tree.elements
  | .or _ first _ rest | .and _ first _ rest => by
    simp [Expr.typed, Expr.tree, Tree.elements_node, first.elements_typed, rest.elements_typed]
  | .not _ _ inner | .parens _ _ inner _ => by
    simp [Expr.typed, Expr.tree, Tree.elements_node, inner.elements_typed]
  | .comparison _ left _ _ right => by
    simp [Expr.typed, Expr.tree, Tree.elements_node, left.elements_typed, right.elements_typed]
  | .path _ p => by simp [Expr.typed, Expr.tree, Tree.elements_node, p.elements_typed]
  | .call _ _ _ arguments _ => by
    simp [Expr.typed, Expr.tree, Tree.elements_node, arguments.elements_typed]
  | .literal .. | .missing .. => by simp [Expr.typed, Expr.tree, Tree.elements_node]

theorem Operands.elements_typed (s : TypeScope) (whole : DataType) : (os : Operands) →
    Typed.elements (os.typed s whole) = os.trees.flatMap Tree.elements
  | .last operand => by simp [Operands.typed, Operands.trees, operand.elements_typed]
  | .more operand _ rest => by
    simp [Operands.typed, Operands.trees, operand.elements_typed, rest.elements_typed]

theorem Arguments.elements_typed (s : TypeScope) (whole : DataType) : (as : Arguments) →
    Typed.elements (as.typed s whole) = as.trees.flatMap Tree.elements
  | .none => by simp [Arguments.typed, Arguments.trees]
  | .some operands => by simp [Arguments.typed, Arguments.trees, operands.elements_typed]

end

namespace Query

/-- The typed elements of a query are those of its tree, in their order. -/
theorem elements_typed (q : Query) (environment : Environment) (root : DataType) :
    Typed.elements (q.typed environment root) = q.tree.elements := by
  simp [typed, tree, Path.tree, Tree.elements_node, q.path.elements_typed]

/-- In a query without repeated numbers the type of an element is found by its number. -/
theorem typeOf?_eq_some {q : Query} {environment : Environment} {root : DataType} {e : Typed}
    (hids : q.tree.ids.Nodup) (h : e ∈ q.typed environment root) :
    q.typeOf? environment root e.element.id = some e.type := by
  have hnodup : ((q.typed environment root).map fun e => e.element.id).Nodup := by
    rw [Tree.ids, ← q.elements_typed environment root, Typed.elements, List.map_map] at hids
    exact hids
  unfold typeOf?
  generalize q.typed environment root = typed at h hnodup
  induction typed with
  | nil => cases h
  | cons first rest ih =>
    obtain ⟨hfirst, hrest⟩ := List.nodup_cons.mp hnodup
    rw [List.find?_cons]
    split
    · rename_i heq
      rcases List.mem_cons.mp h with rfl | h
      · rfl
      · rw [beq_iff_eq] at heq
        exact absurd (List.mem_map.mpr ⟨e, h, heq.symm⟩) hfirst
    · rename_i hne
      rcases List.mem_cons.mp h with rfl | h
      · simp at hne
      · exact ih h hrest

end Query

end JsonPath
