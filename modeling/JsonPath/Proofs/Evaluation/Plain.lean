import JsonPath.Proofs.Evaluation.Singular

/-!
Evaluation without events. A segment selects from its input or, if it descends, from everything
inside its input, and a path goes on from all nodes that were found before. What a query selects
does not depend on what is reported on the way.
-/

namespace JsonPath

mutual

/-- The nodes at a location and below, each before those inside it and children in order. -/
def Node.within (l : Location) : Json → List Node
  | .array items => ⟨.array items, l⟩ :: withinItems l 0 items
  | .object members => ⟨.object members, l⟩ :: withinMembers l members
  | v => [⟨v, l⟩]

def Node.withinItems (l : Location) (i : Nat) : List Json → List Node
  | [] => []
  | item :: rest => within (l ++ [.index i]) item ++ withinItems l (i + 1) rest

def Node.withinMembers (l : Location) : List (String × Json) → List Node
  | [] => []
  | (name, value) :: rest => within (l ++ [.name name]) value ++ withinMembers l rest

end

/-- The nodes from which a segment selects, given its input. -/
def Node.visited (descendant : Bool) (n : Node) : List Node :=
  if descendant then within n.location n.value else [n]

namespace Traced

variable {select : Node → Traced (List Node)}

theorem append_eq (s t : Traced (List Node)) :
    (do return (← s) ++ (← t) : Traced (List Node)) =
      ⟨s.result ++ t.result, s.events ++ t.events⟩ := by
  change (⟨_, s.events ++ (t.events ++ [])⟩ : Traced (List Node)) = _
  rw [List.append_nil]
  rfl

theorem collect_eq (select : Node → Traced (List Node)) (nodes : List Node) :
    collect select nodes = ⟨nodes.flatMap fun n => (select n).result,
      nodes.flatMap fun n => (select n).events⟩ := by
  induction nodes with
  | nil => rfl
  | cons n rest ih => rw [collect, append_eq, ih, List.flatMap_cons, List.flatMap_cons]

theorem collect_result (select : Node → Traced (List Node)) (nodes : List Node) :
    (collect select nodes).result = nodes.flatMap fun n => (select n).result :=
  congrArg Traced.result (collect_eq select nodes)

theorem collect_events (select : Node → Traced (List Node)) (nodes : List Node) :
    (collect select nodes).events = nodes.flatMap fun n => (select n).events :=
  congrArg Traced.events (collect_eq select nodes)

theorem collect_append (select : Node → Traced (List Node)) (first second : List Node) :
    collect select (first ++ second) =
      do return (← collect select first) ++ (← collect select second) := by
  rw [append_eq, collect_eq, collect_eq, collect_eq, List.flatMap_append, List.flatMap_append]

theorem filter_eq (test : Node → Traced Bool) (nodes : List Node) :
    filter test nodes = ⟨nodes.filter fun n => (test n).result,
      nodes.flatMap fun n => (test n).events⟩ := by
  induction nodes with
  | nil => rfl
  | cons n rest ih =>
    rw [filter, ih]
    change (⟨_, (test n).events ++ (_ ++ [])⟩ : Traced (List Node)) = _
    rw [List.append_nil, List.filter_cons]
    rfl

end Traced

section Reach

variable (select : Node → Traced (List Node))

mutual

theorem descend_eq (l : Location) : (v : Json) →
    descend select l v = Traced.collect select (Node.within l v)
  | .array items => by
    rw [descend, Node.within, Traced.collect, descendItems_eq l 0 items]
  | .object members => by
    rw [descend, Node.within, Traced.collect, descendMembers_eq l members]
  | .null | .bool _ | .number _ | .string _ => by
    simp only [descend, Node.within, Traced.collect_eq]
    simp

theorem descendItems_eq (l : Location) (i : Nat) : (items : List Json) →
    descendItems select l i items = Traced.collect select (Node.withinItems l i items)
  | [] => rfl
  | item :: rest => by
    rw [descendItems, Node.withinItems, Traced.collect_append, descend_eq _ item,
      descendItems_eq l (i + 1) rest]

theorem descendMembers_eq (l : Location) : (members : List (String × Json)) →
    descendMembers select l members = Traced.collect select (Node.withinMembers l members)
  | [] => rfl
  | (name, value) :: rest => by
    rw [descendMembers, Node.withinMembers, Traced.collect_append, descend_eq _ value,
      descendMembers_eq l rest]

end

/-- A segment selects from the nodes that it visits, one after the other. -/
theorem reach_eq (descendant : Bool) (n : Node) :
    reach descendant select n = Traced.collect select (n.visited descendant) := by
  cases descendant with
  | true => exact descend_eq select n.location n.value
  | false =>
    rw [Traced.collect_eq]
    simp [reach, Node.visited]

end Reach

mutual

/-- The nodes that the segments of a path lead to. -/
def Path.nodes (scope : Scope) (seed : Node) : Path → List Node
  | .root _ _ => [seed]
  | .step before segment => (before.nodes scope seed).flatMap fun n => segment.nodes scope n

def Segment.nodes (scope : Scope) (input : Node) : Segment → List Node
  | .shorthand _ dots selector =>
    (input.visited (decide (dots.kind = .doubleDot))).flatMap fun n => selector.nodes scope n
  | .bracketed _ dots _ selectors _ =>
    (input.visited dots.isSome).flatMap fun n => selectors.nodes scope n

def Selectors.nodes (scope : Scope) (input : Node) : Selectors → List Node
  | .last selector => selector.nodes scope input
  | .more selector _ rest => selector.nodes scope input ++ rest.nodes scope input

def Selector.nodes (scope : Scope) (input : Node) : Selector → List Node
  | .name _ _ value => (input.child? (.name value)).toList
  | .index _ _ value => (input.item? value).toList
  | .slice _ start _ stop step => input.slice (start.map (·.value)) (stop.map (·.value))
      ((step.bind (·.bound)).map (·.value))
  | .wildcard _ _ => input.children
  | .filter _ _ test => input.children.filter fun n => (test.result scope n).holds
  | .missing _ _ => []

/-- The result of an expression for the current node. -/
def Expr.result (scope : Scope) (current : Node) : Expr → Result
  | .or _ first _ rest =>
    .logical ((first.result scope current).holds || rest.anyHolds scope current)
  | .and _ first _ rest =>
    .logical ((first.result scope current).holds && rest.allHold scope current)
  | .not _ _ inner => .logical !(inner.result scope current).holds
  | .comparison _ left _ op right =>
    .logical ((left.result scope current).compare op (right.result scope current))
  | .path _ p => .nodes (p.nodes scope (p.seed scope (some current)))
  | .call _ name _ arguments _ =>
    match scope.environment.function? name.text with
    | none => .nothing
    | some f =>
      if arguments.toList.length ≠ f.parameters.length then .empty f.returns
      else ((arguments.results scope current f.parameters).map fun rs => (f.run rs).1).getD
        (.empty f.returns)
  | .literal _ _ value => .value value
  | .parens _ _ inner _ => inner.result scope current
  | .missing _ _ => .nothing

def Operands.anyHolds (scope : Scope) (current : Node) : Operands → Bool
  | .last operand => (operand.result scope current).holds
  | .more operand _ rest =>
    (operand.result scope current).holds || rest.anyHolds scope current

def Operands.allHold (scope : Scope) (current : Node) : Operands → Bool
  | .last operand => (operand.result scope current).holds
  | .more operand _ rest =>
    (operand.result scope current).holds && rest.allHold scope current

/-- The results of arguments, each as one of its parameter's kind, if they can be taken for
these. -/
def Operands.results (scope : Scope) (current : Node) :
    Operands → List Kind → Option (List Result)
  | .last operand, kind :: _ => ((operand.result scope current).coerce? kind).map ([·])
  | .more operand _ rest, kind :: kinds =>
    ((operand.result scope current).coerce? kind).bind fun result =>
      (rest.results scope current kinds).map (result :: ·)
  | _, [] => some []

def Arguments.results (scope : Scope) (current : Node) :
    Arguments → List Kind → Option (List Result)
  | .none, _ => some []
  | .some operands, kinds => operands.results scope current kinds

end

/-- The nodes that a query selects from a document. -/
def Query.nodes (q : Query) (environment : Environment) (document : Json) : List Node :=
  q.path.nodes ⟨environment, document⟩ (.root document)

mutual

theorem Path.follow_result (scope : Scope) (seed : Node) : (p : Path) →
    (p.follow scope seed).result = p.nodes scope seed
  | .root _ _ => by
    rw [Path.follow, Path.nodes]
    rfl
  | .step before segment => by
    rw [Path.follow, Path.nodes, Traced.bind_result, Traced.collect_result,
      before.follow_result scope seed]
    exact congrArg (List.flatMap · _) (funext fun n => segment.select_nodes scope n)

theorem Segment.select_nodes (scope : Scope) (input : Node) : (s : Segment) →
    (s.select scope input).result = s.nodes scope input
  | .shorthand _ _ selector => by
    rw [Segment.select, Segment.nodes, Traced.note_result, reach_eq, Traced.collect_result]
    exact congrArg (List.flatMap · _) (funext fun n => selector.select_result scope n)
  | .bracketed _ _ _ selectors _ => by
    rw [Segment.select, Segment.nodes, Traced.note_result, reach_eq, Traced.collect_result]
    exact congrArg (List.flatMap · _) (funext fun n => selectors.select_result scope n)

theorem Selectors.select_result (scope : Scope) (input : Node) : (ss : Selectors) →
    (ss.select scope input).result = ss.nodes scope input
  | .last selector => by
    rw [Selectors.select, Selectors.nodes, selector.select_result scope input]
  | .more selector _ rest => by
    rw [Selectors.select, Selectors.nodes, Traced.append_eq, selector.select_result scope input,
      rest.select_result scope input]

theorem Selector.select_result (scope : Scope) (input : Node) : (s : Selector) →
    (s.select scope input).result = s.nodes scope input
  | .name .. | .index .. | .slice .. | .wildcard .. | .missing .. => by
    rw [Selector.select, Selector.nodes]
    rfl
  | .filter _ _ test => by
    rw [Selector.select, Selector.nodes, Traced.note_result, Traced.filter_eq]
    refine congrArg (List.filter · _) (funext fun n => ?_)
    rw [Traced.bind_result, Traced.pure_result, test.evaluate_result scope n]

theorem Expr.evaluate_result (scope : Scope) (current : Node) : (e : Expr) →
    (e.evaluate scope current).result = e.result scope current
  | .or _ first _ rest => by
    rw [Expr.evaluate, Expr.result, Traced.note_result, Traced.bind_result,
      first.evaluate_result scope current]
    cases (first.result scope current).holds with
    | true => rfl
    | false =>
      exact congrArg Result.logical (rest.some_result scope current)
  | .and _ first _ rest => by
    rw [Expr.evaluate, Expr.result, Traced.note_result, Traced.bind_result,
      first.evaluate_result scope current]
    cases (first.result scope current).holds with
    | true => exact congrArg Result.logical (rest.all_result scope current)
    | false => rfl
  | .not _ _ inner => by
    rw [Expr.evaluate, Expr.result, Traced.note_result, Traced.bind_result, Traced.pure_result,
      inner.evaluate_result scope current]
  | .comparison _ left _ op right => by
    rw [Expr.evaluate, Expr.result, Traced.note_result, Traced.bind_result, Traced.bind_result,
      Traced.pure_result, left.evaluate_result scope current, right.evaluate_result scope current]
  | .path _ p => by
    rw [Expr.evaluate, Expr.result, Traced.note_result, Traced.bind_result, Traced.pure_result,
      Traced.note_result, p.follow_result]
  | .call _ name _ arguments _ => by
    rw [Expr.evaluate, Expr.result, Traced.note_result]
    cases scope.environment.function? name.text with
    | none => rfl
    | some f =>
      dsimp only
      split
      · rfl
      · rw [Traced.bind_result, arguments.evaluate_result scope current]
        cases arguments.results scope current f.parameters <;> rfl
  | .literal .. | .missing .. => by
    rw [Expr.evaluate, Expr.result]
    rfl
  | .parens _ _ inner _ => by
    rw [Expr.evaluate, Expr.result, Traced.note_result, inner.evaluate_result scope current]

theorem Operands.some_result (scope : Scope) (current : Node) : (os : Operands) →
    (os.some scope current).result = os.anyHolds scope current
  | .last operand => by
    rw [Operands.some, Operands.anyHolds, Traced.bind_result, Traced.pure_result,
      operand.evaluate_result scope current]
  | .more operand _ rest => by
    rw [Operands.some, Operands.anyHolds, Traced.bind_result,
      operand.evaluate_result scope current]
    cases (operand.result scope current).holds with
    | true => rfl
    | false => exact rest.some_result scope current

theorem Operands.all_result (scope : Scope) (current : Node) : (os : Operands) →
    (os.all scope current).result = os.allHold scope current
  | .last operand => by
    rw [Operands.all, Operands.allHold, Traced.bind_result, Traced.pure_result,
      operand.evaluate_result scope current]
  | .more operand _ rest => by
    rw [Operands.all, Operands.allHold, Traced.bind_result,
      operand.evaluate_result scope current]
    cases (operand.result scope current).holds with
    | true => exact rest.all_result scope current
    | false => rfl

theorem Operands.evaluate_result (scope : Scope) (current : Node)
    (trouble : CallTrouble → Traced Unit) (i : Nat) : (os : Operands) → (kinds : List Kind) →
    (os.evaluate scope current trouble i kinds).result = os.results scope current kinds
  | .last operand, kind :: _ => by
    rw [Operands.evaluate, Operands.results, Traced.bind_result,
      operand.evaluate_result scope current]
    cases (operand.result scope current).coerce? kind <;> rfl
  | .more operand _ rest, kind :: kinds => by
    rw [Operands.evaluate, Operands.results, Traced.bind_result,
      operand.evaluate_result scope current]
    cases (operand.result scope current).coerce? kind with
    | none => rfl
    | some result => exact congrArg (Option.map _) (rest.evaluate_result scope current trouble _ kinds)
  | .last _, [] | .more .., [] => by
    rw [Operands.evaluate, Operands.results]
    rfl

theorem Arguments.evaluate_result (scope : Scope) (current : Node)
    (trouble : CallTrouble → Traced Unit) : (as : Arguments) → (kinds : List Kind) →
    (as.evaluate scope current trouble kinds).result = as.results scope current kinds
  | .none, _ => by
    rw [Arguments.evaluate, Arguments.results]
    rfl
  | .some operands, kinds => by
    rw [Arguments.evaluate, Arguments.results, operands.evaluate_result scope current trouble]

end

/-- A query selects the same nodes whether or not events are reported. -/
theorem Query.find_eq_nodes (q : Query) (environment : Environment) (document : Json) :
    q.find environment document = q.nodes environment document := by
  rw [find, trace, Path.select, Traced.note_result, Path.follow_result]
  rfl

end JsonPath
