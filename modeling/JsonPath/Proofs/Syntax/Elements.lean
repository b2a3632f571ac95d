import JsonPath.Syntax.Tree

/-!
The elements of a tree: its root and the elements of the trees below. A property of whole
subtrees that passes from every element to its children is shared by all elements of a tree.
-/

namespace JsonPath.Tree

mutual

theorem map_visit (depth depth' : Nat) : (t : Tree) →
    (t.visit (fun _ => false) depth).map (·.2) = (t.visit (fun _ => false) depth').map (·.2)
  | node e cs => by
    rw [visit, visit]
    simpa using map_visitAll (depth + 1) (depth' + 1) cs

theorem map_visitAll (depth depth' : Nat) : (ts : List Tree) →
    (visitAll (fun _ => false) depth ts).map (·.2) =
      (visitAll (fun _ => false) depth' ts).map (·.2)
  | [] => rfl
  | t :: rest => by
    rw [visitAll, visitAll, List.map_append, List.map_append, map_visit depth depth' t,
      map_visitAll depth depth' rest]

end

theorem map_visitAll_eq (depth : Nat) (ts : List Tree) :
    (visitAll (fun _ => false) depth ts).map (·.2) = ts.flatMap elements := by
  induction ts with
  | nil => rfl
  | cons t rest ih =>
    rw [visitAll, List.map_append, map_visit depth 0 t, ih]
    rfl

theorem elements_node (e : Element) (cs : List Tree) :
    (node e cs).elements = e :: cs.flatMap elements := by
  rw [elements, visit, List.map_cons]
  simp only [Bool.false_eq_true, if_false, map_visitAll_eq]

theorem mem_elements_node {x e : Element} {cs : List Tree} :
    x ∈ (node e cs).elements ↔ x = e ∨ ∃ c ∈ cs, x ∈ c.elements := by
  rw [elements_node, List.mem_cons, List.mem_flatMap]

/-- Every element of the tree has the property. -/
def All (P : Element → Prop) (t : Tree) : Prop := ∀ x ∈ t.elements, P x

variable {P : Element → Prop}

instance [DecidablePred P] (t : Tree) : Decidable (t.All P) :=
  inferInstanceAs (Decidable (∀ x ∈ t.elements, P x))

theorem All.node {e : Element} {cs : List Tree} (he : P e) (hcs : ∀ c ∈ cs, c.All P) :
    (node e cs).All P := by
  intro x hx
  rcases mem_elements_node.mp hx with rfl | ⟨c, hc, hx⟩
  · exact he
  · exact hcs c hc x hx

theorem all_node {e : Element} {cs : List Tree} :
    (node e cs).All P ↔ P e ∧ ∀ c ∈ cs, c.All P := by
  refine ⟨fun h => ⟨h e (mem_elements_node.mpr (.inl rfl)), fun c hc x hx => ?_⟩,
    fun h => .node h.1 h.2⟩
  exact h x (mem_elements_node.mpr (.inr ⟨c, hc, hx⟩))

theorem All.leaf {t : Token} (h : P (.token t)) : (leaf t).All P :=
  .node h (by intro c hc; cases hc)

theorem All.leaf? {t : Option Token} (h : ∀ t, P (.token t)) : ∀ c ∈ Tree.leaf? t, c.All P := by
  intro c hc
  cases t with
  | none => cases hc
  | some token =>
    rw [List.mem_singleton.mp hc]
    exact .leaf (h token)

end JsonPath.Tree
