import JsonPath.Syntax.Position

/-!
A table of a query's elements by number, each with the number of its parent. It is filled in one
traversal of the tree.
-/

namespace JsonPath

/-- Elements by their numbers, and the numbers of their parents. -/
structure Index where
  elements : List (Option Element)
  parents : List (Option Nat)

namespace Index

/-- Slots with one of them set, after as many new ones as that takes. -/
def put {α : Type} (slots : List (Option α)) (id : Nat) (x : Option α) : List (Option α) :=
  (slots ++ List.replicate (id + 1 - slots.length) none).set id x

def enter (index : Index) (e : Element) (parent : Option Nat) : Index where
  elements := put index.elements e.id (some e)
  parents := put index.parents e.id parent

mutual

/-- Enters an element that has this parent, and then what is below it. -/
def visit (parent : Option Nat) (index : Index) : Tree → Index
  | .node e cs => visitAll (some e.id) (index.enter e parent) cs

def visitAll (parent : Option Nat) (index : Index) : List Tree → Index
  | [] => index
  | c :: rest => visitAll parent (visit parent index c) rest

end

def get? (index : Index) (id : Nat) : Option Element := index.elements[id]?.join

def parent? (index : Index) (id : Nat) : Option Element :=
  index.parents[id]?.join.bind index.get?

/-- What is collected on the way up, from parent to parent, until there is none. -/
inductive Climb (index : Index) : (next : Option Element) → List Element → Prop
  | top : Climb index none []
  | up {e : Element} {above : List Element} (rest : Climb index (index.parent? e.id) above) :
      Climb index (some e) (e :: above)

/-- The elements around the one with a number are these, innermost first. -/
def Ancestors (index : Index) (id : Nat) (found : List Element) : Prop :=
  index.Climb (index.parent? id) found

end Index

/-- The table of a query, made with a slot for each number. -/
def Query.index (q : Query) : Index :=
  Index.visit none ⟨List.replicate q.elementCount none, List.replicate q.elementCount none⟩ q.tree

end JsonPath
