import JsonPath.Location
import JsonPath.Syntax.Token

/-!
What filter expressions come to, and how it is converted: to a truth value for a test, to
a single value for a comparison, and to the kind that a function asks for. Any two results
may be compared: nothing equals nothing only, and only numbers and strings have an order.
-/

namespace JsonPath

/-- A value of a document with its location. -/
structure Node where
  value : Json
  location : Location

namespace Node

def root (document : Json) : Node := ⟨document, []⟩

/-- The nodes one step below. -/
def children (n : Node) : List Node :=
  n.value.children.map fun child => ⟨child.2, n.location ++ [child.1]⟩

/-- The node one step below, if there is one. -/
def child? (n : Node) (step : Step) : Option Node :=
  (n.value.child? step).map fun v => ⟨v, n.location ++ [step]⟩

end Node

/-- The kinds of results that functions take and give. -/
inductive Kind where
  | value
  | logical
  | nodes
deriving DecidableEq

def Kind.text : Kind → String
  | value => "ValueType"
  | logical => "LogicalType"
  | nodes => "NodesType"

inductive Result where
  | value (v : Json)
  | nothing
  | logical (b : Bool)
  | nodes (ns : List Node)

namespace Result

instance : Inhabited Result := ⟨.nothing⟩

/-- The result that stands for none of the kind. -/
def empty : Kind → Result
  | .value => nothing
  | .logical => logical false
  | .nodes => nodes []

/-- The result passes as a test. -/
def holds : Result → Bool
  | logical b => b
  | nodes ns => !ns.isEmpty
  | _ => false

/-- Nodes turned into the value of the only one, or into nothing. -/
def single : Result → Result
  | nodes [n] => value n.value
  | nodes _ => nothing
  | r => r

def value? : Result → Option Json
  | value v => some v
  | _ => none

/-- The result is one of the given kind; nothing is a value. -/
def hasKind : Kind → Result → Bool
  | .value, value _ => true
  | .value, nothing => true
  | .logical, logical _ => true
  | .nodes, nodes _ => true
  | _, _ => false

/-- The result as one of the given kind, if it can be taken for one. -/
def coerce? : Kind → Result → Option Result
  | .value, value v => some (value v)
  | .value, nothing => some nothing
  | .value, nodes ns => some (nodes ns).single
  | .logical, logical b => some (logical b)
  | .logical, nodes ns => some (logical !ns.isEmpty)
  | .nodes, nodes ns => some (nodes ns)
  | _, _ => none

def equal : Result → Result → Bool
  | nothing, nothing => true
  | value a, value b => a.same b
  | _, _ => false

/-- Numbers by value and strings by their characters; nothing else is less than anything. -/
def less (a b : Result) : Bool :=
  match a.value?, b.value? with
  | some (.number m), some (.number n) => m.order n == .lt
  | some (.string s), some (.string t) => decide (s < t)
  | _, _ => false

/-- The comparison of two results, after each list of nodes has become a value or nothing. -/
def compare (left : Result) (op : Comparison) (right : Result) : Bool :=
  let a := left.single
  let b := right.single
  match op with
  | .equal => equal a b
  | .notEqual => !equal a b
  | .less => less a b
  | .greater => less b a
  | .greaterOrEqual => less b a || equal a b
  | .lessOrEqual => less a b || equal a b

end Result

end JsonPath
