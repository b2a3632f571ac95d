import JsonPath.DataType.Step
import JsonPath.Environment
import JsonPath.Syntax.Basic

/-!
The types of what the elements of a query produce, given the type of the document. A filter
narrows the type of its candidates: each test that compares or asks for a value at a
location below the candidate tells something about the type of what is there.
-/

namespace JsonPath

/-- What types depend on: the functions, the type of the document, and the type of the
current values. -/
structure TypeScope where
  environment : Environment
  root : DataType
  current : DataType

namespace DataType

/-- The type without the absence of a value. -/
def present (t : DataType) : DataType := t.subtract nothing

/-- The elements of the arrays of a type. -/
def elements (t : DataType) : DataType :=
  t.mapMembers fun
    | any _ => top
    | array front rest minimum n => (array front rest minimum n).memberChildren
    | _ => bottom

end DataType

/-- What a path starts with. -/
def Path.seedType (s : TypeScope) (p : Path) : DataType :=
  if p.isRelative then s.current else s.root

/-- The location below the current value that a relative path leads to, if it is one. -/
def Path.relativeLocation? (p : Path) : Option Location :=
  if p.isRelative then p.location? else none

/-- The location below the current value that an expression stands for, if it is one. -/
def Expr.relativeLocation? : Expr → Option Location
  | .path _ p => p.relativeLocation?
  | _ => none

/-- The values that a segment is applied to, given those it comes after. -/
def Segment.incoming (before : DataType) (s : Segment) : DataType :=
  if s.isDescendant then .unionOf [before, before.descendants] else before

/-- The candidates whose comparison with values of type `other` at a location gives
`assume`. An order holds only of what is there. -/
def narrowComparison (l : Location) (op : Comparison) (other : DataType) (assume : Bool)
    (t : DataType) : DataType :=
  let equality (equal : Bool) : DataType :=
    if equal then
      let narrowed := DataType.changeAt (·.intersect other) l t
      if other.mayBeNothing then narrowed else DataType.presentAt l narrowed
    else if other.isSingleton then DataType.changeAt (·.subtract other) l t
    else t
  match op with
  | .equal => equality assume
  | .notEqual => equality !assume
  | _ => if assume then DataType.presentAt l t else t

/-- The candidates for which a path leads somewhere, or does not. -/
def narrowExistence (l : Location) (assume : Bool) (t : DataType) : DataType :=
  if assume then DataType.presentAt l t
  else DataType.changeAt (·.intersect DataType.nothing) l t

/-- The candidates that some or all of several tests leave. -/
def narrowTogether (all : Bool) (first : DataType) (others : List DataType) : DataType :=
  if all then others.foldl DataType.intersect first else .unionOf (first :: others)

mutual

/-- The values that a path selects. -/
def Path.type (s : TypeScope) : Path → DataType
  | .root id identifier => (Path.root id identifier).seedType s
  | .step before segment => segment.type s (segment.incoming (before.type s))

/-- The values that a segment selects from those of a type. -/
def Segment.type (s : TypeScope) (incoming : DataType) : Segment → DataType
  | .shorthand _ _ selector => .unionOf [selector.type s incoming]
  | .bracketed _ _ _ selectors _ => .unionOf (selectors.types s incoming)

def Selectors.types (s : TypeScope) (incoming : DataType) : Selectors → List DataType
  | .last selector => [selector.type s incoming]
  | .more selector _ rest => selector.type s incoming :: rest.types s incoming

/-- The values that a selector selects from those of a type. -/
def Selector.type (s : TypeScope) (incoming : DataType) : Selector → DataType
  | .name _ _ value => (incoming.atStep (.name value)).present
  | .index _ _ value =>
    if 0 ≤ value then (incoming.atStep (.index value.toNat)).present else incoming.elements
  | .slice _ _ _ _ _ => incoming.elements
  | .wildcard _ _ => incoming.children
  | .filter _ _ test =>
    test.narrow { s with current := incoming.children } true incoming.children
  | .missing _ _ => .bottom

/-- The results of an expression. -/
def Expr.type (s : TypeScope) : Expr → DataType
  | .literal _ _ value => .ofJson value
  | .path _ p => p.type s
  | .call _ name _ _ _ => ((s.environment.function? name.text).map (·.type)).getD .top
  | .missing _ _ => .bottom
  | _ => .ofPrimitive .boolean

/-- The candidates of a type for which an expression, as a test, gives `assume`. -/
def Expr.narrow (s : TypeScope) (assume : Bool) : Expr → DataType → DataType
  | .and _ first _ rest => fun t =>
    narrowTogether assume (first.narrow s assume t) (rest.narrowEach s assume t)
  | .or _ first _ rest => fun t =>
    narrowTogether (!assume) (first.narrow s assume t) (rest.narrowEach s assume t)
  | .not _ _ inner => inner.narrow s !assume
  | .parens _ _ inner _ => inner.narrow s assume
  | .comparison _ left _ op right =>
    match left.relativeLocation?, right.relativeLocation? with
    | some l, _ => narrowComparison l op (right.type s) assume
    | none, some l => narrowComparison l op.mirror (left.type s) assume
    | none, none => id
  | .path _ p =>
    match p.relativeLocation? with
    | some l => narrowExistence l assume
    | none => id
  | _ => id

/-- The candidates that each of several tests leaves by itself. -/
def Operands.narrowEach (s : TypeScope) (assume : Bool) :
    Operands → DataType → List DataType
  | .last operand => fun t => [operand.narrow s assume t]
  | .more operand _ rest => fun t =>
    operand.narrow s assume t :: rest.narrowEach s assume t

end

end JsonPath
