import JsonPath.Evaluation.Event
import JsonPath.Evaluation.Result
import JsonPath.Evaluation.Slice
import JsonPath.Syntax.Extent
import JsonPath.Syntax.Parser

/-!
Evaluation of queries. A path starts at the root of the document or at the current node of
a filter and goes on, segment by segment, from each node found before. Operators stop at
the first operand that decides, and a call that cannot be made gives an empty result and a
warning.
-/

namespace JsonPath

mutual

/-- What `select` gives for a value, then for everything inside it, each value before what
it contains and the children in order. -/
def descend (select : Node → Traced (List Node)) (l : Location) :
    Json → Traced (List Node)
  | .array items => do
    let here ← select ⟨.array items, l⟩
    let below ← descendItems select l 0 items
    return here ++ below
  | .object members => do
    let here ← select ⟨.object members, l⟩
    let below ← descendMembers select l members
    return here ++ below
  | v => select ⟨v, l⟩

def descendItems (select : Node → Traced (List Node)) (l : Location) (i : Nat) :
    List Json → Traced (List Node)
  | [] => pure []
  | item :: rest => do
    let first ← descend select (l ++ [.index i]) item
    let others ← descendItems select l (i + 1) rest
    return first ++ others

def descendMembers (select : Node → Traced (List Node)) (l : Location) :
    List (String × Json) → Traced (List Node)
  | [] => pure []
  | (name, value) :: rest => do
    let first ← descend select (l ++ [.name name]) value
    let others ← descendMembers select l rest
    return first ++ others

end

/-- What `select` gives for a node, and for a descendant segment for everything below. -/
def reach (descendant : Bool) (select : Node → Traced (List Node)) (n : Node) :
    Traced (List Node) :=
  if descendant then descend select n.location n.value else select n

/-- The node at a position of an array, counted from either end. -/
def Node.item? (n : Node) (index : Int) : Option Node := do
  let items ← n.value.asArray?
  let i ← position? items.length index
  n.child? (.index i)

/-- The nodes that a slice selects from an array. -/
def Node.slice (n : Node) (start stop step : Option Int) : List Node :=
  match n.value with
  | .array items =>
    (Slice.positions items.length start stop step).filterMap fun i => n.child? (.index i)
  | _ => []

/-- The values that an evaluation refers to besides the current node. -/
structure Scope where
  environment : Environment
  document : Json

/-- The node at which a path starts. Without a current node that is the root. -/
def Path.seed (scope : Scope) (current : Option Node) (p : Path) : Node :=
  match current with
  | some n => if p.isRelative then n else .root scope.document
  | none => .root scope.document

/-- A warning about a call, located at the argument that it is about, if there is one. -/
def warn (function : String) (arguments : List Range) (call : Range) (trouble : CallTrouble) :
    Traced Unit :=
  let about : CallWarning := ⟨function, trouble, call⟩
  let range := (about.argument?.bind fun i => arguments[i]?).getD call
  .event (.warning ⟨function, trouble, range⟩)

/-- The result of a call with arguments of the right kinds. -/
def Function.call (f : Function) (name : String) (ranges : List Range) (range : Range)
    (arguments : List Result) : Traced Result :=
  let (result, remarks) := f.run arguments
  do
    remarks.forM fun remark => warn name ranges range (.remark remark)
    return result

mutual

/-- The nodes that the segments of a path lead to. -/
def Path.follow (scope : Scope) (seed : Node) : Path → Traced (List Node)
  | .root _ _ => pure [seed]
  | .step before segment => do
    let nodes ← before.follow scope seed
    Traced.collect (fun n => segment.select scope n) nodes

def Segment.select (scope : Scope) (input : Node) : Segment → Traced (List Node)
  | .shorthand id dots selector =>
    .note (.segment id input)
      (reach (decide (dots.kind = .doubleDot)) (fun n => selector.select scope n) input)
  | .bracketed id dots _ selectors _ =>
    .note (.segment id input)
      (reach dots.isSome (fun n => selectors.select scope n) input)

def Selectors.select (scope : Scope) (input : Node) : Selectors → Traced (List Node)
  | .last selector => selector.select scope input
  | .more selector _ rest => do
    let first ← selector.select scope input
    let others ← rest.select scope input
    return first ++ others

def Selector.select (scope : Scope) (input : Node) : Selector → Traced (List Node)
  | .name id _ value => .note (.selector id input) (pure (input.child? (.name value)).toList)
  | .index id _ value => .note (.selector id input) (pure (input.item? value).toList)
  | .slice id start _ stop step =>
    .note (.selector id input) (pure (input.slice (start.map (·.value)) (stop.map (·.value))
      ((step.bind (·.bound)).map (·.value))))
  | .wildcard id _ => .note (.selector id input) (pure input.children)
  | .filter id _ test =>
    .note (.selector id input)
      (Traced.filter (fun n => do return (← test.evaluate scope n).holds) input.children)
  | .missing id _ => .note (.selector id input) (pure [])

def Expr.evaluate (scope : Scope) (current : Node) : Expr → Traced Result
  | .or id first _ rest => .note (.expression id current) do
    if (← first.evaluate scope current).holds then return .logical true
    return .logical (← rest.some scope current)
  | .and id first _ rest => .note (.expression id current) do
    if (← first.evaluate scope current).holds then
      return .logical (← rest.all scope current)
    return .logical false
  | .not id _ inner => .note (.expression id current) do
    return .logical !(← inner.evaluate scope current).holds
  | .comparison id left _ op right => .note (.expression id current) do
    let a ← left.evaluate scope current
    let b ← right.evaluate scope current
    return .logical (a.compare op b)
  | .path id p => .note (.expression id current) do
    return .nodes (← .note (.query p.id) (p.follow scope (p.seed scope (some current))))
  | .call id name _ arguments closing => .note (.expression id current) <|
    let range := name.range.cover closing.range
    let operands := arguments.toList
    let ranges := operands.map Expr.range
    let trouble := warn name.text ranges range
    match scope.environment.function? name.text with
    | none => do
      trouble (.fault .unknown)
      return .nothing
    | some f =>
      if operands.length ≠ f.parameters.length then do
        trouble (.fault (.count f.parameters.length operands.length))
        return .empty f.returns
      else do
        match ← arguments.evaluate scope current trouble f.parameters with
        | some results => f.call name.text ranges range results
        | none => return .empty f.returns
  | .literal id _ value => .note (.expression id current) (pure (.value value))
  | .parens id _ inner _ => .note (.expression id current) (inner.evaluate scope current)
  | .missing id _ => .note (.expression id current) (pure .nothing)

/-- Whether one of the operands holds, up to the first that does. -/
def Operands.some (scope : Scope) (current : Node) : Operands → Traced Bool
  | .last operand => do return (← operand.evaluate scope current).holds
  | .more operand _ rest => do
    if (← operand.evaluate scope current).holds then return true
    rest.some scope current

/-- Whether all operands hold, up to the first that does not. -/
def Operands.all (scope : Scope) (current : Node) : Operands → Traced Bool
  | .last operand => do return (← operand.evaluate scope current).holds
  | .more operand _ rest => do
    if (← operand.evaluate scope current).holds then rest.all scope current
    else return false

/-- The results of arguments, each as one of its parameter's kind, up to the first that
cannot be taken for one. -/
def Operands.evaluate (scope : Scope) (current : Node) (trouble : CallTrouble → Traced Unit)
    (i : Nat) : Operands → List Kind → Traced (Option (List Result))
  | .last operand, kind :: _ => do
    match (← operand.evaluate scope current).coerce? kind with
    | .some result => return .some [result]
    | .none =>
      trouble (.mismatch i kind)
      return .none
  | .more operand _ rest, kind :: kinds => do
    match (← operand.evaluate scope current).coerce? kind with
    | .some result =>
      return (← rest.evaluate scope current trouble (i + 1) kinds).map (result :: ·)
    | .none =>
      trouble (.mismatch i kind)
      return .none
  | _, [] => pure (.some [])

def Arguments.evaluate (scope : Scope) (current : Node) (trouble : CallTrouble → Traced Unit) :
    Arguments → List Kind → Traced (Option (List Result))
  | .none, _ => pure (.some [])
  | .some operands, kinds => operands.evaluate scope current trouble 0 kinds

end

/-- The nodes that a path selects. -/
def Path.select (scope : Scope) (current : Option Node) (p : Path) : Traced (List Node) :=
  .note (.query p.id) (p.follow scope (p.seed scope current))

namespace Query

/-- The nodes that a query selects from a document, with all events on the way. -/
def trace (q : Query) (environment : Environment) (document : Json) : Traced (List Node) :=
  q.path.select ⟨environment, document⟩ none

/-- The nodes that a query selects from a document. -/
def find (q : Query) (environment : Environment) (document : Json) : List Node :=
  (q.trace environment document).result

end Query

end JsonPath
