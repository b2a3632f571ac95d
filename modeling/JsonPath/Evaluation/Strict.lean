import JsonPath.Environment.Standard
import JsonPath.Evaluation.Select

/-!
Evaluation with every check on the way. Segments and selectors append to one list of nodes and
report what they have appended, slices count through an array and take its items, and functions
take their arguments without asking whether they are there. An index that is out of bounds, a sum
that does not fit and an argument of another kind end the evaluation with a breach.
-/

namespace JsonPath

/-- What must not happen during an evaluation. -/
inductive Breach where
  /-- A list is asked for an item that it does not have. -/
  | index (index : Int) (length : Nat)
  /-- A list is asked for what follows its end. -/
  | start (start length : Nat)
  /-- A number is put between bounds that are the wrong way round. -/
  | inverted (low high : Int)
  /-- A sum does not fit 128 bits. -/
  | overflow (n : Int)
  /-- A function is called with an argument that it does not take. -/
  | argument (function : String)

/-- The item of a list at an index. -/
def itemAt {α : Type} (items : List α) (index : Int) : Except Breach α :=
  if index < 0 then .error (.index index items.length)
  else
    match items[index.toNat]? with
    | some item => .ok item
    | none => .error (.index index items.length)

/-- The items of a list from a place on. -/
def itemsFrom {α : Type} (items : List α) (start : Nat) : Except Breach (List α) :=
  if start ≤ items.length then .ok (items.drop start) else .error (.start start items.length)

namespace Slice

/-- A number of 128 bits, for an array whose length fits 64. No array is longer. -/
def word (length : Nat) (n : Int) : Except Breach Int :=
  if length < 2 ^ 64 ∧ ¬(-(2 ^ 127) ≤ n ∧ n < 2 ^ 127) then .error (.overflow n) else .ok n

/-- A bound as a position counted from the front. -/
def normalizeWord (length : Nat) (bound : Int) : Except Breach Int :=
  if 0 ≤ bound then .ok bound else word length (length + bound)

/-- The position that a bound stands for, or the default where there is none. -/
def boundWord (length : Nat) (default : Int) : Option Int → Except Breach Int
  | some bound => normalizeWord length bound
  | none => .ok default

def clampWord (low high n : Int) : Except Breach Int :=
  if low ≤ high then .ok (clamp low high n) else .error (.inverted low high)

/-- From a position on, one after the other in steps, as long as the end is ahead. -/
def march (length : Nat) (step stop position : Int) : Except Breach (List Int) :=
  if 0 < step ∧ position < stop ∨ step < 0 ∧ stop < position then do
    let _ ← word length (position + step)
    let rest ← march length step stop (position + step)
    return position :: rest
  else .ok []
termination_by (if 0 < step then stop - position else position - stop).toNat
decreasing_by split <;> omega

/-- The positions that a slice selects from an array. -/
def walk (length : Nat) (start stop step : Option Int) : Except Breach (List Int) :=
  let step := step.getD 1
  if step = 0 ∨ length = 0 then .ok []
  else if 0 < step then do
    let lower ← clampWord 0 length (← boundWord length 0 start)
    let upper ← clampWord 0 length (← boundWord length length stop)
    march length step upper lower
  else do
    let last ← word length (length - 1)
    let before ← word length (-length - 1)
    let upper ← clampWord (-1) last (← boundWord length last start)
    let lower ← clampWord (-1) last (← boundWord length before stop)
    march length step lower upper

end Slice

/-- A function as an evaluation calls it. -/
structure StrictFunction where
  parameters : List Kind
  returns : Kind
  run : List Result → Except Breach (Result × List Remark)

namespace StrictFunction

/-- A function that takes whatever it is given. -/
def ofFunction (f : Function) : StrictFunction := ⟨f.parameters, f.returns, fun arguments =>
  .ok (f.run arguments)⟩

/-- The number of nodes of the first argument. -/
def count : StrictFunction where
  parameters := Function.count.parameters
  returns := Function.count.returns
  run arguments :=
    match arguments.head? with
    | some (.nodes ns) => .ok (.value (.natural ns.length), [])
    | _ => .error (.argument "count")

/-- The value of the only node of the first argument. -/
def value : StrictFunction where
  parameters := Function.value.parameters
  returns := Function.value.returns
  run arguments :=
    match arguments.head? with
    | some (.nodes ns) =>
      if ns.length = 1 then do
        let n ← itemAt ns 0
        return (.value n.value, [])
      else .ok (.nothing, [])
    | _ => .error (.argument "value")

/-- The standard functions. -/
def standard : Fields StrictFunction :=
  ((((Fields.insert [] "count" count).insert "length" (ofFunction .length)).insert
    "match" (ofFunction (.fits Pattern.Regex.isFullMatch))).insert
    "search" (ofFunction (.fits Pattern.Regex.finds))).insert "value" value

end StrictFunction

/-- A part of an evaluation that may end with a breach. The events so far are kept in order. -/
abbrev Strict := StateT (List Event) (Except Breach)

namespace Strict

/-- What an evaluation refers to besides the current node. -/
structure Scope where
  functions : Fields StrictFunction
  document : Json

def check {α : Type} (outcome : Except Breach α) : Strict α := fun events =>
  outcome.map fun a => (a, events)

def notify (e : Event) : Strict Unit := fun events => .ok ((), events ++ [e])

/-- A result followed by an event that tells of it. -/
def note {α : Type} (describe : α → Event) (s : Strict α) : Strict α := do
  let a ← s
  notify (describe a)
  return a

/-- Appends to the output, and tells what has been appended. -/
def append (describe : List Node → Event) (select : List Node → Strict (List Node))
    (output : List Node) : Strict (List Node) := do
  let appended ← select output
  notify (describe (← check (itemsFrom appended output.length)))
  return appended

/-- Appends to the output for one node after the other. -/
def each (select : Node → List Node → Strict (List Node)) :
    List Node → List Node → Strict (List Node)
  | [], output => return output
  | n :: rest, output => do each select rest (← select n output)

mutual

/-- Appends to the output for a value, then for everything inside it. -/
def visit (select : Node → List Node → Strict (List Node)) (l : Location) (output : List Node) :
    Json → Strict (List Node)
  | .array items => do visitItems select l 0 (← select ⟨.array items, l⟩ output) items
  | .object members => do visitMembers select l (← select ⟨.object members, l⟩ output) members
  | v => select ⟨v, l⟩ output

def visitItems (select : Node → List Node → Strict (List Node)) (l : Location) (i : Nat)
    (output : List Node) : List Json → Strict (List Node)
  | [] => return output
  | item :: rest => do
    visitItems select l (i + 1) (← visit select (l ++ [.index i]) output item) rest

def visitMembers (select : Node → List Node → Strict (List Node)) (l : Location)
    (output : List Node) : List (String × Json) → Strict (List Node)
  | [] => return output
  | (name, value) :: rest => do
    visitMembers select l (← visit select (l ++ [.name name]) output value) rest

end

/-- Appends to the output for a node, and for a descendant segment for everything below. -/
def reach (descendant : Bool) (select : Node → List Node → Strict (List Node)) (n : Node)
    (output : List Node) : Strict (List Node) :=
  if descendant then visit select n.location output n.value else select n output

/-- Appends the items of an array at some positions. -/
def items (location : Location) (values : List Json) :
    List Int → List Node → Strict (List Node)
  | [], output => return output
  | i :: rest, output => do
    let v ← check (itemAt values i)
    items location values rest (output ++ [⟨v, location ++ [.index i.toNat]⟩])

/-- Appends what a slice selects. -/
def slice (n : Node) (start stop step : Option Int) (output : List Node) : Strict (List Node) :=
  match n.value with
  | .array values => do
    items n.location values (← check (Slice.walk values.length start stop step)) output
  | _ => return output

/-- Appends the candidates that pass a test. -/
def filter (test : Node → Strict Bool) : List Node → List Node → Strict (List Node)
  | [], output => return output
  | n :: rest, output => do
    if ← test n then filter test rest (output ++ [n]) else filter test rest output

/-- The node at which a path starts. Without a current node that is the root. -/
def seed (scope : Scope) (current : Option Node) (p : Path) : Node :=
  match current with
  | some n => if p.isRelative then n else .root scope.document
  | none => .root scope.document

/-- A warning about a call, located at the argument that it is about, if there is one. -/
def warn (function : String) (arguments : List Range) (call : Range) (trouble : CallTrouble) :
    Strict Unit := do
  let about : CallWarning := ⟨function, trouble, call⟩
  let range ← match about.argument? with
    | some i => if i < arguments.length then check (itemAt arguments i) else pure call
    | none => pure call
  notify (.warning ⟨function, trouble, range⟩)

/-- The warnings that a function has asked for. -/
def warnAll (function : String) (arguments : List Range) (call : Range) :
    List Remark → Strict Unit
  | [] => return
  | remark :: rest => do
    warn function arguments call (.remark remark)
    warnAll function arguments call rest

mutual

/-- The nodes that the segments of a path lead to. -/
def follow (scope : Scope) (start : Node) : Path → Strict (List Node)
  | .root _ _ => return [start]
  | .step before segment => do
    let nodes ← follow scope start before
    each (fun n output => selectSegment scope n output segment) nodes []

def selectSegment (scope : Scope) (input : Node) (output : List Node) :
    Segment → Strict (List Node)
  | .shorthand id dots selector =>
    append (.segment id input) (reach (decide (dots.kind = .doubleDot))
      (fun n output => select scope n output selector) input) output
  | .bracketed id dots _ selectors _ =>
    append (.segment id input) (reach dots.isSome
      (fun n output => selectEach scope n output selectors) input) output

def selectEach (scope : Scope) (input : Node) (output : List Node) :
    Selectors → Strict (List Node)
  | .last selector => select scope input output selector
  | .more selector _ rest => do
    selectEach scope input (← select scope input output selector) rest

def select (scope : Scope) (input : Node) (output : List Node) : Selector → Strict (List Node)
  | .name id _ value =>
    append (.selector id input) (fun output => return output ++ (input.child? (.name value)).toList)
      output
  | .index id _ value =>
    append (.selector id input) (fun output => return output ++ (input.item? value).toList) output
  | .slice id start _ stop step =>
    append (.selector id input) (slice input (start.map (·.value)) (stop.map (·.value))
      ((step.bind (·.bound)).map (·.value))) output
  | .wildcard id _ =>
    append (.selector id input) (fun output => return output ++ input.children) output
  | .filter id _ test =>
    append (.selector id input)
      (filter (fun n => do return (← evaluate scope n test).holds) input.children) output
  | .missing id _ => append (.selector id input) (fun output => return output) output

def evaluate (scope : Scope) (current : Node) : Expr → Strict Result
  | .or id first _ rest => note (.expression id current) do
    if (← evaluate scope current first).holds then return .logical true
    return .logical (← anyHolds scope current rest)
  | .and id first _ rest => note (.expression id current) do
    if (← evaluate scope current first).holds then
      return .logical (← allHold scope current rest)
    return .logical false
  | .not id _ inner => note (.expression id current) do
    return .logical !(← evaluate scope current inner).holds
  | .comparison id left _ op right => note (.expression id current) do
    let a ← evaluate scope current left
    let b ← evaluate scope current right
    return .logical (a.compare op b)
  | .path id p => note (.expression id current) do
    return .nodes (← note (.query p.id) (follow scope (seed scope (some current) p) p))
  | .call id name _ arguments closing => note (.expression id current) <|
    let range := name.range.cover closing.range
    let operands := arguments.toList
    let ranges := operands.map Expr.range
    match scope.functions.get? name.text with
    | none => do
      warn name.text ranges range (.fault .unknown)
      return .nothing
    | some f =>
      if operands.length ≠ f.parameters.length then do
        warn name.text ranges range (.fault (.count f.parameters.length operands.length))
        return .empty f.returns
      else do
        match ← prepare scope current (warn name.text ranges range) arguments f.parameters with
        | some results =>
          let (result, remarks) ← check (f.run results)
          warnAll name.text ranges range remarks
          return result
        | none => return .empty f.returns
  | .literal id _ value => note (.expression id current) (pure (.value value))
  | .parens id _ inner _ => note (.expression id current) (evaluate scope current inner)
  | .missing id _ => note (.expression id current) (pure .nothing)

/-- Whether one of the operands holds, up to the first that does. -/
def anyHolds (scope : Scope) (current : Node) : Operands → Strict Bool
  | .last operand => do return (← evaluate scope current operand).holds
  | .more operand _ rest => do
    if (← evaluate scope current operand).holds then return true
    anyHolds scope current rest

/-- Whether all operands hold, up to the first that does not. -/
def allHold (scope : Scope) (current : Node) : Operands → Strict Bool
  | .last operand => do return (← evaluate scope current operand).holds
  | .more operand _ rest => do
    if (← evaluate scope current operand).holds then allHold scope current rest
    else return false

/-- The results of arguments, each as one of its parameter's kind, up to the first that
cannot be taken for one. -/
def prepareEach (scope : Scope) (current : Node) (trouble : CallTrouble → Strict Unit) (i : Nat) :
    Operands → List Kind → Strict (Option (List Result))
  | .last operand, kind :: _ => do
    match (← evaluate scope current operand).coerce? kind with
    | some result => return some [result]
    | none =>
      trouble (.mismatch i kind)
      return none
  | .more operand _ rest, kind :: kinds => do
    match (← evaluate scope current operand).coerce? kind with
    | some result =>
      return (← prepareEach scope current trouble (i + 1) rest kinds).map (result :: ·)
    | none =>
      trouble (.mismatch i kind)
      return none
  | _, [] => pure (some [])

def prepare (scope : Scope) (current : Node) (trouble : CallTrouble → Strict Unit) :
    Arguments → List Kind → Strict (Option (List Result))
  | .none, _ => pure (some [])
  | .some operands, kinds => prepareEach scope current trouble 0 operands kinds

end

end Strict

/-- The nodes that a query selects from a document and all events on the way, or the breach that
ends the evaluation. -/
def Query.evaluate (q : Query) (functions : Fields StrictFunction) (document : Json) :
    Except Breach (List Node × List Event) :=
  Strict.note (.query q.path.id) (Strict.follow ⟨functions, document⟩ (.root document) q.path) []

end JsonPath
