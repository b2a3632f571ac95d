import JsonPath.Syntax.Position
import JsonPath.Typing

/-!
The types of elements on demand. The type of an element is computed from those of others, which
are requested by their numbers: of the elements below it, of what stands before it in a path, of
the filter around it. An analyzer remembers each type that it has computed.
-/

namespace JsonPath

/-- A computation that goes on with the types of the elements which it requests. -/
inductive Inquiry (α : Type) where
  | done (result : α)
  | request (id : Nat) (next : DataType → Inquiry α)

namespace Inquiry

variable {α β : Type}

def andThen (f : α → Inquiry β) : Inquiry α → Inquiry β
  | done x => f x
  | request id next => request id fun t => (next t).andThen f

instance : Monad Inquiry where
  pure := done
  bind i f := i.andThen f

/-- The type of one element. -/
def typeOf (id : Nat) : Inquiry DataType := request id done

/-- The results of computations, made one after the other. -/
def inTurn : List (Inquiry α) → Inquiry (List α)
  | [] => return []
  | i :: rest => do
    let first ← i
    let others ← inTurn rest
    return first :: others

end Inquiry

open Inquiry (typeOf inTurn)

/-- The number of what the path ends with, a segment or else the identifier. -/
def Path.endId : Path → Nat
  | .root _ identifier => identifier.id
  | .step _ segment => segment.id

/-- The path as far as the first segment with a number, if it has one. -/
def Path.before? (id : Nat) : Path → Option Path
  | .root _ _ => none
  | .step before segment =>
    before.before? id <|> if segment.id = id then some before else none

/-- The candidates that a comparison with what another expression gives leaves. The type of the
other is requested only for an equality. -/
def Expr.compared (l : Location) (op : Comparison) (other : Expr) (assume : Bool) (t : DataType) :
    Inquiry DataType :=
  match op with
  | .equal | .notEqual => return narrowComparison l op (← typeOf other.id) assume t
  | _ => return if assume then DataType.presentAt l t else t

mutual

/-- The candidates of a type for which an expression, as a test, gives `assume`. -/
def Expr.narrowed (assume : Bool) : Expr → DataType → Inquiry DataType
  | .and _ first _ rest => fun t => do
    let narrowed ← first.narrowed assume t
    let others ← rest.narrowedEach assume t
    return narrowTogether assume narrowed others
  | .or _ first _ rest => fun t => do
    let narrowed ← first.narrowed assume t
    let others ← rest.narrowedEach assume t
    return narrowTogether (!assume) narrowed others
  | .not _ _ inner => inner.narrowed !assume
  | .parens _ _ inner _ => inner.narrowed assume
  | .comparison _ left _ op right =>
    match left.relativeLocation?, right.relativeLocation? with
    | some l, _ => Expr.compared l op right assume
    | none, some l => Expr.compared l op.mirror left assume
    | none, none => pure
  | .path _ p =>
    match p.relativeLocation? with
    | some l => fun t => return narrowExistence l assume t
    | none => pure
  | _ => pure

/-- The candidates that each of several tests leaves by itself. -/
def Operands.narrowedEach (assume : Bool) : Operands → DataType → Inquiry (List DataType)
  | .last operand => fun t => return [← operand.narrowed assume t]
  | .more operand _ rest => fun t => do
    let first ← operand.narrowed assume t
    let others ← rest.narrowedEach assume t
    return first :: others

end

/-- What types are computed from: a query, the functions, and the type of the document. -/
structure Analyzer where
  query : Query
  environment : Environment
  root : DataType

namespace Analyzer

/-- The values that a segment is applied to. -/
def incoming (a : Analyzer) (s : Segment) : Inquiry DataType :=
  match a.query.tree.parent? s.id with
  | some (.path p) => do
    let before ← typeOf (((p.before? s.id).map Path.endId).getD p.identifier.id)
    return s.incoming before
  | _ => return .bottom

/-- The candidates that a filter tests. -/
def candidates (a : Analyzer) (filter : Selector) : Inquiry DataType :=
  match a.query.tree.segmentOf? filter.id with
  | some s => return (← a.incoming s).children
  | none => return .bottom

/-- The current values inside a filter, and the document where there is none. -/
def current (a : Analyzer) (filter : Option Selector) : Inquiry DataType :=
  match filter with
  | some selector => a.candidates selector
  | none => return a.root

/-- The values that a selector selects from those of a type. -/
def selected (incoming : DataType) : Selector → Inquiry DataType
  | .name _ _ value => return (incoming.atStep (.name value)).present
  | .index _ _ value =>
    if 0 ≤ value then return (incoming.atStep (.index value.toNat)).present
    else return incoming.elements
  | .slice _ _ _ _ _ => return incoming.elements
  | .wildcard _ _ => return incoming.children
  | .filter _ _ test => test.narrowed true incoming.children
  | .missing _ _ => return .bottom

def selectorType (a : Analyzer) (s : Selector) : Inquiry DataType :=
  match a.query.tree.segmentOf? s.id with
  | some segment => do selected (← a.incoming segment) s
  | none => return .bottom

def expressionType (a : Analyzer) : Expr → Inquiry DataType
  | .literal _ _ value => return .ofJson value
  | .path _ p => typeOf p.id
  | .call _ name _ _ _ => return ((a.environment.function? name.text).map (·.type)).getD .top
  | .missing _ _ => return .bottom
  | _ => return .ofPrimitive .boolean

/-- The type of a token is that of what it stands for, or of the element that it is part of. -/
def tokenType (a : Analyzer) (t : Token) : Inquiry DataType :=
  match t.kind with
  | .root => return a.root
  | .current => a.current (a.query.tree.enclosingFilter? t.id)
  | _ =>
    match a.query.tree.parent? t.id with
    | some parent => typeOf parent.id
    | none => return .bottom

def elementType (a : Analyzer) : Element → Inquiry DataType
  | .query q => typeOf q.path.id
  | .path p => typeOf p.endId
  | .segment s => do
    let types ← inTurn (s.selectors.map fun selector => typeOf selector.id)
    return .unionOf types
  | .selector s => a.selectorType s
  | .expression e => a.expressionType e
  | .token t => a.tokenType t

/-- The type of the element with a number. -/
def compute (a : Analyzer) (id : Nat) : Inquiry DataType :=
  match a.query.tree.find? id with
  | some e => a.elementType e
  | none => return .bottom

/-- A call on an analyzer. -/
inductive Call where
  | type (id : Nat)
  | narrow (test : Expr) (candidates : DataType) (assume : Bool)

def Call.inquiry : Call → Inquiry DataType
  | type id => typeOf id
  | narrow test candidates assume => test.narrowed assume candidates

/-- The types that have been computed, by the numbers of their elements. -/
abbrev Table := List (Option DataType)

/-- A table with a slot for each element, in which there is nothing yet. -/
def fresh (a : Analyzer) : Table := List.replicate a.query.elementCount none

/-- A request, with the numbers of the elements whose types are being computed when it is made. -/
structure Request where
  id : Nat
  pending : List Nat

/-- A computation runs on a table. A type that is requested is taken from the table, or it is
computed first and entered there. The requests are listed in their order. -/
inductive Run (a : Analyzer) : {α : Type} → (pending : List Nat) → Table → Inquiry α →
    List Request → α → Table → Prop
  | done {α : Type} {pending : List Nat} {table : Table} {x : α} :
      Run a pending table (.done x) [] x table
  | known {α : Type} {pending : List Nat} {table table' : Table} {id : Nat} {t : DataType}
      {next : DataType → Inquiry α} {requests : List Request} {x : α}
      (entry : table[id]?.join = some t) (rest : Run a pending table (next t) requests x table') :
      Run a pending table (.request id next) (⟨id, pending⟩ :: requests) x table'
  | made {α : Type} {pending : List Nat} {table entered table' : Table} {id : Nat} {t : DataType}
      {next : DataType → Inquiry α} {inner requests : List Request} {x : α}
      (vacant : table[id]?.join = none)
      (compute : Run a (id :: pending) table (a.compute id) inner t entered)
      (rest : Run a pending (entered.set id (some t)) (next t) requests x table') :
      Run a pending table (.request id next) (⟨id, pending⟩ :: inner ++ requests) x table'

/-- Calls on a new analyzer, one after the other, with their answers and the requests made. -/
def Answers (a : Analyzer) (calls : List Call) (requests : List Request)
    (answers : List DataType) : Prop :=
  ∃ table, a.Run [] a.fresh (inTurn (calls.map Call.inquiry)) requests answers table

end Analyzer

end JsonPath
