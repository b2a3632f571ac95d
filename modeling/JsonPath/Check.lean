import JsonPath.Diagnostic
import JsonPath.Evaluation.Event
import JsonPath.Syntax.Extent
import JsonPath.Syntax.Parser

/-!
Whether a query makes sense in an environment: indices are in range, functions are known
and get what they ask for, and tests and comparisons are made of what can be tested and
compared.
-/

namespace JsonPath

/-- What is wrong with the sense of a query. -/
inductive CheckFault where
  | indexOutOfRange (text : String)
  | literalTested
  | valueTested (function : String)
  | notComparable (function : String)
  | call (function : String) (fault : CallFault)
  | argument (function : String) (position : Nat) (expected : Kind)
deriving DecidableEq

namespace CheckFault

def message : CheckFault → String
  | indexOutOfRange text => "index out of range '" ++ text ++ "'"
  | literalTested => "filter expression literals must be compared"
  | valueTested function => "result of " ++ function ++ "() must be compared"
  | notComparable function => "result of " ++ function ++ "() is not comparable"
  | call function fault => fault.message function
  | argument function position expected =>
    "argument " ++ toString (position + 1) ++ " of " ++ function ++ "() must be of a " ++
      expected.text

def topic : CheckFault → Topic
  | call _ .unknown => .naming
  | _ => .typing

def diagnostic (fault : Located CheckFault) : Diagnostic :=
  ⟨fault.what.topic, fault.what.message, fault.range⟩

end CheckFault

/-- The faults of an index or of a bound of a slice. -/
def checkIndex (env : Environment) (token : Token) (value : Int) : List (Located CheckFault) :=
  if !token.missing && (value < env.lowest || env.highest < value) then
    [⟨.indexOutOfRange token.text, token.range⟩]
  else []

def Bound.check (env : Environment) (b : Option Bound) : List (Located CheckFault) :=
  match b with
  | some bound => checkIndex env bound.token bound.value
  | none => []

/-- What keeps an expression from being used for its truth value. -/
def Expr.testFaults (env : Environment) : Expr → List (Located CheckFault)
  | .literal _ token _ => [⟨.literalTested, token.range⟩]
  | .call _ name _ arguments closing =>
    match env.function? name.text with
    | some f =>
      if f.returns = .value && f.parameters.length = arguments.toList.length then
        [⟨.valueTested name.text, name.range.cover closing.range⟩]
      else []
    | none => []
  | _ => []

/-- What keeps a call from being compared. Paths that are not comparable are faults of the
text. -/
def Expr.comparisonFaults (env : Environment) : Expr → List (Located CheckFault)
  | .call _ name _ _ closing =>
    match env.function? name.text with
    | some f =>
      if f.returns = .value then [] else [⟨.notComparable name.text, name.range.cover closing.range⟩]
    | none => []
  | _ => []

/-- The expression may be passed for a parameter of the kind. Calls of unknown functions
may, since they are reported by themselves. -/
def Expr.suits (env : Environment) (kind : Kind) : Expr → Bool
  | .call _ name _ _ _ =>
    match env.function? name.text with
    | some f => f.returns = kind || (f.returns = .nodes && kind = .logical)
    | none => true
  | .literal _ _ _ => kind = .value
  | .missing _ _ => true
  | .path _ p => kind ≠ .value || p.isSingular
  | _ => kind = .logical

/-- The faults of a call, those inside its arguments apart. -/
def checkCall (env : Environment) (name : Token) (call : Range) (arguments : List Expr) :
    List (Located CheckFault) :=
  if name.missing then []
  else
    match env.function? name.text with
    | none => [⟨.call name.text .unknown, name.range⟩]
    | some f =>
      if arguments.length ≠ f.parameters.length then
        [⟨.call name.text (.count f.parameters.length arguments.length), call⟩]
      else
        (arguments.zip f.parameters).zipIdx.filterMap fun ((argument, kind), i) =>
          if argument.suits env kind then none
          else some ⟨.argument name.text i kind, argument.range⟩

mutual

def Path.check (env : Environment) : Path → List (Located CheckFault)
  | .root _ _ => []
  | .step before segment => before.check env ++ segment.check env

def Segment.check (env : Environment) : Segment → List (Located CheckFault)
  | .shorthand _ _ selector => selector.check env
  | .bracketed _ _ _ selectors _ => selectors.check env

def Selectors.check (env : Environment) : Selectors → List (Located CheckFault)
  | .last selector => selector.check env
  | .more selector _ rest => selector.check env ++ rest.check env

def Selector.check (env : Environment) : Selector → List (Located CheckFault)
  | .index _ token value => checkIndex env token value
  | .slice _ start _ stop step =>
    Bound.check env start ++ Bound.check env stop ++ Bound.check env (step.bind (·.bound))
  | .filter _ _ test => test.check env ++ test.testFaults env
  | _ => []

/-- The faults of an expression, those of the use that is made of it apart. -/
def Expr.check (env : Environment) : Expr → List (Located CheckFault)
  | .or _ first _ rest => first.check env ++ first.testFaults env ++ rest.checkTests env
  | .and _ first _ rest => first.check env ++ first.testFaults env ++ rest.checkTests env
  | .not _ _ inner => inner.check env ++ inner.testFaults env
  | .comparison _ left _ _ right =>
    left.comparisonFaults env ++ left.check env ++
      (right.comparisonFaults env ++ right.check env)
  | .path _ p => p.check env
  | .call _ name _ arguments closing =>
    arguments.check env ++
      checkCall env name (name.range.cover closing.range) arguments.toList
  | .literal _ _ _ => []
  | .parens _ _ inner _ => inner.check env ++ inner.testFaults env
  | .missing _ _ => []

/-- The faults of operands used for their truth values. -/
def Operands.checkTests (env : Environment) : Operands → List (Located CheckFault)
  | .last operand => operand.check env ++ operand.testFaults env
  | .more operand _ rest => operand.check env ++ operand.testFaults env ++ rest.checkTests env

def Operands.check (env : Environment) : Operands → List (Located CheckFault)
  | .last operand => operand.check env
  | .more operand _ rest => operand.check env ++ rest.check env

def Arguments.check (env : Environment) : Arguments → List (Located CheckFault)
  | .none => []
  | .some operands => operands.check env

end

namespace Query

/-- The faults of a query that its text alone does not show. -/
def check (q : Query) (env : Environment) : List (Located CheckFault) := q.path.check env

/-- The query that a text holds, if neither its text nor its sense has a fault; the first
fault if there is one. -/
def accept (env : Environment) (source : String) : Except Diagnostic Query :=
  let q := parse source
  match q.faults.head? with
  | some fault => .error (SyntaxFault.diagnostic fault)
  | none =>
    match (q.check env).head? with
    | some fault => .error (CheckFault.diagnostic fault)
    | none => .ok q

end Query

end JsonPath
