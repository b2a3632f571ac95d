import JsonPath.Location
import JsonPath.Syntax.Fault

/-!
The syntax of queries. A path is an identifier followed by segments, a segment holds
selectors, and a filter selector holds an expression. Every token of the source has its
place, and a placeholder stands where something was expected and not found. Elements are
numbered in the order in which the parser began them.
-/

namespace JsonPath

/-- A bound of a slice as written. Bounds that do not fit 64 bits are cut to the nearest
number that does. -/
structure Bound where
  token : Token
  value : Int

/-- What follows the second colon of a slice. -/
structure StepPart where
  colon : Token
  bound : Option Bound

mutual

/-- An identifier, `$` or `@`, followed by segments. -/
inductive Path where
  | root (id : Nat) (identifier : Token)
  | step (before : Path) (segment : Segment)

/-- A step of a path: a dot or two and one selector, or selectors between brackets, after
two dots for a descendant segment. -/
inductive Segment where
  | shorthand (id : Nat) (dots : Token) (selector : Selector)
  | bracketed (id : Nat) (dots : Option Token) (opening : Token) (selectors : Selectors)
      (closing : Token)

/-- At least one selector, with commas between them. -/
inductive Selectors where
  | last (selector : Selector)
  | more (selector : Selector) (comma : Token) (rest : Selectors)

inductive Selector where
  | name (id : Nat) (token : Token) (value : String)
  | index (id : Nat) (token : Token) (value : Int)
  | slice (id : Nat) (start : Option Bound) (colon : Token) (stop : Option Bound)
      (step : Option StepPart)
  | wildcard (id : Nat) (token : Token)
  | filter (id : Nat) (question : Token) (test : Expr)
  | missing (id : Nat) (token : Token)

inductive Expr where
  | or (id : Nat) (first : Expr) (operator : Token) (rest : Operands)
  | and (id : Nat) (first : Expr) (operator : Token) (rest : Operands)
  | not (id : Nat) (bang : Token) (inner : Expr)
  | comparison (id : Nat) (left : Expr) (operator : Token) (op : Comparison) (right : Expr)
  | path (id : Nat) (path : Path)
  | call (id : Nat) (name : Token) (opening : Token) (arguments : Arguments) (closing : Token)
  | literal (id : Nat) (token : Token) (value : Json)
  | parens (id : Nat) (opening : Token) (inner : Expr) (closing : Token)
  | missing (id : Nat) (token : Token)

/-- At least one expression, with operators or commas between them. -/
inductive Operands where
  | last (operand : Expr)
  | more (operand : Expr) (separator : Token) (rest : Operands)

inductive Arguments where
  | none
  | some (operands : Operands)

end

namespace Path

def id : Path → Nat
  | root id _ => id
  | step before _ => before.id

def identifier : Path → Token
  | root _ identifier => identifier
  | step before _ => before.identifier

/-- The path starts at the current value of a filter. -/
def isRelative (p : Path) : Bool := p.identifier.kind = .current

/-- The segments, in order. -/
def segments : Path → List Segment
  | root _ _ => []
  | step before segment => before.segments ++ [segment]

end Path

namespace Selectors

def toList : Selectors → List Selector
  | last s => [s]
  | more s _ rest => s :: rest.toList

end Selectors

namespace Operands

def toList : Operands → List Expr
  | last e => [e]
  | more e _ rest => e :: rest.toList

end Operands

namespace Arguments

def toList : Arguments → List Expr
  | none => []
  | some operands => operands.toList

end Arguments

namespace Selector

def id : Selector → Nat
  | name id _ _ | index id _ _ | slice id _ _ _ _ | wildcard id _ | filter id _ _
  | missing id _ => id

/-- Names and indices select at most one value. -/
def isSingular : Selector → Bool
  | name _ _ _ | index _ _ _ => true
  | _ => false

def isMissing : Selector → Bool
  | missing _ _ => true
  | _ => false

/-- The step that a name or an index from the front stands for. -/
def step? : Selector → Option Step
  | name _ _ value => some (.name value)
  | index _ _ value => if 0 ≤ value then some (.index value.toNat) else none
  | _ => none

end Selector

namespace Segment

def id : Segment → Nat
  | shorthand id _ _ | bracketed id _ _ _ _ => id

/-- The segment also looks at everything below its input. -/
def isDescendant : Segment → Bool
  | shorthand _ dots _ => dots.kind = .doubleDot
  | bracketed _ dots _ _ _ => dots.isSome

def isBracketed : Segment → Bool
  | shorthand _ _ _ => false
  | bracketed _ _ _ _ _ => true

def selectors : Segment → List Selector
  | shorthand _ _ s => [s]
  | bracketed _ _ _ ss _ => ss.toList

/-- The only selector of a child segment, if that is a name or an index. -/
def single? (s : Segment) : Option Selector :=
  match s.isDescendant, s.selectors with
  | false, [selector] => if selector.isSingular then some selector else none
  | _, _ => none

def isSingular (s : Segment) : Bool := s.single?.isSome

end Segment

namespace Path

/-- The path selects at most one value. -/
def isSingular : Path → Bool
  | root _ _ => true
  | step before segment => before.isSingular && segment.isSingular

/-- The steps of a singular path made of names and indices from the front. -/
def location? : Path → Option Location
  | root _ _ => some []
  | step before segment => do
    let start ← before.location?
    let selector ← segment.single?
    let step ← selector.step?
    return start ++ [step]

end Path

namespace Expr

def id : Expr → Nat
  | or id _ _ _ | and id _ _ _ | not id _ _ | comparison id _ _ _ _ | path id _
  | call id _ _ _ _ | literal id _ _ | parens id _ _ _ | missing id _ => id

def isLiteral : Expr → Bool
  | literal _ _ _ => true
  | _ => false

/-- The expression is a path that selects at most one value. -/
def isSingularPath : Expr → Bool
  | path _ p => p.isSingular
  | _ => false

/-- The name of the function that is called. -/
def function? : Expr → Option String
  | call _ name _ _ _ => some name.text
  | _ => none

end Expr

end JsonPath
