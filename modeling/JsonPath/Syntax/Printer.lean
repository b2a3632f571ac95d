import JsonPath.Json.Printer
import JsonPath.Syntax.Basic

/-!
The canonical text of queries: brackets around all selectors, names between single quotes,
a step in every slice, and nothing for what is missing.
-/

namespace JsonPath

mutual

def Path.text : Path → String
  | .root _ identifier => if identifier.kind = .current then "@" else "$"
  | .step before segment => before.text ++ segment.text

def Segment.text : Segment → String
  | .shorthand _ dots selector =>
    (if dots.kind = .doubleDot then ".." else "") ++ "[" ++ selector.text ++ "]"
  | .bracketed _ dots _ selectors _ =>
    (if dots.isSome then ".." else "") ++ "[" ++ selectors.text ++ "]"

def Selectors.text : Selectors → String
  | .last selector => selector.text
  | .more selector _ rest => selector.text ++ ", " ++ rest.text

def Selector.text : Selector → String
  | .name _ _ value => Step.quote value
  | .index _ _ value => toString value
  | .slice _ start _ stop step =>
    let bound (b : Option Bound) (absent : String) : String :=
      (b.map fun b => toString b.value).getD absent
    bound start "" ++ ":" ++ bound stop "" ++ ":" ++ bound (step.bind (·.bound)) "1"
  | .wildcard _ _ => "*"
  | .filter _ _ test => "?" ++ test.text
  | .missing _ _ => ""

def Expr.text : Expr → String
  | .or _ first _ rest => first.text ++ " || " ++ rest.text " || "
  | .and _ first _ rest => first.text ++ " && " ++ rest.text " && "
  | .not _ _ inner => "!" ++ inner.text
  | .comparison _ left _ op right => left.text ++ " " ++ op.text ++ " " ++ right.text
  | .path _ p => p.text
  | .call _ name _ arguments _ => name.text ++ "(" ++ arguments.text ++ ")"
  | .literal _ _ value => value.text
  | .parens _ _ inner _ => "(" ++ inner.text ++ ")"
  | .missing _ _ => ""

def Operands.text (separator : String) : Operands → String
  | .last operand => operand.text
  | .more operand _ rest => operand.text ++ separator ++ rest.text separator

def Arguments.text : Arguments → String
  | .none => ""
  | .some operands => operands.text ", "

end

end JsonPath
