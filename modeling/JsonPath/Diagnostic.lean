import JsonPath.Syntax.Fault

/-!
Reports on a query, each with a range of its source and a severity.
-/

namespace JsonPath

inductive Severity where
  | error
  | warning
deriving DecidableEq

def Severity.text : Severity → String
  | error => "error"
  | warning => "warning"

/-- What a report is about. -/
inductive Topic where
  | syntactic
  | typing
  | naming
  | analysis
deriving DecidableEq

def Topic.text : Topic → String
  | syntactic => "syntax"
  | typing => "type"
  | naming => "name"
  | analysis => "analysis"

/-- Analyses only warn. -/
def Topic.severity : Topic → Severity
  | analysis => .warning
  | _ => .error

structure Diagnostic where
  topic : Topic
  message : String
  range : Range
deriving DecidableEq

namespace Diagnostic

def severity (d : Diagnostic) : Severity := d.topic.severity

def isError (d : Diagnostic) : Bool := d.severity = .error

def text (d : Diagnostic) : String :=
  d.severity.text ++ ": " ++ d.message ++ " (" ++ d.range.text ++ ")"

/-- The report that refuses a query, as one line. -/
def refusal (d : Diagnostic) : String :=
  let topic := match d.topic with
    | .syntactic => "syntax"
    | .naming => "name"
    | _ => "type"
  topic ++ " error: " ++ d.message ++ " (" ++ d.range.text ++ ")"

end Diagnostic

/-- The report on a fault of a query's text. -/
def SyntaxFault.diagnostic (fault : Located SyntaxFault) : Diagnostic :=
  ⟨.syntactic, fault.what.message, fault.range⟩

end JsonPath
