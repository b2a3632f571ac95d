import JsonPath.Check
import JsonPath.Environment.Standard
import JsonPath.Evaluation.Select
import JsonPath.Json.Printer
import JsonPath.Json.Reader

/-!
The command that evaluates a query on a document. Its arguments are a query and the name of
a file, without which the document is the input. All faults of the query are reported, and
only a query without any is evaluated.
-/

namespace JsonPath.Command

/-- What keeps a document from being read. -/
inductive DocumentFault where
  | notFound
  | accessDenied
  | isDirectory
  | notText
  | system (details : String) (code : Nat)
  | malformed (error : Json.ReadError)

def DocumentFault.message : DocumentFault → String
  | notFound => "No such file or directory (os error 2)"
  | accessDenied => "Permission denied (os error 13)"
  | isDirectory => "Is a directory (os error 21)"
  | notText => "stream did not contain valid UTF-8"
  | system details code => details ++ " (os error " ++ toString code ++ ")"
  | malformed error => error.message

/-- What the command leaves behind: lines of output, lines of complaint, and its code. -/
structure Outcome where
  output : List String
  complaints : List String
  code : Nat

/-- What is to be done for some arguments: nothing more, or to evaluate a query on the
document in a file or in the input. -/
inductive Plan where
  | finished (outcome : Outcome)
  | evaluate (q : Query) (file : Option String)

/-- All reports on a query, on its text first. -/
def reports (q : Query) : List Diagnostic :=
  q.faults.map SyntaxFault.diagnostic ++
    (q.check .standard).map CheckFault.diagnostic

def plan : List String → Plan
  | [] => .finished ⟨[], ["usage: jsonpath-types QUERY [FILE]"], 2⟩
  | source :: rest =>
    let q := Query.parse source
    match reports q with
    | [] => .evaluate q rest.head?
    | found => .finished ⟨[], found.map Diagnostic.text, 1⟩

/-- The line for a node: its location and its value. -/
def nodeLine (n : Node) : String := n.location.text ++ "\t" ++ n.value.text

/-- The document that a text holds. -/
def document (text : Except DocumentFault String) : Except DocumentFault Json :=
  match text with
  | .error fault => .error fault
  | .ok text => (Json.read text).mapError .malformed

/-- The outcome of evaluating a query on the document in a text. -/
def evaluate (q : Query) (text : Except DocumentFault String) : Outcome :=
  match document text with
  | .error fault => ⟨[], ["error reading document: " ++ fault.message], 1⟩
  | .ok v => ⟨(q.find .standard v).map nodeLine, [], 0⟩

/-- The outcome of the command, given the input and the texts of files. -/
def run (arguments : List String) (input : String)
    (file : String → Except DocumentFault String) : Outcome :=
  match plan arguments with
  | .finished outcome => outcome
  | .evaluate q none => evaluate q (.ok input)
  | .evaluate q (some name) => evaluate q (file name)

end JsonPath.Command
