import JsonPath.Diagnostic
import JsonPath.Evaluation.Select
import JsonPath.Syntax.Position

/-!
What the selectors of a query did during one or more evaluations, and warnings about those
that were applied but selected nothing.
-/

namespace JsonPath

/-- For each selector that was applied, by number in increasing order, how many nodes it
selected in total; and all warnings about calls. -/
structure Activity where
  selected : List (Nat × Nat)
  warnings : List CallWarning

namespace Activity

def empty : Activity := ⟨[], []⟩

/-- Adds to the count of a selector. -/
def addCount (id count : Nat) : List (Nat × Nat) → List (Nat × Nat)
  | [] => [(id, count)]
  | (other, n) :: rest =>
    if id < other then (id, count) :: (other, n) :: rest
    else if id = other then (other, n + count) :: rest
    else (other, n) :: addCount id count rest

def record (a : Activity) : Event → Activity
  | .selector id _ output => { a with selected := addCount id output.length a.selected }
  | .warning w => { a with warnings := a.warnings ++ [w] }
  | _ => a

/-- The activity after a further evaluation. -/
def recordAll (a : Activity) (events : List Event) : Activity := events.foldl record a

/-- How many nodes a selector selected, if it was applied at all. -/
def selected? (a : Activity) (id : Nat) : Option Nat := a.selected.lookup id

/-- A warning for every selector of a query that was applied and selected nothing, by
number, and then one for every warning about a call. -/
def diagnostics (a : Activity) (q : Query) : List Diagnostic :=
  (a.selected.filterMap fun (id, count) =>
      if count = 0 then
        (q.tree.find? id).map fun e =>
          ⟨.analysis, "selector produced no output", e.range⟩
      else none) ++
    a.warnings.map fun w => ⟨.analysis, w.function ++ "(): " ++ w.message, w.range⟩

end Activity

/-- The warnings about the evaluation of a query on one document. -/
def Query.analyzeDynamic (q : Query) (environment : Environment) (document : Json) :
    List Diagnostic :=
  (Activity.empty.recordAll (q.trace environment document).events).diagnostics q

end JsonPath
