import JsonPath.DataType.Printer
import JsonPath.Diagnostic
import JsonPath.Typing.Elements

/-!
Warnings about selectors that cannot select anything from documents of a given type. A
selector is reported only if it may be applied to something, so one that selects nothing
does not drag along those that come after it.
-/

namespace JsonPath

/-- How a selector is called in warnings; a placeholder for one is not reported. -/
def Selector.description? : Selector → Option String
  | .name _ _ value => some ("name selector '" ++ value ++ "'")
  | .index _ _ value => some ("index selector " ++ toString value)
  | .slice _ _ _ _ _ => some "slice selector"
  | .wildcard _ _ => some "wildcard selector"
  | .filter _ _ _ => some "filter selector"
  | .missing _ _ => none

namespace Typed

/-- The selector never selects anything though it may be applied to something. -/
def isIdle (e : Typed) : Bool :=
  match e.element, e.incoming with
  | .selector _, some incoming => !incoming.isNever && e.type.isNever
  | _, _ => false

/-- The warning about an idle selector. -/
def warning? (e : Typed) : Option Diagnostic :=
  match e.element, e.incoming with
  | .selector selector, some incoming =>
    if e.isIdle then
      selector.description?.map fun description =>
        ⟨.analysis, description ++ " never produces output for " ++ incoming.text,
          selector.range⟩
    else none
  | _, _ => none

end Typed

/-- A warning for every selector that never selects anything from a document of type
`root`, in the order of the source. -/
def Query.analyzeStatic (q : Query) (environment : Environment) (root : DataType) :
    List Diagnostic :=
  (q.typed environment root).filterMap Typed.warning?

end JsonPath
