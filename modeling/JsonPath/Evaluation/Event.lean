import JsonPath.Environment
import JsonPath.Syntax.Token

/-!
What can be reported of an evaluation: the output of every element, in the order in which
the elements finish, and warnings about function calls.
-/

namespace JsonPath

/-- What keeps a function from being called. -/
inductive CallFault where
  | unknown
  | count (expected given : Nat)
deriving DecidableEq

def CallFault.message (function : String) : CallFault → String
  | unknown => "unknown function '" ++ function ++ "'"
  | count expected given =>
    function ++ "() takes " ++ toString expected ++ " argument" ++
      (if expected = 1 then "" else "s") ++ " but " ++ toString given ++ " were given"

/-- The reason for a warning about a call. -/
inductive CallTrouble where
  | fault (fault : CallFault)
  | mismatch (argument : Nat) (expected : Kind)
  | remark (remark : Remark)
deriving DecidableEq

/-- A warning about a call, or about one of its arguments. -/
structure CallWarning where
  function : String
  trouble : CallTrouble
  range : Range

namespace CallWarning

def argument? (w : CallWarning) : Option Nat :=
  match w.trouble with
  | .fault _ => none
  | .mismatch argument _ => some argument
  | .remark remark => remark.argument

def message (w : CallWarning) : String :=
  match w.trouble with
  | .fault fault => fault.message w.function
  | .mismatch _ expected => "expected an argument of " ++ expected.text
  | .remark remark => remark.message

def text (w : CallWarning) : String :=
  let argument := match w.argument? with
    | some i => "argument " ++ toString (i + 1) ++ ": "
    | none => ""
  w.function ++ "(): " ++ argument ++ w.message ++ " (" ++ w.range.text ++ ")"

end CallWarning

/-- A step of an evaluation. An element is named by its number and reported with what it
was given and what it gave. -/
inductive Event where
  | query (id : Nat) (output : List Node)
  | segment (id : Nat) (input : Node) (output : List Node)
  | selector (id : Nat) (input : Node) (output : List Node)
  | expression (id : Nat) (current : Node) (result : Result)
  | warning (warning : CallWarning)

/-- A result with the events that led to it, in order. -/
structure Traced (α : Type) where
  result : α
  events : List Event

namespace Traced

instance : Monad Traced where
  pure a := ⟨a, []⟩
  bind t f :=
    let u := f t.result
    ⟨u.result, t.events ++ u.events⟩

/-- An event by itself. -/
def event (e : Event) : Traced Unit := ⟨(), [e]⟩

/-- A result followed by an event that tells of it. -/
def note {α : Type} (describe : α → Event) (t : Traced α) : Traced α :=
  ⟨t.result, t.events ++ [describe t.result]⟩

/-- What `select` gives for each of some nodes, put together. -/
def collect (select : Node → Traced (List Node)) : List Node → Traced (List Node)
  | [] => pure []
  | n :: rest => do
    let first ← select n
    let others ← collect select rest
    return first ++ others

/-- The nodes that pass a test. -/
def filter (test : Node → Traced Bool) : List Node → Traced (List Node)
  | [] => pure []
  | n :: rest => do
    let passes ← test n
    let others ← filter test rest
    return if passes then n :: others else others

end Traced

end JsonPath
