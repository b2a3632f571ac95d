import JsonPath.DataType
import JsonPath.Evaluation.Result

/-!
The functions that filters may call and the indices that selectors may use.
-/

namespace JsonPath

/-- A remark that a function makes on a call: on one argument, by its position, or on the
call as a whole. -/
structure Remark where
  argument : Option Nat
  message : String
deriving DecidableEq

/-- A function for filters. It is called with as many results as it has parameters, each
of the kind that its parameter asks for. -/
structure Function where
  parameters : List Kind
  returns : Kind
  /-- The values that a call may come to. -/
  type : DataType
  run : List Result → Result × List Remark

/-- Functions by name, and the least and the greatest index. -/
structure Environment where
  lowest : Int
  highest : Int
  functions : Fields Function

namespace Environment

/-- No functions, and the whole numbers that doubles hold without gaps as indices. -/
def empty : Environment := ⟨-(2 ^ 53) + 1, 2 ^ 53 - 1, []⟩

def function? (env : Environment) (name : String) : Option Function := env.functions.get? name

/-- The environment with a further function, which takes the place of one of its name. -/
def define (env : Environment) (name : String) (f : Function) : Environment :=
  { env with functions := env.functions.insert name f }

end Environment

end JsonPath
