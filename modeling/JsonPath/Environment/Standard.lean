import JsonPath.DataType.Algebra
import JsonPath.Environment
import JsonPath.Pattern.Grammar
import JsonPath.Pattern.Reader

/-!
The standard functions: counting nodes, measuring a value, taking the value of a single
node, and matching a string with a pattern, in whole or in part.
-/

namespace JsonPath

/-- What is wrong with a pattern. -/
inductive PatternFault where
  | invalid (pattern : String)
  | unreadable (pattern : String)
deriving DecidableEq

def PatternFault.message : PatternFault → String
  | invalid pattern => "'" ++ pattern ++ "' is not a valid I-Regexp pattern"
  | unreadable pattern => "can't compile pattern '" ++ pattern ++ "'"

/-- The expression that a pattern stands for. -/
def Pattern.regex? (pattern : String) : Except PatternFault Pattern.Regex :=
  let chars := pattern.toList
  if !Pattern.isValid chars then .error (.invalid pattern)
  else
    match Pattern.Regex.ofChars? (Pattern.expandPoints false false chars) with
    | some r => .ok r
    | none => .error (.unreadable pattern)

namespace Function

/-- The number of characters of a string, or of the children of a value. -/
def lengthOf : Json → Option Nat
  | .string s => some s.length
  | .array items => some items.length
  | .object members => some members.length
  | _ => none

def count : Function where
  parameters := [.nodes]
  returns := .value
  type := .ofPrimitive .number
  run
    | [.nodes ns] => (.value (.natural ns.length), [])
    | _ => (.nothing, [])

def length : Function where
  parameters := [.value]
  returns := .value
  type := DataType.unionOf [.ofPrimitive .number, .ofPrimitive .nothing]
  run arguments :=
    match (arguments.head?.bind Result.value?).bind lengthOf with
    | some n => (.value (.natural n), [])
    | none => (.nothing, [])

/-- The value of the only node. -/
def value : Function where
  parameters := [.nodes]
  returns := .value
  type := .top
  run
    | [.nodes ns] => ((Result.nodes ns).single, [])
    | _ => (.nothing, [])

/-- A test of a string against a pattern. A pattern that cannot be used is remarked on and
fits no string, and only strings fit. -/
def fits (test : Pattern.Regex → List Char → Bool) : Function where
  parameters := [.value, .value]
  returns := .logical
  type := .ofPrimitive .boolean
  run arguments :=
    match arguments.map Result.value? with
    | [some (.string s), some (.string pattern)] =>
      match Pattern.regex? pattern with
      | .ok r => (.logical (test r s.toList), [])
      | .error fault => (.logical false, [⟨some 1, fault.message⟩])
    | _ => (.logical false, [])

end Function

/-- The environment with the standard functions. -/
def Environment.standard : Environment :=
  ((((Environment.empty.define "count" .count).define "length" .length).define
    "match" (.fits Pattern.Regex.isFullMatch)).define
    "search" (.fits Pattern.Regex.finds)).define "value" .value

end JsonPath
