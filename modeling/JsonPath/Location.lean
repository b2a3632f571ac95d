import JsonPath.Json
import JsonPath.Text

/-!
Locations inside a document: the steps that lead from the root to a value. A location has
one normalized text, in which names stand between single quotes, and locations are ordered
so that an array's elements come in the order of their indices.
-/

namespace JsonPath

/-- A step into an array or an object. -/
inductive Step where
  | index (position : Nat)
  | name (value : String)
deriving DecidableEq

/-- The steps from the root of a document. -/
abbrev Location := List Step

/-- The value one step inside a value. -/
def Json.child? (step : Step) : Json → Option Json
  | .array items =>
    match step with
    | .index i => items[i]?
    | .name _ => none
  | .object members =>
    match step with
    | .index _ => none
    | .name name => Fields.get? members name
  | _ => none

/-- The value at a location, if there is one. -/
def Json.at? (v : Json) : Location → Option Json
  | [] => some v
  | step :: rest => (v.child? step).bind fun child => child.at? rest

theorem Json.at?_append (v : Json) (a b : Location) :
    v.at? (a ++ b) = (v.at? a).bind fun w => w.at? b := by
  induction a generalizing v with
  | nil => rfl
  | cons step rest ih =>
    simp only [List.cons_append, Json.at?]
    cases v.child? step with
    | none => rfl
    | some child => exact ih child

/-- The steps into the children of a value, each with the child it leads to. -/
def Json.children : Json → List (Step × Json)
  | .array items => items.mapIdx fun i item => (.index i, item)
  | .object members => members.map fun member => (.name member.1, member.2)
  | _ => []

namespace Step

/-- A character of a name as it stands between single quotes. -/
def quoteChar (c : Char) : String :=
  if c = '\'' then "\\'"
  else if c = '\\' then "\\\\"
  else if c = '\x08' then "\\b"
  else if c = '\x0c' then "\\f"
  else if c = '\n' then "\\n"
  else if c = '\r' then "\\r"
  else if c = '\t' then "\\t"
  else if c.toNat < 0x20 then Text.unicodeEscape c
  else String.singleton c

/-- A name between single quotes. -/
def quote (name : String) : String := "'" ++ String.join (name.toList.map quoteChar) ++ "'"

def text : Step → String
  | .index i => "[" ++ toString i ++ "]"
  | .name s => "[" ++ quote s ++ "]"

/-- Indices come before names; both are in their natural order. -/
def order : Step → Step → Ordering
  | .index a, .index b => compare a b
  | .index _, .name _ => .lt
  | .name _, .index _ => .gt
  | .name a, .name b => compare a b

end Step

namespace Location

/-- The normalized text. -/
def text (l : Location) : String := "$" ++ String.join (l.map Step.text)

/-- The order of the first step that differs; a location comes before what is inside it. -/
def order : Location → Location → Ordering
  | [], [] => .eq
  | [], _ :: _ => .lt
  | _ :: _, [] => .gt
  | a :: rest, b :: others => (a.order b).then (order rest others)

/-- Locations in increasing order. -/
def sort (locations : List Location) : List Location :=
  locations.mergeSort fun a b => (order a b).isLE

end Location

end JsonPath
