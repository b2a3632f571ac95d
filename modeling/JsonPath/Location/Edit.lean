import JsonPath.Location

/-!
Editing a document at a list of locations. Replacing goes through the locations in the
given order, each change seen by the next. Removing goes from the last location to the
first, so that all of them are meant as they were before.
-/

namespace JsonPath

/-- The document with the value at a location changed by `f`, if there is one. -/
def Json.modify? (f : Json → Json) : Location → Json → Option Json
  | [], v => some (f v)
  | .index i :: rest, .array items =>
    (items[i]?.bind (modify? f rest)).map fun item => .array (items.set i item)
  | .name name :: rest, .object members =>
    ((Fields.get? members name).bind (modify? f rest)).map fun value =>
      .object (Fields.insert members name value)
  | _, _ => none

/-- The value without the child that a step leads to, if there is one. -/
def Json.eraseChild? (step : Step) : Json → Option Json
  | .array items =>
    match step with
    | .index i => if i < items.length then some (.array (items.eraseIdx i)) else none
    | .name _ => none
  | .object members =>
    match step with
    | .index _ => none
    | .name name =>
      if Fields.contains members name then some (.object (Fields.erase members name)) else none
  | _ => none

/-- The document without the value at a location, if there is one. The root stays. -/
def Json.erase? : Location → Json → Option Json
  | [], _ => none
  | [step], v => v.eraseChild? step
  | .index i :: rest, .array items =>
    (items[i]?.bind (erase? rest)).map fun item => .array (items.set i item)
  | .name name :: rest, .object members =>
    ((Fields.get? members name).bind (erase? rest)).map fun value =>
      .object (Fields.insert members name value)
  | _, _ => none

/-- A document and the number of changes made to it. -/
structure Edited where
  document : Json
  count : Nat

namespace Edited

/-- A further change, if it can be made. -/
def step (change : Json → Option Json) (e : Edited) : Edited :=
  match change e.document with
  | some document => ⟨document, e.count + 1⟩
  | none => e

end Edited

/-- Replaces the value at each location that exists. `f` is given the number of values
replaced before and the value that stands there. -/
def Json.replace (f : Nat → Json → Json) (locations : List Location) (v : Json) : Edited :=
  locations.foldl (fun e location => e.step (Json.modify? (f e.count) location)) ⟨v, 0⟩

/-- Removes the value at each location that exists in the document as given. -/
def Json.remove (locations : List Location) (v : Json) : Edited :=
  (Location.sort locations).eraseReps.reverse.foldl
    (fun e location => e.step (Json.erase? location)) ⟨v, 0⟩

end JsonPath
