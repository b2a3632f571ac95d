import JsonPath.DataType.Algebra
import JsonPath.Location

/-!
Types along locations: the type found there, the type with what is there changed or made
present, and the types of all that is inside.
-/

namespace JsonPath.DataType

def nothing : DataType := ofPrimitive .nothing

mutual

/-- The union of what `f` makes of each member. -/
def mapMembers (f : DataType → DataType) : DataType → DataType
  | union ms _ => unionOf (mapEach f ms)
  | t => f t

def mapEach (f : DataType → DataType) : List DataType → List DataType
  | [] => []
  | t :: rest => mapMembers f t :: mapEach f rest

end

/-- What is found one step inside the values of a type other than a union. It may be
nothing where the member or the element is not required. -/
def memberAt (step : Step) : DataType → DataType
  | any _ => top
  | never _ => bottom
  | object properties rest required _ =>
    match step with
    | .name name =>
      let t := property properties rest name
      if required.contains name then t else unionOf [t, nothing]
    | .index _ => nothing
  | array front rest minimum _ =>
    match step with
    | .index i =>
      let t := element front rest i
      if i < minimum then t else unionOf [t, nothing]
    | .name _ => nothing
  | _ => nothing

/-- What is found one step inside the values of a type. -/
def atStep (t : DataType) (step : Step) : DataType := mapMembers (memberAt step) t

/-- What is found at a location inside the values of a type. -/
def atLocation (t : DataType) (l : Location) : DataType := l.foldl atStep t

/-- How far behind its described elements an array may get a further one described. -/
def growth : Nat := 64

/-- The described elements with enough copies of `rest` to describe position `i`, none if
that would be too far behind them. -/
def widen? (front : List DataType) (rest : DataType) (i : Nat) : Option (List DataType) :=
  if front.length + growth ≤ i then none
  else some (front ++ List.replicate (i + 1 - front.length) rest)

mutual

/-- What `f` makes of each member of a union, united and with its annotations. -/
def mapAnnotated (f : DataType → DataType) : DataType → DataType
  | union ms n => (unionOf (mapAnnotatedEach f ms)).mergeNotes (union ms n)
  | t => f t

def mapAnnotatedEach (f : DataType → DataType) : List DataType → List DataType
  | [] => []
  | t :: rest => mapAnnotated f t :: mapAnnotatedEach f rest

end

/-- The type with the type at a location replaced by what `f` makes of it. An element too
far out to be described by itself widens the type of all further ones. What the location
does not lead into stays. -/
def changeAt (f : DataType → DataType) : Location → DataType → DataType
  | [] => f
  | step :: tail => mapAnnotated fun t =>
    match t, step with
    | object properties rest required n, .name name =>
      let changed := changeAt f tail (property properties rest name)
      (ofObject (Fields.insert properties name changed) rest required).withNotes n
    | array front rest minimum n, .index i =>
      let changed := changeAt f tail (element front rest i)
      match widen? front rest i with
      | some wide => (ofArray (wide.set i changed) rest minimum).withNotes n
      | none => (ofArray front (unionOf [rest, changed]) minimum).withNotes n
    | t, _ => t

/-- The values of a type in which the location leads to a value. -/
def presentAt : Location → DataType → DataType
  | [] => id
  | step :: tail => mapAnnotated fun t =>
    match t, step with
    | any n, _ => any n
    | object properties rest required n, .name name =>
      let present := presentAt tail (property properties rest name)
      (ofObject (Fields.insert properties name present) rest (required ++ [name])).withNotes n
    | array front rest minimum n, .index i =>
      let present := presentAt tail (element front rest i)
      match widen? front rest i with
      | some wide => (ofArray (wide.set i present) rest (max minimum (i + 1))).withNotes n
      | none => if present.isNever then bottom else array front rest minimum n
    | _, _ => bottom

/-- The children of the values of a type other than a union. -/
def memberChildren : DataType → DataType
  | any _ => top
  | object properties rest _ _ => unionOf (Fields.values properties ++ [rest])
  | array front rest _ _ => unionOf (front ++ [rest])
  | _ => bottom

/-- The children of the values of a type. -/
def children (t : DataType) : DataType := mapMembers memberChildren t

mutual

/-- How deep a type describes the inside of its values. -/
def depth : DataType → Nat
  | object properties rest _ _ => 1 + max (depthProperties properties) rest.depth
  | array front rest _ _ => 1 + max (depthEach front) rest.depth
  | union ms _ => depthEach ms
  | _ => 0

def depthProperties : List (String × DataType) → Nat
  | [] => 0
  | (_, t) :: rest => max t.depth (depthProperties rest)

def depthEach : List DataType → Nat
  | [] => 0
  | t :: rest => max t.depth (depthEach rest)

end

/-- What is at most `levels` inside the values of a type. -/
def descendantsWithin : Nat → DataType → DataType
  | 0 => mapMembers fun t => if t.isAny then top else bottom
  | levels + 1 => mapMembers fun t =>
    if t.isAny then top
    else
      let inside := memberChildren t
      if inside.isNever then inside else unionOf [inside, descendantsWithin levels inside]

/-- Everything inside the values of a type. A child has less depth than its parent. -/
def descendants (t : DataType) : DataType := descendantsWithin t.depth t

end JsonPath.DataType
