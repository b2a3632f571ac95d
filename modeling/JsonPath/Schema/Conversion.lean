import JsonPath.DataType
import JsonPath.Location

/-!
Conversion of schema documents to types. It never fails: what a type cannot express widens
the result, which is then not exact. How the type of a schema is made from those of others is a
plan. The schemas of a document are known by their locations, each is converted once, and one
that is met again inside itself may be anything.
-/

namespace JsonPath

/-- A type that describes at least the values that a schema accepts, and whether it is known
to describe no others. -/
structure Converted where
  type : DataType
  exact : Bool

/-- A schema that is being converted, and whether its result is exact so far. -/
structure Pending where
  location : Location
  exact : Bool

/-- The conversions made so far and those going on, the innermost first. -/
structure Conversion where
  finished : List (Location × Converted)
  pending : List Pending

/-- How something is made of the schemas of a document: step by step it becomes known that the
result is not exact, or the type of a schema is needed. -/
inductive Plan (α : Type) where
  | done (result : α)
  | widening (next : Plan α)
  | asking (location : Location) (schema : Json) (next : DataType → Plan α)

namespace Plan

/-- A plan, and another that depends on what the first one makes. -/
def bind {α β : Type} : Plan α → (α → Plan β) → Plan β
  | done result, f => f result
  | widening next, f => widening (next.bind f)
  | asking l v next, f => asking l v fun t => (next t).bind f

instance : Monad Plan where
  pure := done
  bind := bind

/-- The result is not exact. -/
def widen : Plan Unit := widening (done ())

/-- The result is not exact if a condition holds. -/
def widenIf (condition : Bool) : Plan Unit := if condition then widen else return ()

/-- The type of the schema at a location. -/
def node (l : Location) (v : Json) : Plan DataType := asking l v done

/-- Anything, which is not exact. -/
def anything : Plan DataType := do
  widen
  return .top

end Plan

/-- A step of a conversion. -/
abbrev Convert := StateM Conversion

namespace Conversion

def start : Conversion := ⟨[], []⟩

/-- The innermost result is not exact. -/
def widen (c : Conversion) : Conversion :=
  match c.pending with
  | [] => c
  | p :: rest => { c with pending := { p with exact := false } :: rest }

/-- No result that is going on is exact. -/
def widenAll (c : Conversion) : Conversion :=
  { c with pending := c.pending.map fun p => { p with exact := false } }

def isPending (c : Conversion) (l : Location) : Bool := c.pending.any fun p => p.location = l

def finished? (c : Conversion) (l : Location) : Option Converted := c.finished.lookup l

def enter (c : Conversion) (l : Location) : Conversion :=
  { c with pending := ⟨l, true⟩ :: c.pending }

/-- Ends the innermost conversion with its type. A result that is not exact makes the one
around it not exact either. -/
def leave (c : Conversion) (type : DataType) : Converted × Conversion :=
  match c.pending with
  | [] => (⟨type, false⟩, c)
  | p :: rest =>
    let result : Converted := ⟨type, p.exact⟩
    let c : Conversion := ⟨(p.location, result) :: c.finished, rest⟩
    (result, if p.exact then c else c.widen)

end Conversion

namespace Convert

def widen : Convert Unit := modify Conversion.widen

/-- What a plan makes, with `target` converting the schemas that it asks for. -/
def follow {α : Type} (target : Location → Json → Convert DataType) : Plan α → Convert α
  | .done result => return result
  | .widening next => do
    widen
    follow target next
  | .asking l v next => do
    follow target (next (← target l v))

/-- The type of the schema at a location, which `convert` makes when it is needed. -/
def node (l : Location) (convert : Convert DataType) : Convert Converted := do
  let c ← get
  match c.finished? l with
  | some result =>
    if !result.exact then widen
    return result
  | none =>
    if c.isPending l then
      set c.widenAll
      return ⟨.top, false⟩
    else
      set (c.enter l)
      let type ← convert
      modifyGet fun c => c.leave type

/-- The conversion of the schema at a location by its plan, with at most `depth` schemas inside
each other. -/
def within (plan : Location → Json → Plan DataType) : Nat → Location → Json → Convert Converted
  | 0, _, _ => return ⟨.top, false⟩
  | depth + 1, l, v =>
    node l (follow (fun l v => return (← within plan depth l v).type) (plan l v))

end Convert

namespace Annotations

/-- The notes that the members of a schema hold. -/
def ofMembers (members : Fields Json) : Annotations :=
  let text (name : String) : Option String := (members.get? name).bind Json.asString?
  let flag (name : String) : Bool := ((members.get? name).bind Json.asBool?).getD false
  {
    title := text "title"
    description := text "description"
    deprecated := flag "deprecated"
    readOnly := flag "readOnly"
    writeOnly := flag "writeOnly"
    default := members.get? "default"
    examples := ((members.get? "examples").bind Json.asArray?).getD []
  }

end Annotations

/-- The type with notes added, which take precedence over its own. The empty type takes
none. -/
def DataType.annotate (t : DataType) (notes : Annotations) : DataType :=
  if notes.isEmpty || t.isNever then t else t.withNotes (notes.merge t.notes)

end JsonPath
