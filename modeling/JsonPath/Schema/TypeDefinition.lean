import JsonPath.DataType.Algebra
import JsonPath.Schema.Conversion

/-!
Types from JSON Type Definition documents. A schema has one of eight forms, told by its
keywords, and may add null to what the form accepts.
-/

namespace JsonPath.TypeDefinition

def keywords : List String :=
  ["metadata", "nullable", "definitions", "type", "enum", "elements", "properties",
    "optionalProperties", "additionalProperties", "values", "discriminator", "mapping", "ref"]

/-- The conversion of a schema inside the one at hand, given its steps from there. -/
abbrev Inside := List Step → Json → Plan DataType

/-- The values of a type name. Ranges of whole numbers are not expressed. -/
def namedType (name : String) : Plan DataType :=
  if name = "boolean" then return .ofPrimitive .boolean
  else if name = "string" || name = "timestamp" then return .ofPrimitive .string
  else if name = "float32" || name = "float64" then return .ofPrimitive .number
  else if ["int8", "uint8", "int16", "uint16", "int32", "uint32"].contains name then do
    Plan.widen
    return .ofPrimitive .number
  else Plan.anything

/-- The types of the schemas that a member maps names to. -/
def namedTypes (inside : Inside) (members : Fields Json) (keyword : String) :
    Plan (List (String × DataType)) :=
  (((members.get? keyword).bind Json.asObject?).getD []).mapM fun (name, v) =>
    return (name, ← inside [.name keyword, .name name] v)

/-- Objects with required and optional members; others only if they are allowed. -/
def propertiesType (inside : Inside) (members : Fields Json) : Plan DataType := do
  let required ← namedTypes inside members "properties"
  let optional ← namedTypes inside members "optionalProperties"
  let properties := optional.foldl (fun ps p => Fields.insert ps p.1 p.2) required
  let rest := match members.get? "additionalProperties" with
    | some (.bool true) => DataType.top
    | _ => .bottom
  return .ofObject properties rest (Fields.names required)

/-- A schema that may be chosen by a tag: one of objects with given members, not null. -/
def isVariant (v : Json) : Bool :=
  ((v.member? "properties").isSome || (v.member? "optionalProperties").isSome) &&
    !((v.member? "nullable").bind Json.asBool?).getD false

/-- Objects with a required tag of a given value in front of their members. -/
def taggedObject (tag key : String) : DataType → DataType
  | .object properties rest required notes =>
    let others := properties.filter fun p => p.1 ≠ tag
    (DataType.ofObject ((tag, .literal (.string key) {}) :: others) rest
      (required ++ [tag])).withNotes notes
  | t => t

mutual

/-- The type with a tag added to the objects among its members. -/
def tagged (tag key : String) : DataType → DataType
  | .union ms _ => .unionOf (taggedEach tag key ms)
  | t => taggedObject tag key t

def taggedEach (tag key : String) : List DataType → List DataType
  | [] => []
  | t :: rest => tagged tag key t :: taggedEach tag key rest

end

/-- The type of a tagged choice between schemas. -/
def choiceType (inside : Inside) (members : Fields Json) (tag : String) :
    Plan DataType := do
  let variants ← (((members.get? "mapping").bind Json.asObject?).getD []).mapM
    fun (key, v) => do
      Plan.widenIf !isVariant v
      return tagged tag key (← inside [.name "mapping", .name key] v)
  return .unionOf variants

/-- The location and the schema of a definition. -/
def definition? (root : Json) (name : String) : Option (Location × Json) := do
  let v ← (← root.member? "definitions").member? name
  return ([.name "definitions", .name name], v)

/-- The type of the form of a schema. -/
def formType (root : Json) (inside : Inside) (members : Fields Json) : Plan DataType :=
  let text (name : String) : Option String := (members.get? name).bind Json.asString?
  match text "ref", text "type", (members.get? "enum").bind Json.asArray?,
    members.get? "elements" with
  | some name, _, _, _ =>
    match definition? root name with
    | some (location, v) => Plan.node location v
    | none => Plan.anything
  | none, some name, _, _ => namedType name
  | none, none, some values, _ =>
    return .unionOf ((values.filter fun v => v.asString?.isSome).map .ofJson)
  | none, none, none, some v => return .arrayOf (← inside [.name "elements"] v)
  | none, none, none, none =>
    if members.contains "properties" || members.contains "optionalProperties" then
      propertiesType inside members
    else
      match members.get? "values", text "discriminator" with
      | some v, _ => return .recordOf (← inside [.name "values"] v)
      | none, some tag => choiceType inside members tag
      | none, none => return .top

/-- The type of the schema at a location. -/
def schemaType (root : Json) (l : Location) : Json → Plan DataType
  | .object members => do
    Plan.widenIf ((Fields.names members).any fun k => !keywords.contains k)
    let t ← formType root (fun steps v => Plan.node (l ++ steps) v) members
    let t := match Fields.get? members "nullable" with
      | some (.bool true) => DataType.unionOf [t, .ofPrimitive .null]
      | _ => t
    match (Fields.get? members "metadata").bind Json.asObject? with
    | some notes => return t.annotate (.ofMembers notes)
    | none => return t
  | _ => Plan.anything

/-- The conversion of the schema at a location of a document. Schemas that are inside each
other are at different locations, so they are no more than the values of the document. -/
def convert (root : Json) (l : Location) (v : Json) : Convert Converted :=
  Convert.within (schemaType root) (root.size + 1) l v

/-- The type of a whole document. -/
def converted (root : Json) : Converted := ((convert root [] root).run .start).1

end JsonPath.TypeDefinition
