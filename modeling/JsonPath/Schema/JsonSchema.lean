import JsonPath.DataType.Algebra
import JsonPath.Location.Pointer
import JsonPath.Schema.Conversion
import JsonPath.Url.Reader

/-!
Types from JSON Schema documents. References are resolved against the base of the schema
they stand in: to a resource, to an anchor, or along a pointer from a resource.
-/

namespace JsonPath.JsonSchema

/-- Keywords that a type expresses or that accept all values. -/
def supported : List String :=
  ["$schema", "$id", "$anchor", "$defs", "definitions", "$ref", "$comment", "title",
    "description", "deprecated", "readOnly", "writeOnly", "default", "examples", "type",
    "enum", "const", "properties", "required", "additionalProperties", "items",
    "prefixItems", "minItems", "allOf", "anyOf", "oneOf", "not"]

/-- Keywords whose value is a schema. -/
def schemaKeywords : List String :=
  ["additionalProperties", "items", "not", "if", "then", "else", "contains",
    "propertyNames", "unevaluatedItems", "unevaluatedProperties"]

/-- Keywords whose value is a list of schemas. -/
def listKeywords : List String := ["prefixItems", "allOf", "anyOf", "oneOf", "items"]

/-- Keywords whose value maps names to schemas. -/
def mapKeywords : List String :=
  ["$defs", "definitions", "properties", "patternProperties", "dependentSchemas"]

/-- Keywords that say something about the parts of arrays and objects. -/
def structural : List String :=
  ["properties", "required", "additionalProperties", "items", "prefixItems", "minItems"]

/-! ### The schemas of a document -/

/-- A schema of a document: the base of its references, and the URLs it may be referred to
by. -/
structure Entry where
  location : Location
  base : Url
  resource : Option Url
  anchor : Option Url

/-- The base inside a schema: its own identifier, relative to the base around it. -/
def baseOf (base : Url) (members : Fields Json) : Url :=
  match (members.get? "$id").bind Json.asString? with
  | some id => (Url.read? (some base) id).getD base
  | none => base

/-- The entry of a schema that is an object, given the base inside it. -/
def entryOf (l : Location) (base : Url) (members : Fields Json) : Entry :=
  let resource := base.withoutFragment
  let anchor := (members.get? "$anchor").bind Json.asString?
  ⟨l, base, some resource, anchor.map fun a => resource.withFragment a.toList⟩

mutual

/-- The schemas at and inside a schema, each before those inside it. -/
def entries (l : Location) (base : Url) : Json → List Entry
  | .object members =>
    let base := baseOf base members
    entryOf l base members :: memberEntries l base members
  | _ => [⟨l, base, none, none⟩]

/-- The schemas inside the members of a schema. -/
def memberEntries (l : Location) (base : Url) : List (String × Json) → List Entry
  | [] => []
  | (keyword, .array items) :: rest =>
    (if listKeywords.contains keyword then
      itemEntries (l ++ [.name keyword]) base 0 items else []) ++ memberEntries l base rest
  | (keyword, .object members) :: rest =>
    (if schemaKeywords.contains keyword then
      entries (l ++ [.name keyword]) base (.object members)
    else if mapKeywords.contains keyword then
      namedEntries (l ++ [.name keyword]) base members else []) ++ memberEntries l base rest
  | (keyword, value) :: rest =>
    (if schemaKeywords.contains keyword then
      entries (l ++ [.name keyword]) base value else []) ++ memberEntries l base rest

def itemEntries (l : Location) (base : Url) (i : Nat) : List Json → List Entry
  | [] => []
  | item :: rest => entries (l ++ [.index i]) base item ++ itemEntries l base (i + 1) rest

def namedEntries (l : Location) (base : Url) : List (String × Json) → List Entry
  | [] => []
  | (name, value) :: rest => entries (l ++ [.name name]) base value ++ namedEntries l base rest

end

/-- The base of a document for which none is given. -/
def defaultBase : Url where
  scheme := "memory"
  authority := { Url.Authority.none with host := some (.domain "schema") }
  path := .rooted "/root.json"
  query := none
  fragment := none

/-- A document of schemas. -/
structure Document where
  root : Json
  entries : List Entry

/-- A document with a base, which has to be a URL to count. -/
def Document.ofJson (root : Json) (base : Option String) : Document :=
  ⟨root, JsonSchema.entries [] ((base.bind (Url.read? none)).getD defaultBase) root⟩

namespace Document

/-- The first schema that is a resource of a URL. -/
def resource? (d : Document) (url : Url) : Option Location :=
  (d.entries.find? fun e => e.resource = some url).map (·.location)

/-- The last schema with an anchor. -/
def anchor? (d : Document) (url : Url) : Option Location :=
  (d.entries.reverse.find? fun e => e.anchor = some url).map (·.location)

/-- The schema that a reference in the schema at a location leads to. -/
def resolve? (d : Document) (l : Location) (reference : String) :
    Option (Location × Json) := do
  let entry ← d.entries.find? fun e => e.location = l
  let url ← Url.read? (some entry.base) reference
  let fragment := (url.fragment.getD "").toList
  if fragment.isEmpty then
    let target ← d.resource? url.withoutFragment
    return (target, ← d.root.at? target)
  else if fragment.head? = some '/' then
    let start ← d.resource? url.withoutFragment
    let (location, v) ← (← d.root.at? start).pointer? (Text.percentDecode fragment)
    return (start ++ location, v)
  else
    let target ← d.anchor? url
    return (target, ← d.root.at? target)

end Document

/-! ### Conversion -/

/-- The conversion of a schema inside the one at hand, given its steps from there. -/
abbrev Inside := List Step → Json → Plan DataType

/-- The types of the schemas in a list. -/
def itemTypes (inside : Inside) (keyword : String) (items : List Json) :
    Plan (List DataType) :=
  items.zipIdx.mapM fun (item, i) => inside [.name keyword, .index i] item

/-- The type of the schema that is a member, or anything without it. -/
def memberType (inside : Inside) (members : Fields Json) (keyword : String) : Plan DataType :=
  match members.get? keyword with
  | some v => inside [.name keyword] v
  | none => return .top

/-- The objects that a schema accepts. -/
def objectType (inside : Inside) (members : Fields Json) : Plan DataType := do
  let properties ← (((members.get? "properties").bind Json.asObject?).getD []).mapM
    fun (name, v) => return (name, ← inside [.name "properties", .name name] v)
  let required := (((members.get? "required").bind Json.asArray?).getD []).filterMap
    Json.asString?
  let rest ← memberType inside members "additionalProperties"
  return .ofObject properties rest required

/-- The arrays that a schema accepts. A list of `items` describes elements by position, if
nothing else does. -/
def arrayType (inside : Inside) (members : Fields Json) : Plan DataType := do
  let front ← itemTypes inside "prefixItems"
    (((members.get? "prefixItems").bind Json.asArray?).getD [])
  let minimum := match members.get? "minItems" with
    | some (.number n) => n.toNat?.getD 0
    | _ => 0
  match members.get? "items" with
  | some (.array items) =>
    if front.isEmpty then return .ofArray (← itemTypes inside "items" items) .top minimum
    else return .ofArray front (← memberType inside members "items") minimum
  | _ => return .ofArray front (← memberType inside members "items") minimum

/-- The values of the type called `name` that a schema accepts. Whole numbers are not told
apart from others. -/
def namedType (inside : Inside) (members : Fields Json) (name : String) : Plan DataType :=
  match name with
  | "null" => return .ofPrimitive .null
  | "boolean" => return .ofPrimitive .boolean
  | "number" => return .ofPrimitive .number
  | "integer" => do
    Plan.widen
    return .ofPrimitive .number
  | "string" => return .ofPrimitive .string
  | "array" => arrayType inside members
  | "object" => objectType inside members
  | _ => Plan.anything

/-- What a schema accepts by the types it names, or by its structural keywords. -/
def statedType (inside : Inside) (members : Fields Json) : Plan DataType :=
  match members.get? "type" with
  | some (.string name) => namedType inside members name
  | some (.array names) => do
    return .unionOf (← (names.filterMap Json.asString?).mapM (namedType inside members))
  | some _ => Plan.anything
  | none => do
    if structural.any members.contains then
      let arrays ← arrayType inside members
      let objects ← objectType inside members
      return .unionOf [.ofPrimitive .null, .ofPrimitive .boolean, .ofPrimitive .number,
        .ofPrimitive .string, arrays, objects]
    else return .top

/-- The type without the values of a schema, which is exact if none of them is left. -/
def excluding (inside : Inside) (members : Fields Json) (t : DataType) :
    Plan DataType := do
  match members.get? "not" with
  | none => return t
  | some v =>
    let excluded ← inside [.name "not"] v
    let left := t.subtract excluded
    Plan.widenIf !(left.intersect excluded).isNever
    return left

/-- The type restricted by what a reference leads to. -/
def referring (d : Document) (l : Location) (members : Fields Json) (t : DataType) :
    Plan DataType := do
  match (members.get? "$ref").bind Json.asString? with
  | none => return t
  | some reference =>
    match d.resolve? l reference with
    | some (location, v) => return t.intersect (← Plan.node location v)
    | none =>
      Plan.widen
      return t

/-- The type of a list of schemas, one of which has to accept a value. -/
def anyType (inside : Inside) (keyword : String) (schemas : List Json) : Plan DataType :=
  .unionOf <$> itemTypes inside keyword schemas

/-- The type restricted by the lists of schemas. That only one schema of `oneOf` may accept
a value is not expressed. -/
def combining (inside : Inside) (members : Fields Json) (t : DataType) :
    Plan DataType := do
  let list (keyword : String) : Option (List Json) :=
    (members.get? keyword).bind Json.asArray?
  let all ← itemTypes inside "allOf" ((list "allOf").getD [])
  let any ← (list "anyOf").mapM (anyType inside "anyOf")
  Plan.widenIf ((list "oneOf").any fun schemas => 1 < schemas.length)
  let one ← (list "oneOf").mapM (anyType inside "oneOf")
  return (all ++ any.toList ++ one.toList).foldl .intersect t

/-- The type restricted to given values. -/
def restricted (members : Fields Json) (t : DataType) : DataType :=
  let t := match (members.get? "enum").bind Json.asArray? with
    | some values => t.intersect (.unionOf (values.map .ofJson))
    | none => t
  match members.get? "const" with
  | some value => t.intersect (.ofJson value)
  | none => t

/-- The type of the schema at a location. -/
def schemaType (d : Document) (l : Location) : Json → Plan DataType
  | .bool true => return .top
  | .bool false => return .bottom
  | .object members => do
    let inside : Inside := fun steps v => Plan.node (l ++ steps) v
    Plan.widenIf ((Fields.names members).any fun k => !supported.contains k)
    let t ← statedType inside members
    let t ← combining inside members (restricted members t)
    let t ← referring d l members t
    let t ← excluding inside members t
    return t.annotate (.ofMembers members)
  | _ => Plan.anything

namespace Document

/-- The conversion of the schema at a location. Schemas that are inside each other are at
different locations, so they are no more than the values of the document. -/
def convert (d : Document) (l : Location) (v : Json) : Convert Converted :=
  Convert.within (schemaType d) (d.root.size + 1) l v

/-- The type of the whole document. -/
def converted (d : Document) : Converted := ((d.convert [] d.root).run .start).1

end Document

end JsonPath.JsonSchema
