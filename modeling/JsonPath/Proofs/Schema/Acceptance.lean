import JsonPath.Proofs.Json.Same
import JsonPath.Schema.JsonSchema

/-!
The values that a JSON Schema accepts, by the 2020-12 draft. Each keyword demands something of a
value, of its own or of what other schemas say about the value and its parts. A schema accepts a
value if all that it demands is met, and rejects the value if something is not. Neither is the case
if that is never decided, as when a schema does nothing but refer to itself, or when a keyword is
not one of those that a type expresses.
-/

namespace JsonPath

/-- The number has no fraction. -/
def Number.isWhole : Number → Bool
  | .int _ _ => true
  | .double d => d.magnitude % 2 ^ 1074 = 0

/-- The number is not above a count. -/
def Number.atMost (count : Nat) : Number → Bool
  | .int n _ => n ≤ count
  | .double d => d.units ≤ count * 2 ^ 1074

namespace JsonSchema

/-- What is demanded of a value: something that is known to hold or not, that a schema accepts a
value, or a combination of demands. What a keyword demands may be unknown. -/
inductive Demand where
  | holds (b : Bool)
  | schema (location : Location) (schema value : Json)
  | all (demands : List Demand)
  | any (demands : List Demand)
  | one (demands : List Demand)
  | not (demand : Demand)
  | unknown

/-- The value is of the type called `name`. -/
def typeDemand (value : Json) (name : String) : Demand :=
  match name with
  | "null" => .holds (Primitive.of? value = some .null)
  | "boolean" => .holds (Primitive.of? value = some .boolean)
  | "number" => .holds (Primitive.of? value = some .number)
  | "string" => .holds (Primitive.of? value = some .string)
  | "integer" =>
    match value with
    | .number n => .holds n.isWhole
    | _ => .holds false
  | "array" => .holds value.asArray?.isSome
  | "object" => .holds value.asObject?.isSome
  | _ => .unknown

/-- The value is accepted by the schemas of a list, at the location, in turn. -/
def listDemands (l : Location) (schemas : List Json) (value : Json) : List Demand :=
  schemas.zipIdx.map fun (v, i) => .schema (l ++ [.index i]) v value

/-- The members of an object that have schemas of their own are accepted by these. -/
def propertiesDemand (l : Location) (properties : Fields Json) : Json → Demand
  | .object values => .all (properties.map fun (name, v) =>
      match Fields.get? values name with
      | some value => .schema (l ++ [.name name]) v value
      | none => .holds true)
  | _ => .holds true

/-- An object has the member. -/
def requiredDemand (name : String) : Json → Demand
  | .object values => .holds (Fields.contains values name)
  | _ => .holds true

/-- The members of an object other than some are accepted by a schema. -/
def otherPropertiesDemand (l : Location) (properties : Fields Json) (v : Json) : Json → Demand
  | .object values => .all (values.map fun (name, value) =>
      if properties.contains name then .holds true else .schema l v value)
  | _ => .holds true

/-- The first elements of an array are accepted by the schemas of a list. -/
def prefixDemand (l : Location) (schemas : List Json) : Json → Demand
  | .array values => .all (schemas.zipIdx.map fun (v, i) =>
      match values[i]? with
      | some value => .schema (l ++ [.index i]) v value
      | none => .holds true)
  | _ => .holds true

/-- The elements of an array are accepted by a schema, from a position on. -/
def itemsDemand (l : Location) (start : Nat) (v : Json) : Json → Demand
  | .array values => .all ((values.drop start).map fun value => .schema l v value)
  | _ => .holds true

/-- An array has enough elements. -/
def countDemand (minimum : Number) : Json → Demand
  | .array values => .holds (minimum.atMost values.length)
  | _ => .holds true

/-- Keywords that demand nothing. -/
def annotations : List String :=
  ["$schema", "$id", "$anchor", "$defs", "definitions", "$comment", "title", "description",
    "deprecated", "readOnly", "writeOnly", "default", "examples"]

/-- What a keyword of the schema at a location demands of a value. -/
def Document.keywordDemand (d : Document) (l : Location) (members : Fields Json) (value : Json)
    (keyword : String) (v : Json) : Demand :=
  let inside := l ++ [.name keyword]
  match keyword with
  | "type" =>
    match v with
    | .string name => typeDemand value name
    | .array names => .any (names.map fun
        | .string name => typeDemand value name
        | _ => .unknown)
    | _ => .unknown
  | "enum" =>
    match v with
    | .array values => .holds (values.any fun v => value.same v)
    | _ => .unknown
  | "const" => .holds (value.same v)
  | "properties" =>
    match v with
    | .object properties => propertiesDemand inside properties value
    | _ => .unknown
  | "required" =>
    match v with
    | .array names => .all (names.map fun
        | .string name => requiredDemand name value
        | _ => .unknown)
    | _ => .unknown
  | "additionalProperties" =>
    if members.contains "patternProperties" then .unknown
    else otherPropertiesDemand inside
      (((members.get? "properties").bind Json.asObject?).getD []) v value
  | "prefixItems" =>
    match v with
    | .array schemas => prefixDemand inside schemas value
    | _ => .unknown
  | "items" =>
    itemsDemand inside (((members.get? "prefixItems").bind Json.asArray?).getD []).length v value
  | "minItems" =>
    match v with
    | .number n => countDemand n value
    | _ => .unknown
  | "allOf" =>
    match v with
    | .array schemas => .all (listDemands inside schemas value)
    | _ => .unknown
  | "anyOf" =>
    match v with
    | .array schemas => .any (listDemands inside schemas value)
    | _ => .unknown
  | "oneOf" =>
    match v with
    | .array schemas => .one (listDemands inside schemas value)
    | _ => .unknown
  | "not" => .not (.schema inside v value)
  | "$ref" =>
    match v with
    | .string reference =>
      match d.resolve? l reference with
      | some (target, v) => .schema target v value
      | none => .holds true
    | _ => .unknown
  | _ => if annotations.contains keyword then .holds true else .unknown

/-- What the schema at a location demands of a value. -/
def Document.demand (d : Document) (l : Location) (v value : Json) : Demand :=
  match v with
  | .bool b => .holds b
  | .object members =>
    .all (members.map fun (keyword, v) => d.keywordDemand l members value keyword v)
  | _ => .unknown

/-- It is decided whether a demand is met. One demand that is met decides that some are, and one
that is not decides that not all are, whatever the others come to. -/
inductive Document.Decides (d : Document) : Demand → Bool → Prop
  | holds (b : Bool) : Decides d (.holds b) b
  | schema {l : Location} {v value : Json} {b : Bool} (demand : Decides d (d.demand l v value) b) :
      Decides d (.schema l v value) b
  | all {demands : List Demand} (each : ∀ x ∈ demands, Decides d x true) :
      Decides d (.all demands) true
  | notAll {demands : List Demand} {x : Demand} (mem : x ∈ demands) (unmet : Decides d x false) :
      Decides d (.all demands) false
  | any {demands : List Demand} {x : Demand} (mem : x ∈ demands) (met : Decides d x true) :
      Decides d (.any demands) true
  | notAny {demands : List Demand} (each : ∀ x ∈ demands, Decides d x false) :
      Decides d (.any demands) false
  | one {demands : List Demand} {verdicts : List Bool} (length : verdicts.length = demands.length)
      (each : ∀ (i : Nat) (x : Demand) (b : Bool), demands[i]? = some x → verdicts[i]? = some b →
        Decides d x b) :
      Decides d (.one demands) (verdicts.count true == 1)
  | not {demand : Demand} {b : Bool} (decided : Decides d demand b) : Decides d (.not demand) !b

/-- The schema at a location accepts the value. -/
def Document.Accepts (d : Document) (l : Location) (v value : Json) : Prop :=
  d.Decides (.schema l v value) true

/-- The schema at a location rejects the value. -/
def Document.Rejects (d : Document) (l : Location) (v value : Json) : Prop :=
  d.Decides (.schema l v value) false

/-- A schema of the document: the document itself, what a schema holds at keywords for schemas, and
what it refers to. -/
inductive Document.Schema (d : Document) : Location → Json → Prop
  | root : Schema d [] d.root
  | member {l : Location} {members : Fields Json} {keyword : String} {v : Json}
      (outer : Schema d l (.object members)) (known : keyword ∈ schemaKeywords)
      (mem : members.get? keyword = some v) : Schema d (l ++ [.name keyword]) v
  | item {l : Location} {members : Fields Json} {keyword : String} {items : List Json} {i : Nat}
      {v : Json} (outer : Schema d l (.object members)) (known : keyword ∈ listKeywords)
      (mem : members.get? keyword = some (.array items)) (mem' : items[i]? = some v) :
      Schema d (l ++ [.name keyword, .index i]) v
  | named {l : Location} {members named : Fields Json} {keyword name : String} {v : Json}
      (outer : Schema d l (.object members)) (known : keyword ∈ mapKeywords)
      (mem : members.get? keyword = some (.object named)) (mem' : named.get? name = some v) :
      Schema d (l ++ [.name keyword, .name name]) v
  | referred {l target : Location} {members : Fields Json} {reference : String} {v : Json}
      (outer : Schema d l (.object members)) (mem : members.get? "$ref" = some (.string reference))
      (leads : d.resolve? l reference = some (target, v)) : Schema d target v

def isStrings (v : Json) : Bool := (v.asArray?.map fun vs => vs.all (·.asString?.isSome)).getD false

/-- The keyword has a value of the kind that it requires. The least number of elements is written
as a whole number. -/
def isWellKinded (keyword : String) (v : Json) : Bool :=
  match keyword with
  | "type" => v.asString?.isSome || isStrings v
  | "required" => isStrings v
  | "minItems" =>
    match v with
    | .number n => n.toInt?.isSome
    | _ => false
  | _ =>
    if ["$schema", "$id", "$anchor", "$ref", "$comment", "title", "description"].contains keyword
    then v.asString?.isSome
    else if ["deprecated", "readOnly", "writeOnly"].contains keyword then v.asBool?.isSome
    else if ["enum", "examples", "prefixItems", "allOf", "anyOf", "oneOf"].contains keyword
    then v.asArray?.isSome
    else if mapKeywords.contains keyword then v.asObject?.isSome
    else true

/-- All schemas of the document are truth values or objects whose keywords have the kinds that
they require. -/
structure Document.WellFormed (d : Document) : Prop where
  schema : ∀ l v, d.Schema l v → v.asBool?.isSome = true ∨ v.asObject?.isSome = true
  keyword : ∀ l (members : Fields Json), d.Schema l (.object members) → ∀ keyword v,
    members.get? keyword = some v → isWellKinded keyword v = true

/-- All schemas of the document are truth values or objects whose keywords have the kinds that
they require, but the least number of elements may be any number, also one that is not written as
a whole number. -/
structure Document.LooselyFormed (d : Document) : Prop where
  schema : ∀ l v, d.Schema l v → v.asBool?.isSome = true ∨ v.asObject?.isSome = true
  keyword : ∀ l (members : Fields Json), d.Schema l (.object members) → ∀ keyword v,
    members.get? keyword = some v →
      isWellKinded keyword v = true ∨ keyword = "minItems" ∧ ∃ n, v = .number n

theorem Document.WellFormed.loosely {d : Document} (h : d.WellFormed) : d.LooselyFormed where
  schema := h.schema
  keyword l members hschema keyword v hv := .inl (h.keyword l members hschema keyword v hv)

section Decides

variable {d : Document} {demands : List Demand} {x : Demand} {b : Bool}

theorem decides_holds {c : Bool} : d.Decides (.holds c) b ↔ b = c := by
  constructor
  · intro h
    cases h
    rfl
  · rintro rfl
    exact .holds b

theorem not_decides_unknown : ¬ d.Decides .unknown b := nofun

theorem decides_schema {l : Location} {v value : Json} :
    d.Decides (.schema l v value) b ↔ d.Decides (d.demand l v value) b := by
  constructor
  · intro h
    cases h with
    | schema h => exact h
  · exact .schema

theorem decides_all_true : d.Decides (.all demands) true ↔ ∀ x ∈ demands, d.Decides x true := by
  constructor
  · intro h
    cases h with
    | all h => exact h
  · exact .all

theorem decides_all_false : d.Decides (.all demands) false ↔ ∃ x ∈ demands, d.Decides x false := by
  constructor
  · intro h
    cases h with
    | notAll hmem h => exact ⟨_, hmem, h⟩
  · rintro ⟨x, hmem, h⟩
    exact .notAll hmem h

theorem decides_any_true : d.Decides (.any demands) true ↔ ∃ x ∈ demands, d.Decides x true := by
  constructor
  · intro h
    cases h with
    | any hmem h => exact ⟨_, hmem, h⟩
  · rintro ⟨x, hmem, h⟩
    exact .any hmem h

theorem decides_any_false : d.Decides (.any demands) false ↔ ∀ x ∈ demands, d.Decides x false := by
  constructor
  · intro h
    cases h with
    | notAny h => exact h
  · exact .notAny

theorem decides_not : d.Decides (.not x) b ↔ d.Decides x !b := by
  constructor
  · intro h
    cases h with
    | not h => rwa [Bool.not_not]
  · intro h
    have hnot := Document.Decides.not h
    rwa [Bool.not_not] at hnot

/-- Of a single demand one is met if it is met. -/
theorem decides_one_singleton : d.Decides (.one [x]) b ↔ d.Decides x b := by
  constructor
  · intro h
    cases h with
    | @one _ verdicts hlength heach =>
      obtain ⟨c, rfl⟩ := List.length_eq_one_iff.mp hlength
      have hc := heach 0 x c rfl rfl
      cases c <;> exact hc
  · intro h
    have hone : d.Decides (.one [x]) ([b].count true == 1) := by
      refine .one rfl ?_
      intro i y c hy hc
      cases i with
      | zero =>
        cases hy
        cases hc
        exact h
      | succ i => cases hy
    cases b <;> exact hone

/-- If exactly one demand is met, one is. -/
theorem exists_of_decides_one (h : d.Decides (.one demands) b) (hb : b = true) :
    ∃ x ∈ demands, d.Decides x true := by
  cases h with
  | one hlength heach =>
    have hcount := List.count_pos_iff.mp (by rw [beq_iff_eq.mp hb]; exact Nat.one_pos)
    obtain ⟨i, hi, htrue⟩ := List.getElem_of_mem hcount
    have hverdict := List.getElem?_eq_getElem hi
    rw [htrue] at hverdict
    rw [hlength] at hi
    exact ⟨_, List.getElem_mem hi, heach i _ true (List.getElem?_eq_getElem hi) hverdict⟩

/-- A demand is not decided both ways. -/
theorem Document.Decides.unique {c : Bool} (hb : d.Decides x b) (hc : d.Decides x c) : b = c := by
  induction hb generalizing c with
  | holds => exact (decides_holds.mp hc).symm
  | schema _ ih => exact ih (decides_schema.mp hc)
  | all _ ih =>
    cases hc with
    | all => rfl
    | notAll hmem hunmet => exact ih _ hmem hunmet
  | notAll hmem _ ih =>
    cases hc with
    | all heach => exact ih (heach _ hmem)
    | notAll => rfl
  | any hmem _ ih =>
    cases hc with
    | any => rfl
    | notAny heach => exact ih (heach _ hmem)
  | notAny _ ih =>
    cases hc with
    | any hmem hmet => exact ih _ hmem hmet
    | notAny => rfl
  | @one demands verdicts hlength _ ih =>
    cases hc with
    | @one _ verdicts' hlength' heach =>
      suffices verdicts = verdicts' by rw [this]
      refine List.ext_getElem (hlength.trans hlength'.symm) ?_
      intro i hi hi'
      have hdemand := List.getElem?_eq_getElem (hlength ▸ hi)
      exact ih i _ _ hdemand (List.getElem?_eq_getElem hi)
        (heach i _ _ hdemand (List.getElem?_eq_getElem hi'))
  | not _ ih =>
    cases hc with
    | not h => rw [ih h]

end Decides

end JsonSchema

end JsonPath
