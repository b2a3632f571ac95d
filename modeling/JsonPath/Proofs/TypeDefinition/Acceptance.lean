import JsonPath.Proofs.Schema.Acceptance
import JsonPath.Proofs.TypeDefinition.Timestamp
import JsonPath.Schema.TypeDefinition

/-!
The values that a type definition accepts, by RFC 8927. A schema has one of eight forms, told by its
keywords. Every form says which values the schema accepts by its own data and by what the schemas
inside it accept, and a nullable schema accepts null besides. The tag that chooses a schema is not
counted among the additional properties of an object.
-/

namespace JsonPath

/-- The number has no fraction and lies between two whole numbers, which it may equal. -/
def Number.isWholeWithin (low high : Int) : Number → Bool
  | .int n _ => low ≤ n && n ≤ high
  | .double d =>
    d.magnitude % 2 ^ 1074 = 0 && low * 2 ^ 1074 ≤ d.units && d.units ≤ high * 2 ^ 1074

namespace TypeDefinition

/-- The form of a schema, with the schemas inside it. -/
inductive Form where
  | empty
  | ref (name : String)
  | type (name : String)
  | enum (texts : List String)
  | elements (schema : Json)
  | properties (required optional : Fields Json) (additional : Bool)
  | values (schema : Json)
  | discriminator (tag : String) (mapping : Fields Json)

/-- The object has no keywords but those that all forms share and some others. -/
def HasOnly (members : Fields Json) (others : List String) : Prop :=
  ∀ keyword ∈ members.names, keyword ∈ ["definitions", "metadata", "nullable"] ++ others

instance (members : Fields Json) (others : List String) : Decidable (HasOnly members others) :=
  inferInstanceAs (Decidable (∀ keyword ∈ members.names, _))

/-- A keyword holds a truth value, which is false where it is missing. -/
def HasFlag (members : Fields Json) (keyword : String) (b : Bool) : Prop :=
  members.get? keyword = some (.bool b) ∨ members.get? keyword = none ∧ b = false

/-- A keyword holds an object, which has no members where it is missing. -/
def HasFields (members : Fields Json) (keyword : String) (fields : Fields Json) : Prop :=
  members.get? keyword = some (.object fields) ∨ members.get? keyword = none ∧ fields = []

/-- The members of a schema are those of a form. -/
inductive HasForm (members : Fields Json) : Form → Prop
  | empty (only : HasOnly members []) : HasForm members .empty
  | ref {name : String} (only : HasOnly members ["ref"])
      (named : members.get? "ref" = some (.string name)) : HasForm members (.ref name)
  | type {name : String} (only : HasOnly members ["type"])
      (named : members.get? "type" = some (.string name)) : HasForm members (.type name)
  | enum {texts : List String} (only : HasOnly members ["enum"])
      (listed : members.get? "enum" = some (.array (texts.map .string))) :
      HasForm members (.enum texts)
  | elements {v : Json} (only : HasOnly members ["elements"])
      (schema : members.get? "elements" = some v) : HasForm members (.elements v)
  | properties {required optional : Fields Json} {additional : Bool}
      (only : HasOnly members ["properties", "optionalProperties", "additionalProperties"])
      (any : members.contains "properties" = true ∨ members.contains "optionalProperties" = true)
      (first : HasFields members "properties" required)
      (second : HasFields members "optionalProperties" optional)
      (flag : HasFlag members "additionalProperties" additional) :
      HasForm members (.properties required optional additional)
  | values {v : Json} (only : HasOnly members ["values"])
      (schema : members.get? "values" = some v) : HasForm members (.values v)
  | discriminator {tag : String} {mapping : Fields Json}
      (only : HasOnly members ["discriminator", "mapping"])
      (tagged : members.get? "discriminator" = some (.string tag))
      (mapped : members.get? "mapping" = some (.object mapping)) :
      HasForm members (.discriminator tag mapping)

/-- The schemas that a keyword maps names to, by the steps that lead to them. -/
def mapped (keyword : String) (fields : Fields Json) : List (List Step × Json) :=
  fields.map fun (name, v) => ([.name keyword, .name name], v)

/-- The schemas inside a form, by the steps that lead to them. -/
def Form.inner : Form → List (List Step × Json)
  | .elements v => [([.name "elements"], v)]
  | .properties required optional _ =>
    mapped "properties" required ++ mapped "optionalProperties" optional
  | .values v => [([.name "values"], v)]
  | .discriminator _ mapping => mapped "mapping" mapping
  | _ => []

/-- A schema of the document: the document itself, its definitions and what is inside these. -/
inductive Schema (root : Json) : Location → Json → Prop
  | root : Schema root [] root
  | definition {name : String} {l : Location} {v : Json}
      (leads : definition? root name = some (l, v)) : Schema root l v
  | inner {l : Location} {members : Fields Json} {form : Form} {steps : List Step} {v : Json}
      (outer : Schema root l (.object members)) (has : HasForm members form)
      (mem : (steps, v) ∈ form.inner) : Schema root (l ++ steps) v

/-- The range of a type of whole numbers. -/
def range? (name : String) : Option (Int × Int) :=
  [("int8", (-128, 127)), ("uint8", (0, 255)), ("int16", (-32768, 32767)), ("uint16", (0, 65535)),
    ("int32", (-2147483648, 2147483647)), ("uint32", (0, 4294967295))].lookup name

/-- The value is of the type called `name`. -/
def isOfType (name : String) (w : Json) : Bool :=
  match name with
  | "boolean" => Primitive.of? w = some .boolean
  | "string" => Primitive.of? w = some .string
  | "timestamp" => w.asString?.any Timestamp.isTimestamp
  | "float32" | "float64" => Primitive.of? w = some .number
  | _ =>
    match w with
    | .number n => (range? name).any fun (low, high) => n.isWholeWithin low high
    | _ => false

/-- The names of types. -/
def typeNames : List String :=
  ["boolean", "string", "timestamp", "float32", "float64", "int8", "uint8", "int16", "uint16",
    "int32", "uint32"]

/-- A schema that a tag may choose: one for objects, not for null, that does not mention the tag. -/
def IsVariant (tag : String) (v : Json) : Prop :=
  ∃ (members required optional : Fields Json) (additional : Bool), v = .object members ∧
    HasForm members (.properties required optional additional) ∧ HasFlag members "nullable" false ∧
    tag ∉ required.names ∧ tag ∉ optional.names

/-- What is demanded of a form in a document. -/
def Form.WellFormed (root : Json) : Form → Prop
  | .ref name => (definition? root name).isSome = true
  | .type name => name ∈ typeNames
  | .enum texts => texts ≠ [] ∧ texts.Nodup
  | .properties required optional _ => ∀ name ∈ required.names, name ∉ optional.names
  | .discriminator tag mapping => ∀ p ∈ mapping, IsVariant tag p.2
  | _ => True

/-- What is demanded of a schema at a location of a document. Only the document itself may have
definitions. -/
structure WellFormedSchema (root : Json) (l : Location) (members : Fields Json) : Prop where
  form : ∃ form, HasForm members form ∧ form.WellFormed root
  nullable : ∃ b, HasFlag members "nullable" b
  metadata : ∃ fields, HasFields members "metadata" fields
  definitions : ∃ fields, HasFields members "definitions" fields
  outermost : members.contains "definitions" = true → l = []

/-- No object of the document repeats a name, and its schemas meet what is demanded of them. -/
structure WellFormed (root : Json) : Prop where
  names : root.WellFormed
  schema : ∀ l v, Schema root l v → ∃ members, v = .object members ∧
    WellFormedSchema root l members

mutual

/-- A schema accepts the value. One property may be exempt from the rule that others are not
accepted. -/
inductive Accepts (root : Json) : Option String → Json → Json → Prop
  | null {exempt : Option String} {members : Fields Json}
      (nullable : HasFlag members "nullable" true) : Accepts root exempt (.object members) .null
  | form {exempt : Option String} {members : Fields Json} {form : Form} {w : Json}
      (has : HasForm members form) (accepts : FormAccepts root exempt form w) :
      Accepts root exempt (.object members) w

/-- A form accepts the value. -/
inductive FormAccepts (root : Json) : Option String → Form → Json → Prop
  | empty {exempt : Option String} {w : Json} : FormAccepts root exempt .empty w
  | ref {exempt : Option String} {name : String} {l : Location} {v w : Json}
      (leads : definition? root name = some (l, v)) (accepts : Accepts root none v w) :
      FormAccepts root exempt (.ref name) w
  | type {exempt : Option String} {name : String} {w : Json} (of : isOfType name w = true) :
      FormAccepts root exempt (.type name) w
  | enum {exempt : Option String} {texts : List String} {text : String} (mem : text ∈ texts) :
      FormAccepts root exempt (.enum texts) (.string text)
  | elements {exempt : Option String} {v : Json} {items : List Json}
      (each : ∀ item ∈ items, Accepts root none v item) :
      FormAccepts root exempt (.elements v) (.array items)
  | properties {exempt : Option String} {required optional values : Fields Json}
      {additional : Bool} (present : ∀ name ∈ required.names, ∃ w, values.get? name = some w)
      (each : ∀ name v w, required.get? name = some v ∨ optional.get? name = some v →
        values.get? name = some w → Accepts root none v w)
      (others : additional = true ∨ ∀ name ∈ values.names,
        name ∈ required.names ∨ name ∈ optional.names ∨ exempt = some name) :
      FormAccepts root exempt (.properties required optional additional) (.object values)
  | values {exempt : Option String} {v : Json} {values : Fields Json}
      (each : ∀ name w, values.get? name = some w → Accepts root none v w) :
      FormAccepts root exempt (.values v) (.object values)
  | discriminator {exempt : Option String} {mapping values : Fields Json} {tag key : String}
      {v : Json} (chosen : values.get? tag = some (.string key))
      (leads : mapping.get? key = some v) (accepts : Accepts root (some tag) v (.object values)) :
      FormAccepts root exempt (.discriminator tag mapping) (.object values)

end

section Keywords

variable {root : Json} {members : Fields Json} {form other : Form} {keyword : String}

theorem HasOnly.get?_eq_none {others : List String} (h : HasOnly members others)
    (hkeyword : keyword ∉ ["definitions", "metadata", "nullable"] ++ others) :
    members.get? keyword = none := by
  refine Option.eq_none_iff_forall_not_mem.mpr fun v hv => hkeyword (h keyword ?_)
  exact Fields.mem_names_iff.mpr ⟨v, hv⟩

/-- The keywords of a form, other than those that all forms share. -/
def Form.keywords : Form → List String
  | .empty => []
  | .ref _ => ["ref"]
  | .type _ => ["type"]
  | .enum _ => ["enum"]
  | .elements _ => ["elements"]
  | .properties _ _ _ => ["properties", "optionalProperties", "additionalProperties"]
  | .values _ => ["values"]
  | .discriminator _ _ => ["discriminator", "mapping"]

theorem HasForm.only (h : HasForm members form) : HasOnly members form.keywords := by
  cases h <;> assumption

/-- Every form but the empty one is told by a keyword. -/
theorem HasForm.exists_keyword (h : HasForm members form) (hform : form ≠ .empty) :
    ∃ keyword ∈ form.keywords, keyword ∈ members.names := by
  cases h with
  | empty => exact absurd rfl hform
  | ref _ h => exact ⟨_, List.mem_cons_self, Fields.mem_names_iff.mpr ⟨_, h⟩⟩
  | type _ h => exact ⟨_, List.mem_cons_self, Fields.mem_names_iff.mpr ⟨_, h⟩⟩
  | enum _ h => exact ⟨_, List.mem_cons_self, Fields.mem_names_iff.mpr ⟨_, h⟩⟩
  | elements _ h => exact ⟨_, List.mem_cons_self, Fields.mem_names_iff.mpr ⟨_, h⟩⟩
  | values _ h => exact ⟨_, List.mem_cons_self, Fields.mem_names_iff.mpr ⟨_, h⟩⟩
  | discriminator _ h => exact ⟨_, List.mem_cons_self, Fields.mem_names_iff.mpr ⟨_, h⟩⟩
  | properties _ h =>
    rcases h with h | h <;> obtain ⟨v, hv⟩ := Option.isSome_iff_exists.mp h
    · exact ⟨"properties", by simp [Form.keywords], Fields.mem_names_iff.mpr ⟨v, hv⟩⟩
    · exact ⟨"optionalProperties", by simp [Form.keywords], Fields.mem_names_iff.mpr ⟨v, hv⟩⟩

/-- Two forms of a schema that are not both empty have a keyword in common. -/
theorem HasForm.exists_common (h : HasForm members form) (h' : HasForm members other)
    (hform : form ≠ .empty) : ∃ keyword ∈ form.keywords, keyword ∈ other.keywords := by
  obtain ⟨keyword, hkeyword, hmem⟩ := h.exists_keyword hform
  refine ⟨keyword, hkeyword, (List.mem_append.mp (h'.only keyword hmem)).resolve_left ?_⟩
  have hshared : ∀ keyword ∈ form.keywords, keyword ∉ ["definitions", "metadata", "nullable"] := by
    cases form <;> simp [Form.keywords]
  exact hshared keyword hkeyword

theorem HasFields.unique {first second : Fields Json} (h : HasFields members keyword first)
    (h' : HasFields members keyword second) : first = second := by
  rcases h with h | ⟨h, rfl⟩ <;> rcases h' with h' | ⟨h', rfl⟩ <;> simp_all

theorem HasFlag.unique {b c : Bool} (h : HasFlag members keyword b)
    (h' : HasFlag members keyword c) : b = c := by
  rcases h with h | ⟨h, rfl⟩ <;> rcases h' with h' | ⟨h', rfl⟩ <;> simp_all

/-- A schema has one form at most. -/
theorem HasForm.unique (h : HasForm members form) (h' : HasForm members other) : form = other := by
  have hcommon := h.exists_common h'
  have hcommon' := h'.exists_common h
  -- what is left after the keywords are compared is of the same form on both sides
  cases h <;> cases h' <;> simp [Form.keywords] at hcommon hcommon'
  case empty.empty => rfl
  case enum.enum htexts _ _ htexts' =>
    have heq := Option.some.inj (htexts.symm.trans htexts')
    exact congrArg Form.enum ((List.map_inj_right fun _ _ h => Json.string.inj h).mp
      (Json.array.inj heq))
  case properties.properties _ hrequired hoptional hflag _ _ _ _ _ hrequired' hoptional' hflag' =>
    rw [hrequired.unique hrequired', hoptional.unique hoptional', hflag.unique hflag']
  all_goals simp_all

theorem accepts_object_iff (h : HasForm members form) {exempt : Option String} {w : Json} :
    Accepts root exempt (.object members) w ↔
      HasFlag members "nullable" true ∧ w = .null ∨ FormAccepts root exempt form w := by
  constructor
  · intro haccepts
    cases haccepts with
    | null hnullable => exact .inl ⟨hnullable, rfl⟩
    | form h' haccepts =>
      rw [h.unique h']
      exact .inr haccepts
  · rintro (⟨hnullable, rfl⟩ | haccepts)
    · exact .null hnullable
    · exact .form h haccepts

end Keywords

end TypeDefinition

end JsonPath
