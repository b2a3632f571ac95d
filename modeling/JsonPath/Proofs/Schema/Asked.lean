import JsonPath.Proofs.Json.Locations
import JsonPath.Proofs.Schema.History
import JsonPath.Proofs.Schema.Plan
import JsonPath.Schema.JsonSchema
import JsonPath.Schema.TypeDefinition

/-!
The schemas that conversions ask for. They are all found in the document, at the locations by which
they are asked for. Hence both kinds of schemas are converted independently of what was converted
before, as far as the answers are exact.
-/

namespace JsonPath

variable {P : Location → Json → Prop} {members : Fields Json}

/-- Whatever is inside an object is asked for by steps that lead to it. -/
def AsksInside (P : Location → Json → Prop) (members : Fields Json)
    (inside : List Step → Json → Plan DataType) : Prop :=
  ∀ steps v, (Json.object members).at? steps = some v → (inside steps v).Asks P

theorem asksInside_node {root : Json} {l : Location}
    (hv : root.at? l = some (.object members)) :
    AsksInside (fun l v => root.at? l = some v) members fun steps v => Plan.node (l ++ steps) v := by
  intro steps v h
  apply Plan.asks_node
  rw [Json.at?_append, hv]
  exact h

namespace AsksInside

variable {inside : List Step → Json → Plan DataType} {keyword : String}

theorem member (h : AsksInside P members inside) {v : Json}
    (hv : members.get? keyword = some v) : (inside [.name keyword] v).Asks P := by
  apply h
  simp [Json.at?, Json.child?, hv]

theorem item (h : AsksInside P members inside) {items : List Json}
    (hitems : (members.get? keyword).bind Json.asArray? = some items) {i : Nat} {v : Json}
    (hv : items[i]? = some v) : (inside [.name keyword, .index i] v).Asks P := by
  obtain ⟨value, hvalue, harray⟩ := Option.bind_eq_some_iff.mp hitems
  obtain rfl : value = .array items := by
    cases value <;> cases harray
    rfl
  apply h
  simp [Json.at?, Json.child?, hvalue, hv]

theorem named (h : AsksInside P members inside) (hmembers : (Json.object members).WellFormed)
    {name : String} {v : Json}
    (hentry : (name, v) ∈ ((members.get? keyword).bind Json.asObject?).getD []) :
    (inside [.name keyword, .name name] v).Asks P := by
  cases hvalue : members.get? keyword with
  | none =>
    rw [hvalue] at hentry
    cases hentry
  | some value =>
    rw [hvalue] at hentry
    cases value with
    | object named =>
      have hstep : Json.child? (.name keyword) (.object members) = some (.object named) := hvalue
      have hnodup : (Fields.names named).Nodup := (hmembers.child? hstep).1
      have hget : Fields.get? named name = some v := Fields.get?_eq_some_of_mem hnodup hentry
      apply h
      simp [Json.at?, Json.child?, hvalue, hget]
    | null | bool | number | string | array => cases hentry

end AsksInside

namespace JsonSchema

theorem Document.at?_of_resolve? {d : Document} {l target : Location} {reference : String}
    {v : Json} (h : d.resolve? l reference = some (target, v)) : d.root.at? target = some v := by
  simp only [resolve?, Option.bind_eq_bind, Option.bind_eq_some_iff] at h
  obtain ⟨entry, -, url, -, h⟩ := h
  split at h
  · obtain ⟨_, -, h⟩ := Option.bind_eq_some_iff.mp h
    obtain ⟨_, hfound, heq⟩ := Option.bind_eq_some_iff.mp h
    cases heq
    exact hfound
  · split at h
    · obtain ⟨start, -, h⟩ := Option.bind_eq_some_iff.mp h
      obtain ⟨w, hw, h⟩ := Option.bind_eq_some_iff.mp h
      obtain ⟨⟨location, found⟩, hfound, heq⟩ := Option.bind_eq_some_iff.mp h
      cases heq
      rw [Json.at?_append, hw]
      exact Json.at?_of_pointer? hfound
    · obtain ⟨_, -, h⟩ := Option.bind_eq_some_iff.mp h
      obtain ⟨_, hfound, heq⟩ := Option.bind_eq_some_iff.mp h
      cases heq
      exact hfound

section Asks

variable {inside : Inside}

theorem asks_itemTypes (h : AsksInside P members inside) {keyword : String} {items : List Json}
    (hitems : (members.get? keyword).bind Json.asArray? = some items) :
    (itemTypes inside keyword items).Asks P := by
  apply Plan.asks_mapM
  rintro ⟨item, i⟩ hitem
  exact h.item hitems (List.mem_zipIdx_iff_getElem?.mp hitem)

theorem asks_itemTypes_getD (h : AsksInside P members inside) (keyword : String) :
    (itemTypes inside keyword (((members.get? keyword).bind Json.asArray?).getD [])).Asks P := by
  cases hitems : (members.get? keyword).bind Json.asArray? with
  | none => exact Plan.asks_pure _
  | some items => exact asks_itemTypes h hitems

theorem asks_memberType (h : AsksInside P members inside) (keyword : String) :
    (memberType inside members keyword).Asks P := by
  unfold memberType
  split
  · rename_i hv
    exact h.member hv
  · exact Plan.asks_pure _

theorem asks_objectType (h : AsksInside P members inside)
    (hmembers : (Json.object members).WellFormed) : (objectType inside members).Asks P := by
  refine .bind ?_ fun _ => .bind (asks_memberType h _) fun _ => Plan.asks_pure _
  apply Plan.asks_mapM
  rintro ⟨name, v⟩ hentry
  exact .bind (h.named hmembers hentry) fun _ => Plan.asks_pure _

theorem asks_arrayType (h : AsksInside P members inside) : (arrayType inside members).Asks P := by
  refine .bind (asks_itemTypes_getD h _) fun front => ?_
  dsimp only
  split
  · rename_i items hitems
    split
    · exact .bind (asks_itemTypes h (by rw [hitems]; rfl)) fun _ => Plan.asks_pure _
    · exact .bind (asks_memberType h _) fun _ => Plan.asks_pure _
  · exact .bind (asks_memberType h _) fun _ => Plan.asks_pure _

theorem asks_namedType (h : AsksInside P members inside)
    (hmembers : (Json.object members).WellFormed) (name : String) :
    (namedType inside members name).Asks P := by
  unfold namedType
  split
  · exact Plan.asks_pure _
  · exact Plan.asks_pure _
  · exact Plan.asks_pure _
  · exact .bind Plan.asks_widen fun _ => Plan.asks_pure _
  · exact Plan.asks_pure _
  · exact asks_arrayType h
  · exact asks_objectType h hmembers
  · exact Plan.asks_anything

theorem asks_statedType (h : AsksInside P members inside)
    (hmembers : (Json.object members).WellFormed) : (statedType inside members).Asks P := by
  unfold statedType
  split
  · exact asks_namedType h hmembers _
  · exact .bind (Plan.asks_mapM fun name _ => asks_namedType h hmembers name) fun _ =>
      Plan.asks_pure _
  · exact Plan.asks_anything
  · split
    · exact .bind (asks_arrayType h) fun _ => .bind (asks_objectType h hmembers) fun _ =>
        Plan.asks_pure _
    · exact Plan.asks_pure _

theorem asks_combining (h : AsksInside P members inside) (t : DataType) :
    (combining inside members t).Asks P := by
  have hany (keyword : String) (items : List Json)
      (hitems : (members.get? keyword).bind Json.asArray? = some items) :
      (anyType inside keyword items).Asks P := (asks_itemTypes h hitems).map _
  exact .bind (asks_itemTypes_getD h _) fun _ =>
    .bind (Plan.asks_option_mapM (hany "anyOf")) fun _ => .bind (Plan.asks_widenIf _) fun _ =>
      .bind (Plan.asks_option_mapM (hany "oneOf")) fun _ => Plan.asks_pure _

theorem asks_excluding (h : AsksInside P members inside) (t : DataType) :
    (excluding inside members t).Asks P := by
  unfold excluding
  split
  · exact Plan.asks_pure _
  · rename_i hv
    exact .bind (h.member hv) fun _ => .bind (Plan.asks_widenIf _) fun _ => Plan.asks_pure _

theorem asks_referring {d : Document} (l : Location) (t : DataType) :
    (referring d l members t).Asks fun l v => d.root.at? l = some v := by
  unfold referring
  split
  · exact Plan.asks_pure _
  · split
    · rename_i hresolve
      exact .bind (Plan.asks_node (Document.at?_of_resolve? hresolve)) fun _ => Plan.asks_pure _
    · exact .bind Plan.asks_widen fun _ => Plan.asks_pure _

/-- A schema asks for schemas of its document only. -/
theorem asks_schemaType {d : Document} (hroot : d.root.WellFormed) {l : Location} {v : Json}
    (hv : d.root.at? l = some v) :
    (schemaType d l v).Asks fun l v => d.root.at? l = some v := by
  unfold schemaType
  split
  · exact Plan.asks_pure _
  · exact Plan.asks_pure _
  · have hinside := asksInside_node hv
    exact .bind (Plan.asks_widenIf _) fun _ =>
      .bind (asks_statedType hinside (hroot.at? hv)) fun _ => .bind (asks_combining hinside _)
        fun _ => .bind (asks_referring _ _) fun _ => .bind (asks_excluding hinside _) fun _ =>
          Plan.asks_pure _
  · exact Plan.asks_anything

end Asks

end JsonSchema

namespace TypeDefinition

variable {root : Json} {inside : Inside}

theorem at?_of_definition? {name : String} {l : Location} {v : Json}
    (h : definition? root name = some (l, v)) : root.at? l = some v := by
  simp only [definition?, Option.bind_eq_bind, Option.bind_eq_some_iff] at h
  obtain ⟨definitions, hdefinitions, found, hfound, heq⟩ := h
  cases heq
  cases root <;> cases definitions <;> try contradiction
  rw [Json.member?] at hdefinitions hfound
  simp [Json.at?, Json.child?, hdefinitions, hfound]

theorem asks_namedType (name : String) : (namedType name).Asks P := by
  unfold namedType
  split
  · exact Plan.asks_pure _
  · split
    · exact Plan.asks_pure _
    · split
      · exact Plan.asks_pure _
      · split
        · exact .bind Plan.asks_widen fun _ => Plan.asks_pure _
        · exact Plan.asks_anything

theorem asks_namedTypes (h : AsksInside P members inside)
    (hmembers : (Json.object members).WellFormed) (keyword : String) :
    (namedTypes inside members keyword).Asks P := by
  apply Plan.asks_mapM
  rintro ⟨name, v⟩ hentry
  exact .bind (h.named hmembers hentry) fun _ => Plan.asks_pure _

theorem asks_propertiesType (h : AsksInside P members inside)
    (hmembers : (Json.object members).WellFormed) : (propertiesType inside members).Asks P :=
  .bind (asks_namedTypes h hmembers _) fun _ => .bind (asks_namedTypes h hmembers _) fun _ =>
    Plan.asks_pure _

theorem asks_choiceType (h : AsksInside P members inside)
    (hmembers : (Json.object members).WellFormed) (tag : String) :
    (choiceType inside members tag).Asks P := by
  refine .bind (Plan.asks_mapM ?_) fun _ => Plan.asks_pure _
  rintro ⟨name, v⟩ hentry
  exact .bind (Plan.asks_widenIf _) fun _ => .bind (h.named hmembers hentry) fun _ =>
    Plan.asks_pure _

theorem asks_formType (h : AsksInside (fun l v => root.at? l = some v) members inside)
    (hmembers : (Json.object members).WellFormed) :
    (formType root inside members).Asks fun l v => root.at? l = some v := by
  unfold formType
  dsimp only
  split
  · split
    · rename_i hdefinition
      exact Plan.asks_node (at?_of_definition? hdefinition)
    · exact Plan.asks_anything
  · exact asks_namedType _
  · exact Plan.asks_pure _
  · rename_i hv
    exact .bind (h.member hv) fun _ => Plan.asks_pure _
  · split
    · exact asks_propertiesType h hmembers
    · split
      · rename_i hv
        exact .bind (h.member hv) fun _ => Plan.asks_pure _
      · exact asks_choiceType h hmembers _
      · exact Plan.asks_pure _

/-- A schema asks for schemas of its document only. -/
theorem asks_schemaType (hroot : root.WellFormed) {l : Location} {v : Json}
    (hv : root.at? l = some v) : (schemaType root l v).Asks fun l v => root.at? l = some v := by
  unfold schemaType
  split
  · refine .bind (Plan.asks_widenIf _) fun _ =>
      .bind (asks_formType (asksInside_node hv) (hroot.at? hv)) fun _ => ?_
    dsimp only
    split <;> exact Plan.asks_pure _
  · exact Plan.asks_anything

end TypeDefinition

section Independence

variable {root : Json}

theorem JsonSchema.settles_convert {d : Document} (hroot : d.root.WellFormed) :
    Settles d.root (schemaType d) d.convert :=
  settles_within (fun _ _ hv => asks_schemaType hroot hv) (Nat.lt_succ_self _)

theorem TypeDefinition.settles_convert (hroot : root.WellFormed) :
    Settles root (schemaType root) (convert root) :=
  settles_within (fun _ _ hv => asks_schemaType hroot hv) (Nat.lt_succ_self _)

/-- Whatever a converter was asked before, it answers exactly just if a new one does, and then with
the same type. Nothing is left to be converted after any answer. -/
theorem independent_convert (hroot : root.WellFormed) (base : Option String) :
    Independent root (JsonSchema.Document.ofJson root base).convert ∧
      Independent root (TypeDefinition.convert root) :=
  ⟨(JsonSchema.settles_convert (d := .ofJson root base) hroot).independent,
    (TypeDefinition.settles_convert hroot).independent⟩

/-- A document that leads back to itself, in both kinds of schemas. -/
def recursiveSchema : Json :=
  .object [("definitions", .object [("again", .object [("ref", .string "again"),
    ("$ref", .string "#")])]), ("$ref", .string "#/definitions/again"), ("ref", .string "again")]

theorem independent_convert_recursive : recursiveSchema.WellFormed ∧
    Independent recursiveSchema (JsonSchema.Document.ofJson recursiveSchema none).convert ∧
      Independent recursiveSchema (TypeDefinition.convert recursiveSchema) := by
  have hroot : recursiveSchema.WellFormed := by
    simp [recursiveSchema, Json.WellFormed, Json.WellFormedMembers, Fields.names]
  exact ⟨hroot, independent_convert hroot none⟩

end Independence

end JsonPath
