import JsonPath.Proofs.Schema.Exactness
import JsonPath.Proofs.Schema.Matching

/-!
The type of a schema describes all values that the schema accepts, whatever keywords other than the
supported ones demand of them. Nothing more is asked of acceptance than that the demands of the
supported keywords are met, each as far as a type expresses it.
-/

namespace JsonPath

/-- A value is described by a normal type. -/
structure DataType.Takes (t : DataType) (S : NumberSet) (w : Json) : Prop where
  normal : t.Normal S
  describes : t.Describes (some w)

section Takes

variable {S : NumberSet} {t u : DataType} {ts : List DataType} {w : Json}

theorem DataType.Takes.intersect (ht : t.Takes S w) (hu : u.Takes S w) (hw : w.Over S) :
    (t.intersect u).Takes S w :=
  ⟨normal_intersect ht.normal hu.normal,
    ((standsFor_ofJson hw).describes_intersect_iff ht.normal hu.normal).mpr
      ⟨ht.describes, hu.describes⟩⟩

theorem DataType.Takes.foldl_intersect (ht : t.Takes S w) (hts : ∀ u ∈ ts, u.Takes S w)
    (hw : w.Over S) : (ts.foldl .intersect t).Takes S w := by
  have hnormal (u : DataType) (hu : u ∈ ts) : u.Normal S := (hts u hu).normal
  refine ⟨normal_foldl_intersect ht.normal hnormal, ?_⟩
  rw [(standsFor_ofJson hw).describes_foldl_intersect_iff ht.normal hnormal]
  exact ⟨ht.describes, fun u hu => (hts u hu).describes⟩

theorem DataType.takes_unionOf (hts : ∀ t ∈ ts, t.Normal S) (hw : w.Over S) (ht : t ∈ ts)
    (hdescribes : t.Describes (some w)) : (unionOf ts).Takes S w :=
  ⟨normal_unionOf hts, ((standsFor_ofJson hw).describes_unionOf_iff hts).mpr ⟨t, ht, hdescribes⟩⟩

end Takes

namespace JsonSchema

/-- The type describes what the schema at a location accepts. -/
def Covers (accepts : Location → Json → Json → Prop) (S : NumberSet) (l : Location) (v : Json)
    (t : DataType) : Prop :=
  ∀ w : Json, w.Over S → accepts l v w → t.Describes (some w)

/-- The demands of a schema are met by a value, and the types of the schemas inside of it cover what
these accept. -/
structure Document.Covering (d : Document) (accepts : Location → Json → Json → Prop) (S : NumberSet)
    (A : Location → Json → DataType → Prop) (l : Location) (members : Fields Json)
    (inside : Inside) (w : Json) : Prop where
  fitted : d.Fitted S A true l members inside
  covers : ∀ steps v t, d.Schema (l ++ steps) v → (inside steps v).Makes A true t →
    Covers accepts S (l ++ steps) v t
  numbers : w.Over S
  met : ∀ keyword v, members.get? keyword = some v →
    (d.matchedKeywordDemand (fun _ _ => false) l members w keyword v).Met accepts

namespace Document.Covering

variable {d : Document} {accepts : Location → Json → Json → Prop} {S : NumberSet}
  {A : Location → Json → DataType → Prop} {l : Location} {members : Fields Json} {inside : Inside}
  {keyword : String} {v w : Json} {t u : DataType}

section Inside

variable {schemas : List Json} {types : List DataType}

theorem member_covers (h : d.Covering accepts S A l members inside w)
    (hkeyword : keyword ∈ schemaKeywords) (hv : members.get? keyword = some v)
    (hmakes : (inside [.name keyword] v).Makes A true t) :
    Covers accepts S (l ++ [.name keyword]) v t :=
  h.covers _ v t (h.fitted.schema.member hkeyword hv) hmakes

/-- The schemas of a list are covered in turn. -/
theorem items_cover (h : d.Covering accepts S A l members inside w)
    (hkeyword : keyword ∈ listKeywords) (hv : members.get? keyword = some (.array schemas))
    (hmakes : (itemTypes inside keyword schemas).Makes A true types) (i : Nat) :
    Option.Rel (Covers accepts S (l ++ [.name keyword] ++ [.index i])) schemas[i]? types[i]? := by
  have hrel := Plan.makes_mapM hmakes i
  rw [List.getElem?_zipIdx, rel_map_left, Nat.zero_add] at hrel
  refine rel_mono hrel ?_
  intro v t hschema hmakes
  rw [List.append_assoc]
  exact h.covers _ v t (h.fitted.schema.item hkeyword hv hschema) hmakes

/-- A demand of a list that is met, and the type of its schema. -/
theorem describes_demanded (h : d.Covering accepts S A l members inside w)
    (hkeyword : keyword ∈ listKeywords) (hv : members.get? keyword = some (.array schemas))
    (hmakes : (itemTypes inside keyword schemas).Makes A true types) (i : Nat) :
    Option.Rel (fun (x : Demand) (t : DataType) => x.Met accepts → t.Describes (some w))
      (listDemands (l ++ [.name keyword]) schemas w)[i]? types[i]? := by
  rw [listDemands, List.getElem?_map, List.getElem?_zipIdx, rel_map_left, rel_map_left,
    Nat.zero_add]
  refine rel_mono (h.items_cover hkeyword hv hmakes i) ?_
  intro v t _ hcovers hmet
  exact hcovers w h.numbers (Demand.met_schema.mp hmet)

end Inside

section Lists

variable {schemas : List Json} {types : List DataType}

theorem takes_allOf (h : d.Covering accepts S A l members inside w)
    (hmakes : (itemTypes inside "allOf"
      (((members.get? "allOf").bind Json.asArray?).getD [])).Makes A true types) :
    ∀ t ∈ types, t.Takes S w := by
  intro t ht
  cases hv : members.get? "allOf" with
  | none =>
    rw [hv] at hmakes
    obtain rfl : types = [] := hmakes
    cases ht
  | some v =>
    obtain ⟨schemas, rfl⟩ := h.fitted.array (by decide) hv
    rw [hv] at hmakes
    obtain ⟨x, hx, hdescribes⟩ := exists_of_rel_right
      (h.describes_demanded (by decide) hv hmakes) ht
    have hall : (Demand.all (listDemands (l ++ [.name "allOf"]) schemas w)).Met accepts :=
      h.met "allOf" _ hv
    exact ⟨h.fitted.normal_items (by decide) hv hmakes t ht,
      hdescribes (Demand.met_all.mp hall x hx)⟩

/-- Of the schemas in a list one at least accepts the value. -/
theorem takes_choice (h : d.Covering accepts S A l members inside w)
    (hkeyword : keyword ∈ listKeywords)
    (harray : ∀ v, members.get? keyword = some v → ∃ schemas, v = .array schemas)
    (hchosen : ∀ schemas, members.get? keyword = some (.array schemas) →
      ∃ x ∈ listDemands (l ++ [.name keyword]) schemas w, x.Met accepts)
    {choice : Option DataType}
    (hmakes : Option.Rel (fun schemas t => (anyType inside keyword schemas).Makes A true t)
      ((members.get? keyword).bind Json.asArray?) choice) :
    ∀ t ∈ choice.toList, t.Takes S w := by
  intro t ht
  cases hv : members.get? keyword with
  | none =>
    rw [hv] at hmakes
    cases hmakes
    cases ht
  | some v =>
    obtain ⟨schemas, rfl⟩ := harray v hv
    rw [hv] at hmakes
    cases hmakes with
    | some hmakes =>
      obtain ⟨types, htypes, rfl⟩ := Plan.makes_map.mp hmakes
      obtain rfl := List.mem_singleton.mp ht
      obtain ⟨x, hx, hmet⟩ := hchosen schemas hv
      obtain ⟨u, hu, hdescribes⟩ := exists_of_rel_left
        (h.describes_demanded hkeyword hv htypes) hx
      exact DataType.takes_unionOf (h.fitted.normal_items hkeyword hv htypes) h.numbers hu
        (hdescribes hmet)

theorem takes_combining (h : d.Covering accepts S A l members inside w) (ht : t.Takes S w)
    (hmakes : (combining inside members t).Makes A true u) : u.Takes S w := by
  simp only [combining, Plan.makes_bind, Plan.makes_option_mapM, Plan.makes_pure] at hmakes
  obtain ⟨all, hall, any, hany, -, -, one, hone, rfl⟩ := hmakes
  have hanyOf := h.takes_choice (by decide) (fun _ => h.fitted.array (by decide))
    (fun _ hv => Demand.met_any.mp (h.met "anyOf" _ hv)) hany
  have honeOf := h.takes_choice (by decide) (fun _ => h.fitted.array (by decide))
    (fun _ hv => Demand.met_one.mp (h.met "oneOf" _ hv)) hone
  refine ht.foldl_intersect ?_ h.numbers
  exact List.forall_mem_append.mpr
    ⟨List.forall_mem_append.mpr ⟨h.takes_allOf hall, hanyOf⟩, honeOf⟩

end Lists

section Values

theorem meets_of_holds {b : Bool} (hv : members.get? keyword = some v)
    (hdemand : d.keywordDemand l members w keyword v = .holds b) (hb : b = true) :
    d.Meets l members w [keyword] := by
  intro other hother u hu
  obtain rfl := List.mem_singleton.mp hother
  obtain rfl := Option.some.inj (hv.symm.trans hu)
  rw [hdemand, hb]
  exact .holds true

theorem takes_enum (h : d.Covering accepts S A l members inside w) {values : List Json}
    (hv : members.get? "enum" = some (.array values)) :
    (DataType.unionOf (values.map .ofJson)).Takes S w := by
  have hexpressed := h.fitted.expressed_enum hv
  exact ⟨hexpressed.normal, (hexpressed.expresses w h.numbers).covers
    (meets_of_holds hv rfl (Demand.met_holds.mp (h.met "enum" _ hv)))⟩

theorem takes_const (h : d.Covering accepts S A l members inside w)
    (hv : members.get? "const" = some v) : (DataType.ofJson v).Takes S w := by
  have hexpressed := h.fitted.expressed_const hv
  exact ⟨hexpressed.normal, (hexpressed.expresses w h.numbers).covers
    (meets_of_holds hv rfl (Demand.met_holds.mp (h.met "const" _ hv)))⟩

theorem takes_restricted (h : d.Covering accepts S A l members inside w) (ht : t.Takes S w) :
    (restricted members t).Takes S w := by
  unfold restricted
  dsimp only
  cases hv : members.get? "enum" with
  | none =>
    split
    · rename_i hconst
      exact ht.intersect (h.takes_const hconst) h.numbers
    · exact ht
  | some v =>
    obtain ⟨values, rfl⟩ := h.fitted.array (by decide) hv
    have henum := ht.intersect (h.takes_enum hv) h.numbers
    split
    · rename_i hconst
      exact henum.intersect (h.takes_const hconst) h.numbers
    · exact henum

end Values

section Objects

variable {properties values : Fields Json} {types : Fields DataType} {rest : DataType}

/-- The schemas of the properties are covered by the types of these. -/
theorem properties_cover (h : d.Covering accepts S A l members inside w)
    (hmakes : ((namedSchemas members "properties").mapM fun (name, v) =>
      return (name, ← inside [.name "properties", .name name] v)).Makes A true types)
    (name : String) :
    Option.Rel (Covers accepts S (l ++ [.name "properties"] ++ [.name name]))
      ((namedSchemas members "properties").get? name) (types.get? name) := by
  refine rel_mono (Plan.makes_mapM_fields
    (f := fun name v => inside [.name "properties", .name name] v) hmakes name) ?_
  intro v t hv hmakes
  rw [List.append_assoc]
  exact h.covers _ v t (h.fitted.named_schema rfl hv) hmakes

theorem describes_property (h : d.Covering accepts S A l members inside (.object values))
    (hmakes : ((namedSchemas members "properties").mapM fun (name, v) =>
      return (name, ← inside [.name "properties", .name name] v)).Makes A true types)
    {name : String} (ht : types.get? name = some t) (hw : values.get? name = some w) :
    t.Describes (some w) := by
  have hrel := h.properties_cover hmakes name
  rw [ht] at hrel
  generalize hschema : (namedSchemas members "properties").get? name = schema at hrel
  cases hrel with
  | @some v _ hcovers =>
    cases hv : members.get? "properties" with
    | none =>
      rw [namedSchemas, hv] at hschema
      cases hschema
    | some properties =>
      obtain ⟨named, rfl⟩ := h.fitted.properties_object hv
      have hnamed : namedSchemas members "properties" = named := by
        rw [namedSchemas, hv]
        rfl
      rw [hnamed] at hschema
      have hmet : (propertiesDemand (l ++ [.name "properties"]) named (.object values)).Met
          accepts := h.met "properties" _ hv
      have hmember := Demand.met_all.mp hmet _
        (List.mem_map_of_mem (Fields.mem_of_get?_eq_some hschema))
      simp only [hw, Demand.met_schema] at hmember
      cases h.numbers with
      | object _ hall => exact hcovers w (hall _ (Fields.mem_of_get?_eq_some hw)) hmember

theorem describes_other (h : d.Covering accepts S A l members inside (.object values))
    (hmakes : ((namedSchemas members "properties").mapM fun (name, v) =>
      return (name, ← inside [.name "properties", .name name] v)).Makes A true types)
    (hrest : (memberType inside members "additionalProperties").Makes A true rest)
    {name : String} (ht : types.get? name = none) (hw : values.get? name = some w) :
    rest.Describes (some w) := by
  cases hv : members.get? "additionalProperties" with
  | none =>
    rw [memberType, hv] at hrest
    obtain rfl : rest = .top := hrest
    exact .any
  | some v =>
    rw [memberType, hv] at hrest
    have hrel := h.properties_cover hmakes name
    rw [ht] at hrel
    generalize hschema : (namedSchemas members "properties").get? name = schema at hrel
    cases hrel
    have hmet : (unmatchedDemand (fun _ _ => false) (l ++ [.name "additionalProperties"])
        (namedSchemas members "properties") (namedSchemas members "patternProperties") v
          (.object values)).Met accepts := h.met "additionalProperties" v hv
    have hmem := Fields.mem_of_get?_eq_some hw
    have hmember := Demand.met_all.mp hmet _ (List.mem_map_of_mem hmem)
    simp [Fields.contains, hschema] at hmember
    cases h.numbers with
    | object _ hall => exact h.member_covers (by decide) hv hrest w (hall _ hmem) hmember

theorem exists_required (h : d.Covering accepts S A l members inside (.object values))
    {name : String} (hname : name ∈
      (((members.get? "required").bind Json.asArray?).getD []).filterMap Json.asString?) :
    ∃ v, values.get? name = some v := by
  cases hv : members.get? "required" with
  | none =>
    rw [hv] at hname
    cases hname
  | some v =>
    obtain ⟨names, rfl, -⟩ := h.fitted.strings hv
    rw [hv] at hname
    obtain ⟨item, hitem, hstring⟩ := List.mem_filterMap.mp hname
    cases item with
    | string s =>
      cases hstring
      have hmet := Demand.met_all.mp (h.met "required" _ hv) _ (List.mem_map_of_mem hitem)
      exact Option.isSome_iff_exists.mp (Demand.met_holds.mp hmet)
    | null | bool | number | array | object => cases hstring

theorem describes_objectType (h : d.Covering accepts S A l members inside (.object values))
    (hmakes : (objectType inside members).Makes A true t) :
    t.Describes (some (.object values)) := by
  simp only [objectType, Plan.makes_bind, Plan.makes_pure] at hmakes
  obtain ⟨types, htypes, rest, hrest, rfl⟩ := hmakes
  refine DataType.describes_ofObject_members_iff.mpr ⟨fun _ => h.exists_required, ?_⟩
  intro name v hv
  rw [DataType.property]
  cases ht : Fields.get? types name with
  | none => exact h.describes_other htypes hrest ht hv
  | some t => exact h.describes_property htypes ht hv

end Objects

section Arrays

variable {values : List Json} {front : List DataType} {rest : DataType}

/-- The elements that have no schemas by position. -/
theorem describes_item (h : d.Covering accepts S A l members inside (.array values))
    (hrest : (memberType inside members "items").Makes A true rest) {i : Nat}
    (hi : (((members.get? "prefixItems").bind Json.asArray?).getD []).length ≤ i)
    (hw : values[i]? = some w) : rest.Describes (some w) := by
  cases hv : members.get? "items" with
  | none =>
    rw [memberType, hv] at hrest
    obtain rfl : rest = .top := hrest
    exact .any
  | some v =>
    rw [memberType, hv] at hrest
    obtain ⟨k, rfl⟩ := Nat.exists_eq_add_of_le hi
    rw [← List.getElem?_drop] at hw
    have hdrop := List.mem_of_getElem? hw
    have hmet := Demand.met_all.mp (h.met "items" _ hv) _ (List.mem_map_of_mem hdrop)
    cases h.numbers with
    | array hall =>
      exact h.member_covers (by decide) hv hrest w (hall _ (List.mem_of_mem_drop hdrop))
        (Demand.met_schema.mp hmet)

theorem describes_front (h : d.Covering accepts S A l members inside (.array values))
    (hmakes : (itemTypes inside "prefixItems"
      (((members.get? "prefixItems").bind Json.asArray?).getD [])).Makes A true front)
    {i : Nat} (ht : front[i]? = some t) (hw : values[i]? = some w) : t.Describes (some w) := by
  cases hv : members.get? "prefixItems" with
  | none =>
    rw [hv] at hmakes
    obtain rfl : front = [] := hmakes
    cases ht
  | some v =>
    obtain ⟨schemas, rfl⟩ := h.fitted.array (by decide) hv
    rw [hv] at hmakes
    have hrel := h.items_cover (by decide) hv hmakes i
    rw [ht] at hrel
    generalize hschema : schemas[i]? = schema at hrel
    cases hrel with
    | @some v _ hcovers =>
      have hmem : (v, i) ∈ schemas.zipIdx := List.mem_zipIdx_iff_getElem?.mpr hschema
      have hmet := Demand.met_all.mp (h.met "prefixItems" _ hv) _ (List.mem_map_of_mem hmem)
      simp only [hw, Demand.met_schema] at hmet
      cases h.numbers with
      | array hall => exact hcovers w (hall _ (List.mem_of_getElem? hw)) hmet

/-- There are as many elements as there have to be. -/
theorem minimum_le (h : d.Covering accepts S A l members inside (.array values)) :
    (match members.get? "minItems" with
      | some (.number n) => n.toNat?.getD 0
      | _ => 0) ≤ values.length := by
  refine (h.fitted.expresses_minItems rfl).covers ?_
  cases hv : members.get? "minItems" with
  | none => exact meets_absent (by simpa using hv)
  | some v =>
    obtain ⟨n, rfl, -⟩ := h.fitted.count hv
    exact meets_of_holds hv rfl (Demand.met_holds.mp (h.met "minItems" _ hv))

theorem describes_arrayType (h : d.Covering accepts S A l members inside (.array values))
    (hmakes : (arrayType inside members).Makes A true t) :
    t.Describes (some (.array values)) := by
  obtain ⟨front, rest, hfront, hrest, rfl⟩ := h.fitted.makes_arrayType hmakes
  refine DataType.describes_ofArray_items_iff.mpr ⟨h.minimum_le, ?_⟩
  intro i v hv
  rw [DataType.element]
  cases ht : front[i]? with
  | none =>
    have hlength := List.getElem?_eq_none_iff.mp ht
    rw [Fitted.length_front hfront] at hlength
    exact h.describes_item hrest hlength hv
  | some t => exact h.describes_front hfront ht hv

end Arrays

section Stated

theorem describes_namedType (h : d.Covering accepts S A l members inside w) {name : String}
    (hmakes : (namedType inside members name).Makes A true t)
    (hmet : (typeDemand w name).Met accepts) : t.Describes (some w) := by
  have hprimitive {kind : Primitive}
      (hkind : (Demand.holds (Primitive.of? w = some kind)).Met accepts)
      (ht : t = .ofPrimitive kind) : t.Describes (some w) := by
    rw [ht]
    exact .primitive (of_decide_eq_true (Demand.met_holds.mp hkind))
  unfold namedType at hmakes
  split at hmakes
  · exact hprimitive hmet hmakes
  · exact hprimitive hmet hmakes
  · exact hprimitive hmet hmakes
  · simp only [Plan.makes_bind, Plan.makes_pure] at hmakes
    obtain ⟨-, -, rfl⟩ := hmakes
    cases w with
    | number => exact .primitive rfl
    | null | bool | string | array | object => cases Demand.met_holds.mp hmet
  · exact hprimitive hmet hmakes
  · cases w with
    | array values => exact h.describes_arrayType hmakes
    | null | bool | number | string | object => cases Demand.met_holds.mp hmet
  · cases w with
    | object values => exact h.describes_objectType hmakes
    | null | bool | number | string | array => cases Demand.met_holds.mp hmet
  · obtain ⟨-, rfl⟩ := Plan.makes_anything.mp hmakes
    exact .any

/-- One of the names is a type of the value. -/
theorem takes_namedTypes (h : d.Covering accepts S A l members inside w) {names : List String}
    {types : List DataType} (hmakes : ∀ i : Nat, Option.Rel
      (fun name t => (namedType inside members name).Makes A true t) names[i]? types[i]?)
    (hmet : ∃ name ∈ names, (typeDemand w name).Met accepts) :
    (DataType.unionOf types).Takes S w := by
  obtain ⟨name, hname, hdemand⟩ := hmet
  obtain ⟨t, ht, hmade⟩ := exists_of_rel_left hmakes hname
  exact DataType.takes_unionOf (h.fitted.normal_namedTypes hmakes) h.numbers ht
    (h.describes_namedType hmade hdemand)

theorem exists_typeName_met (accepts : Location → Json → Json → Prop) (w : Json) :
    ∃ name ∈ ["null", "boolean", "number", "string", "array", "object"],
      (typeDemand w name).Met accepts := by
  cases w with
  | null => exact ⟨"null", by decide, .holds⟩
  | bool => exact ⟨"boolean", by decide, .holds⟩
  | number => exact ⟨"number", by decide, .holds⟩
  | string => exact ⟨"string", by decide, .holds⟩
  | array => exact ⟨"array", by decide, .holds⟩
  | object => exact ⟨"object", by decide, .holds⟩

theorem takes_statedType (h : d.Covering accepts S A l members inside w)
    (hmakes : (statedType inside members).Makes A true t) : t.Takes S w := by
  refine ⟨h.fitted.normal_statedType hmakes, ?_⟩
  unfold statedType at hmakes
  split at hmakes
  · rename_i hv
    exact h.describes_namedType hmakes (h.met "type" _ hv)
  · rename_i items hv
    simp only [Plan.makes_bind, Plan.makes_pure] at hmakes
    obtain ⟨types, htypes, rfl⟩ := hmakes
    have hmet := h.met "type" _ hv
    rw [h.fitted.typeNames hv] at hmet
    obtain ⟨x, hx, hmet⟩ := Demand.met_any.mp hmet
    rw [List.map_map] at hx
    obtain ⟨name, hname, rfl⟩ := List.mem_map.mp hx
    exact (h.takes_namedTypes (Plan.makes_mapM htypes) ⟨name, hname, hmet⟩).describes
  · obtain ⟨-, rfl⟩ := Plan.makes_anything.mp hmakes
    exact .any
  · split at hmakes
    · simp only [Plan.makes_bind, Plan.makes_pure] at hmakes
      obtain ⟨arrays, harrays, objects, hobjects, rfl⟩ := hmakes
      exact (h.takes_namedTypes (Fitted.makes_unnamed harrays hobjects)
        (exists_typeName_met accepts w)).describes
    · obtain rfl : t = .top := hmakes
      exact .any

end Stated

theorem takes_referring (h : d.Covering accepts S A l members inside w)
    (htold : ∀ l v t, d.Schema l v → A l v t → d.Fits S true l v t ∧ Covers accepts S l v t)
    (ht : t.Takes S w) (hmakes : (referring d l members t).Makes A true u) : u.Takes S w := by
  unfold referring at hmakes
  split at hmakes
  · obtain rfl : u = t := hmakes
    exact ht
  · rename_i reference hreference
    obtain ⟨v, hv, hstring⟩ := Option.bind_eq_some_iff.mp hreference
    cases v with
    | string s =>
      cases hstring
      split at hmakes
      · rename_i target schema hresolve
        simp only [Plan.makes_bind, Plan.makes_node, Plan.makes_pure] at hmakes
        obtain ⟨referred, hreferred, rfl⟩ := hmakes
        obtain ⟨hfits, hcovers⟩ := htold _ _ _ (h.fitted.schema.referred hv hresolve) hreferred
        have hmet : (d.keywordDemand l members w "$ref" (.string reference)).Met accepts :=
          h.met "$ref" _ hv
        simp only [keywordDemand, hresolve, Demand.met_schema] at hmet
        exact ht.intersect ⟨hfits.normal, hcovers w h.numbers hmet⟩ h.numbers
      · simp only [Plan.makes_bind, Plan.makes_widen, Plan.makes_pure] at hmakes
        obtain ⟨-, -, rfl⟩ := hmakes
        exact ht
    | null | bool | number | array | object => cases hstring

end Document.Covering

variable {d : Document} {accepts : Location → Json → Json → Prop} {S : NumberSet}
  {A : Location → Json → DataType → Prop} {l : Location} {v : Json} {t : DataType}

/-- The type of a schema covers what the schema accepts if the types of the schemas that it asks for
do, and if none has `not`. -/
theorem covers_schemaType (hd : d.LooselyFormed) (hroot : d.root.Over S) (hschema : d.Schema l v)
    (hnot : ∀ l (members : Fields Json), d.Schema l (.object members) →
      members.get? "not" = none)
    (haccepts : d.Respects accepts)
    (htold : ∀ l v t, d.Schema l v → A l v t → d.Fits S true l v t ∧ Covers accepts S l v t)
    (hmakes : (schemaType d l v).Makes A true t) : Covers accepts S l v t := by
  intro w hw haccepted
  have hmet := haccepts l v w hschema haccepted
  unfold schemaType at hmakes
  split at hmakes
  · obtain rfl : t = .top := hmakes
    exact .any
  · cases Demand.met_holds.mp hmet
  · rename_i members
    simp only [Plan.makes_bind, Plan.makes_widenIf, Plan.makes_pure, excluding,
      hnot l members hschema] at hmakes
    obtain ⟨-, -, stated, hstated, combined, hcombined, referred, hreferred, _, rfl, rfl⟩ := hmakes
    have hfits (l : Location) (v : Json) (t : DataType) (hv : d.Schema l v) (ht : A l v t) :
        d.Fits S true l v t := (htold l v t hv ht).1
    have hcounts (hexact : true = false) : d.WellFormed := absurd hexact.symm Bool.false_ne_true
    have h : d.Covering accepts S A l members (fun steps v => Plan.node (l ++ steps) v) w :=
      { fitted := fitted_node hd hcounts hroot hschema hfits fun _ => rfl
        covers := fun steps v t hv hnode => (htold _ v t hv (Plan.makes_node.mp hnode)).2
        numbers := hw
        met := fun keyword v hv => Demand.met_all.mp hmet _
          (List.mem_map_of_mem (Fields.mem_of_get?_eq_some hv)) }
    rw [DataType.describes_annotate]
    have hcombined := h.takes_combining (h.takes_restricted (h.takes_statedType hstated)) hcombined
    exact (h.takes_referring htold hcombined hreferred).describes
  · obtain ⟨-, rfl⟩ := Plan.makes_anything.mp hmakes
    exact .any

/-- What is told of a schema covers what the schema accepts. -/
theorem covers_of_told (hd : d.LooselyFormed) (hroot : d.root.Over S)
    (hnot : ∀ l (members : Fields Json), d.Schema l (.object members) →
      members.get? "not" = none)
    (haccepts : d.Respects accepts) {n : Nat} (hschema : d.Schema l v)
    (h : Told (schemaType d) n l v t) : Covers accepts S l v t := by
  induction n generalizing l v t with
  | zero =>
    obtain rfl : t = .top := h
    exact fun _ _ _ => .any
  | succ n ih =>
    rcases h with h | h
    · exact ih hschema h
    · refine covers_schemaType hd hroot hschema hnot haccepts ?_ h
      intro l v t hv ht
      refine ⟨fits_of_told hd hroot ?_ hv ht.1, ih hv ht.1⟩
      intro l members v hmembers hv
      rw [hnot l members hmembers] at hv
      cases hv

/-- The answer about a schema describes all values that the schema accepts. -/
theorem covers_answer (hd : d.LooselyFormed) (hroot : d.root.Over S)
    (hnot : ∀ l (members : Fields Json), d.Schema l (.object members) →
      members.get? "not" = none)
    (haccepts : d.Respects accepts) {asked : List (Location × Json)} (hasked : Nodes d.root asked)
    (hschema : d.Schema l v) : Covers accepts S l v (d.answer asked l v).type := by
  obtain ⟨n, v', hv', ht⟩ := (answers_answer hroot hasked hschema).told
  obtain rfl := Option.some.inj (hschema.at?.symm.trans hv')
  exact covers_of_told hd hroot hnot haccepts hschema ht

end JsonSchema

end JsonPath
