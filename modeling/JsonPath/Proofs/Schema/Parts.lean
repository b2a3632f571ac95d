import JsonPath.Proofs.DataType.Exact
import JsonPath.Proofs.Schema.Judgement
import JsonPath.Proofs.Schema.Plan

/-!
The types that a schema states, and how they compare with what its keywords demand. The keywords
for objects are judged by the object types and those for arrays by the array types. They demand
nothing of other values, so that it makes no difference to these which of the types are stated.
-/

namespace JsonPath.JsonSchema

/-- The type describes what the schema at a location accepts, and nothing else unless `wide` is
set. -/
structure Document.Fits (d : Document) (S : NumberSet) (wide : Bool) (l : Location) (v : Json)
    (t : DataType) : Prop where
  normal : t.Normal S
  judges : ∀ w : Json, w.Over S → d.Judges wide (.schema l v w) (t.Describes (some w))

/-- The types of the schemas inside a schema of the document fit. The schema has no keywords but
the supported ones, and the least number of elements is written as a whole number, unless `wide` is
set. -/
structure Document.Fitted (d : Document) (S : NumberSet) (A : Location → Json → DataType → Prop)
    (wide : Bool) (l : Location) (members : Fields Json) (inside : Inside) : Prop where
  formed : d.LooselyFormed
  counts : wide = false → d.WellFormed
  schema : d.Schema l (.object members)
  numbers : (Json.object members).Over S
  inside : ∀ steps v t, d.Schema (l ++ steps) v → (inside steps v).Makes A wide t →
    d.Fits S wide (l ++ steps) v t
  supported : wide = false → ∀ keyword ∈ members.names, keyword ∈ supported

namespace Document.Fitted

variable {d : Document} {S : NumberSet} {A : Location → Json → DataType → Prop} {wide : Bool}
  {l : Location} {members : Fields Json} {inside : Inside} {keyword : String} {v w : Json}
  {t : DataType}

section Kinds

theorem kind (h : d.Fitted S A wide l members inside) (hkeyword : keyword ≠ "minItems")
    (hv : members.get? keyword = some v) : isWellKinded keyword v = true :=
  (h.formed.keyword l members h.schema keyword v hv).resolve_right fun hcount => hkeyword hcount.1

theorem count (h : d.Fitted S A wide l members inside) (hv : members.get? "minItems" = some v) :
    ∃ n, v = .number n ∧ (wide = false → n.toInt?.isSome = true) := by
  have hkind (hexact : wide = false) : isWellKinded "minItems" v = true :=
    (h.counts hexact).keyword l members h.schema _ v hv
  rcases h.formed.keyword l members h.schema _ v hv with hwhole | ⟨-, n, rfl⟩
  · cases v with
    | number n => exact ⟨n, rfl, fun _ => hwhole⟩
    | null | bool | string | array | object => cases hwhole
  · exact ⟨n, rfl, hkind⟩

theorem member_over (h : d.Fitted S A wide l members inside)
    (hv : members.get? keyword = some v) : v.Over S := by
  cases h.numbers with
  | object _ hall => exact hall _ (Fields.mem_of_get?_eq_some hv)

theorem nodup (h : d.Fitted S A wide l members inside) : members.names.Nodup := by
  cases h.numbers with
  | object hnodup _ => exact hnodup

theorem array (h : d.Fitted S A wide l members inside)
    (hkeyword : keyword ∈ ["enum", "prefixItems", "allOf", "anyOf", "oneOf"])
    (hv : members.get? keyword = some v) : ∃ items, v = .array items := by
  have hkind := h.kind (ne_of_mem_of_not_mem hkeyword (by decide)) hv
  simp only [List.mem_cons, List.not_mem_nil, or_false] at hkeyword
  rcases hkeyword with rfl | rfl | rfl | rfl | rfl <;> simp [isWellKinded] at hkind <;>
    cases v <;> first | exact ⟨_, rfl⟩ | cases hkind

theorem properties_object (h : d.Fitted S A wide l members inside)
    (hv : members.get? "properties" = some v) : ∃ properties, v = .object properties := by
  have hkind := h.kind (by decide) hv
  cases v <;> first | exact ⟨_, rfl⟩ | cases hkind

theorem strings (h : d.Fitted S A wide l members inside)
    (hv : members.get? "required" = some v) :
    ∃ names, v = .array names ∧ ∀ name ∈ names, ∃ s, name = .string s := by
  have hkind := h.kind (by decide) hv
  change isStrings v = true at hkind
  cases v with
  | array names =>
    refine ⟨names, rfl, ?_⟩
    intro name hname
    have hstring := List.all_eq_true.mp hkind name hname
    cases name <;> first | exact ⟨_, rfl⟩ | cases hstring
  | null | bool | number | string | object => cases hkind

theorem notPatterned (h : d.Fitted S A wide l members inside) (hwide : wide = false) :
    members.contains "patternProperties" = false := by
  refine eq_false_of_ne_true fun hcontains => ?_
  obtain ⟨v, hv⟩ := Option.isSome_iff_exists.mp hcontains
  have hsupported := h.supported hwide _ (Fields.mem_names_iff.mpr ⟨v, hv⟩)
  simp [JsonSchema.supported] at hsupported

end Kinds

section Inside

theorem member (h : d.Fitted S A wide l members inside) (hkeyword : keyword ∈ schemaKeywords)
    (hv : members.get? keyword = some v) (hmakes : (inside [.name keyword] v).Makes A wide t) :
    d.Fits S wide (l ++ [.name keyword]) v t :=
  h.inside _ v t (h.schema.member hkeyword hv) hmakes

theorem items (h : d.Fitted S A wide l members inside) (hkeyword : keyword ∈ listKeywords)
    {schemas : List Json} {types : List DataType}
    (hv : members.get? keyword = some (.array schemas))
    (hmakes : (itemTypes inside keyword schemas).Makes A wide types) (i : Nat) :
    Option.Rel (fun v t => d.Fits S wide (l ++ [.name keyword] ++ [.index i]) v t)
      schemas[i]? types[i]? := by
  have hrel := Plan.makes_mapM hmakes i
  rw [List.getElem?_zipIdx, rel_map_left, Nat.zero_add] at hrel
  refine rel_mono hrel ?_
  intro v t hschema hmakes
  rw [List.append_assoc]
  exact h.inside _ v t (h.schema.item hkeyword hv hschema) hmakes

theorem normal_items (h : d.Fitted S A wide l members inside) (hkeyword : keyword ∈ listKeywords)
    {schemas : List Json} {types : List DataType}
    (hv : members.get? keyword = some (.array schemas))
    (hmakes : (itemTypes inside keyword schemas).Makes A wide types) : ∀ t ∈ types, t.Normal S := by
  intro t ht
  obtain ⟨i, hi⟩ := List.mem_iff_getElem?.mp ht
  have hrel := h.items hkeyword hv hmakes i
  rw [hi] at hrel
  generalize schemas[i]? = v at hrel
  cases hrel with
  | some hfits => exact hfits.normal

/-- What the schemas of a list demand in turn. -/
theorem listDemands (h : d.Fitted S A wide l members inside) (hkeyword : keyword ∈ listKeywords)
    {schemas : List Json} {types : List DataType}
    (hv : members.get? keyword = some (.array schemas))
    (hmakes : (itemTypes inside keyword schemas).Makes A wide types) (hw : w.Over S) (i : Nat) :
    Option.Rel (fun x (t : DataType) => d.Judges wide x (t.Describes (some w)))
      (JsonSchema.listDemands (l ++ [.name keyword]) schemas w)[i]? types[i]? := by
  rw [JsonSchema.listDemands, List.getElem?_map, List.getElem?_zipIdx, rel_map_left, rel_map_left,
    Nat.zero_add]
  exact rel_mono (h.items hkeyword hv hmakes i) fun _ _ _ hfits => hfits.judges w hw

end Inside

section Objects

variable {properties values : Fields Json} {types : Fields DataType} {rest : DataType}

theorem named_schema (h : d.Fitted S A wide l members inside)
    (hproperties : properties = ((members.get? "properties").bind Json.asObject?).getD [])
    {name : String} (hv : properties.get? name = some v) :
    d.Schema (l ++ [.name "properties", .name name]) v := by
  cases hmember : members.get? "properties" with
  | none =>
    rw [hproperties, hmember] at hv
    cases hv
  | some value =>
    obtain ⟨named, rfl⟩ := h.properties_object hmember
    rw [hproperties, hmember] at hv
    exact h.schema.named (by decide) hmember hv

theorem nodup_properties (h : d.Fitted S A wide l members inside)
    (hproperties : properties = ((members.get? "properties").bind Json.asObject?).getD []) :
    properties.names.Nodup := by
  cases hmember : members.get? "properties" with
  | none =>
    rw [hproperties, hmember]
    exact .nil
  | some value =>
    obtain ⟨named, rfl⟩ := h.properties_object hmember
    rw [hproperties, hmember]
    cases h.member_over hmember with
    | object hnodup _ => exact hnodup

/-- The schemas by the names of members. -/
theorem named (h : d.Fitted S A wide l members inside)
    (hproperties : properties = ((members.get? "properties").bind Json.asObject?).getD [])
    (hmakes : (properties.mapM fun (name, v) =>
      return (name, ← inside [.name "properties", .name name] v)).Makes A wide types)
    (name : String) :
    Option.Rel (fun v t => d.Fits S wide (l ++ [.name "properties"] ++ [.name name]) v t)
      (properties.get? name) (types.get? name) := by
  refine rel_mono (Plan.makes_mapM_fields
    (f := fun name v => inside [.name "properties", .name name] v) hmakes name) ?_
  intro v t hv hmakes
  rw [List.append_assoc]
  exact h.inside _ v t (h.named_schema hproperties hv) hmakes

theorem normal_named (h : d.Fitted S A wide l members inside)
    (hproperties : properties = ((members.get? "properties").bind Json.asObject?).getD [])
    (hmakes : (properties.mapM fun (name, v) =>
      return (name, ← inside [.name "properties", .name name] v)).Makes A wide types) :
    ∀ p ∈ types, p.2.Normal S := by
  intro p hp
  obtain ⟨⟨name, v⟩, hmem, hmakes⟩ := exists_of_rel_right (Plan.makes_mapM hmakes) hp
  simp only [Plan.makes_bind, Plan.makes_pure] at hmakes
  obtain ⟨t, ht, rfl⟩ := hmakes
  have hv := Fields.get?_eq_some_of_mem (h.nodup_properties hproperties) hmem
  exact (h.inside _ v t (h.named_schema hproperties hv) ht).normal

theorem normal_memberType (h : d.Fitted S A wide l members inside)
    (hkeyword : keyword ∈ schemaKeywords)
    (hmakes : (memberType inside members keyword).Makes A wide t) : t.Normal S := by
  unfold memberType at hmakes
  split at hmakes
  · rename_i hv
    exact (h.member hkeyword hv hmakes).normal
  · obtain rfl : t = .top := hmakes
    exact .any

theorem expresses_properties (h : d.Fitted S A wide l members inside)
    (hproperties : properties = ((members.get? "properties").bind Json.asObject?).getD [])
    (hnamed : ∀ name, Option.Rel
      (fun v t => d.Fits S wide (l ++ [.name "properties"] ++ [.name name]) v t)
      (properties.get? name) (types.get? name))
    (hvalues : (Json.object values).Over S) :
    d.Expresses wide l members (.object values) ["properties"]
      (∀ name t, types.get? name = some t → ∀ v, values.get? name = some v →
        t.Describes (some v)) := by
  apply expresses_keyword
  · intro v hv
    obtain ⟨named, rfl⟩ := h.properties_object hv
    have hnamed' : properties = named := by
      rw [hproperties, hv]
      rfl
    subst hnamed'
    have hall : d.Judges wide (propertiesDemand (l ++ [.name "properties"]) properties
        (.object values)) (∀ item ∈ properties, ∀ t, types.get? item.1 = some t →
          ∀ v, values.get? item.1 = some v → t.Describes (some v)) := by
      apply judges_all_map
      rintro ⟨name, v⟩ hmem
      have hrel := hnamed name
      rw [Fields.get?_eq_some_of_mem (h.nodup_properties hproperties) hmem] at hrel
      generalize types.get? name = type at hrel
      cases hrel with
      | @some _ t hfits =>
        dsimp only
        cases hvalue : Fields.get? values name with
        | none => exact judges_true nofun
        | some value =>
          cases hvalues with
          | object _ hall =>
            refine (hfits.judges value (hall _ (Fields.mem_of_get?_eq_some hvalue))).congr ?_
            simp
    refine hall.congr ⟨?_, fun hdescribes item _ => hdescribes item.1⟩
    intro hdescribes name t ht
    have hrel := hnamed name
    rw [ht] at hrel
    generalize hget : properties.get? name = v at hrel
    cases hrel with
    | some => exact hdescribes (name, _) (Fields.mem_of_get?_eq_some hget) t ht
  · intro habsent name t ht
    have hrel := hnamed name
    rw [ht, hproperties, habsent] at hrel
    cases hrel

theorem expresses_required (h : d.Fitted S A wide l members inside) {required : List String}
    (hrequired : required =
      (((members.get? "required").bind Json.asArray?).getD []).filterMap Json.asString?) :
    d.Expresses wide l members (.object values) ["required"]
      (∀ name ∈ required, ∃ v, values.get? name = some v) := by
  apply expresses_keyword
  · intro v hv
    obtain ⟨names, rfl, hstrings⟩ := h.strings hv
    have hall : d.Judges wide (d.keywordDemand l members (.object values) "required"
        (.array names)) (∀ item ∈ names, ∀ name, item.asString? = some name →
          ∃ v, values.get? name = some v) := by
      apply judges_all_map
      intro item hitem
      obtain ⟨name, rfl⟩ := hstrings item hitem
      refine (judges_holds (Fields.contains values name)).congr ?_
      rw [Fields.contains, Option.isSome_iff_exists]
      simp [Json.asString?]
    refine hall.congr ?_
    rw [hrequired, hv]
    simp only [Option.bind_some, Json.asArray?, Option.getD_some, List.mem_filterMap]
    constructor
    · rintro hpresent name ⟨item, hitem, hname⟩
      exact hpresent item hitem name hname
    · intro hpresent item hitem name hname
      exact hpresent name ⟨item, hitem, hname⟩
  · intro habsent name hname
    rw [hrequired, habsent] at hname
    cases hname

theorem expresses_others (h : d.Fitted S A wide l members inside)
    (hproperties : properties = ((members.get? "properties").bind Json.asObject?).getD [])
    (hnamed : ∀ name, Option.Rel
      (fun v t => d.Fits S wide (l ++ [.name "properties"] ++ [.name name]) v t)
      (properties.get? name) (types.get? name))
    (hrest : (memberType inside members "additionalProperties").Makes A wide rest)
    (hvalues : (Json.object values).Over S) :
    d.Expresses wide l members (.object values) ["additionalProperties"]
      (∀ name v, values.get? name = some v → types.get? name = none → rest.Describes (some v)) := by
  have hnames (name : String) : properties.contains name = true ↔ types.get? name ≠ none := by
    have hrel := hnamed name
    rw [Fields.contains]
    generalize properties.get? name = v at hrel
    generalize types.get? name = t at hrel
    cases hrel <;> simp
  apply expresses_keyword
  · intro v hv
    rw [memberType, hv] at hrest
    have hfits := h.member (by decide) hv hrest
    change d.Judges wide (if members.contains "patternProperties" then .unknown
      else otherPropertiesDemand (l ++ [.name "additionalProperties"])
        (((members.get? "properties").bind Json.asObject?).getD []) v (.object values)) _
    rw [← hproperties]
    split
    · rename_i hpatterns
      -- which members the patterns match is not known, but then the type is not exact either
      apply judges_unknown
      refine eq_true_of_ne_false fun hwide => ?_
      rw [h.notPatterned hwide] at hpatterns
      cases hpatterns
    · cases hvalues with
      | object hnodup hall =>
        have hjudges : d.Judges wide (otherPropertiesDemand (l ++ [.name "additionalProperties"])
            properties v (.object values)) (∀ item ∈ values, types.get? item.1 = none →
              rest.Describes (some item.2)) := by
          apply judges_all_map
          rintro ⟨name, value⟩ hmem
          dsimp only
          split
          · rename_i hcontains
            exact judges_true fun hnone => absurd hnone ((hnames name).mp hcontains)
          · rename_i hcontains
            refine (hfits.judges value (hall _ hmem)).congr ?_
            rw [hnames, Classical.not_not] at hcontains
            simp [hcontains]
        refine hjudges.congr ⟨?_, ?_⟩
        · intro hdescribes name value hvalue
          exact hdescribes (name, value) (Fields.mem_of_get?_eq_some hvalue)
        · intro hdescribes item hitem
          exact hdescribes item.1 item.2 (Fields.get?_eq_some_of_mem hnodup hitem)
  · intro habsent name value _ _
    rw [memberType, habsent] at hrest
    obtain rfl : rest = .top := hrest
    exact .any

/-- What the keywords for arrays demand of other values is met. -/
theorem meets_arrays (h : d.Fitted S A wide l members inside) (hw : w.asArray? = none) :
    d.Meets l members w ["items", "prefixItems", "minItems"] := by
  have hother (items : List Json) : w ≠ .array items := by
    rintro rfl
    cases hw
  intro keyword hkeyword v hv
  simp only [List.mem_cons, List.not_mem_nil, or_false] at hkeyword
  rcases hkeyword with rfl | rfl | rfl
  · change d.Decides (itemsDemand _ _ v w) true
    cases w <;> first | exact .holds true | exact absurd rfl (hother _)
  · obtain ⟨schemas, rfl⟩ := h.array (by decide) hv
    change d.Decides (prefixDemand _ schemas w) true
    cases w <;> first | exact .holds true | exact absurd rfl (hother _)
  · obtain ⟨n, rfl, -⟩ := h.count hv
    change d.Decides (countDemand n w) true
    cases w <;> first | exact .holds true | exact absurd rfl (hother _)

/-- An object type is judged along with all keywords for objects and arrays. -/
theorem expresses_objectType (h : d.Fitted S A wide l members inside)
    (hmakes : (objectType inside members).Makes A wide t) (hvalues : (Json.object values).Over S) :
    d.Expresses wide l members (.object values) structural
      (t.Describes (some (.object values))) := by
  simp only [objectType, Plan.makes_bind, Plan.makes_pure] at hmakes
  obtain ⟨types, htypes, rest, hrest, rfl⟩ := hmakes
  have hnamed := h.named rfl htypes
  refine (expresses_append (h.expresses_properties rfl hnamed hvalues)
    (expresses_append (h.expresses_required rfl)
      (expresses_append (h.expresses_others rfl hnamed hrest hvalues)
        (expresses_nothing fun _ => h.meets_arrays rfl)))).congr ?_
  rw [DataType.describes_ofObject_members_iff]
  constructor
  · rintro ⟨hproperties, hrequired, hothers, -⟩
    refine ⟨hrequired, ?_⟩
    intro name v hv
    rw [DataType.property]
    cases ht : Fields.get? types name with
    | none => exact hothers name v hv ht
    | some t => exact hproperties name t ht v hv
  · rintro ⟨hrequired, hdescribes⟩
    refine ⟨?_, hrequired, ?_, trivial⟩
    · intro name t ht v hv
      have hproperty := hdescribes name v hv
      rwa [DataType.property, ht] at hproperty
    · intro name v hv ht
      have hproperty := hdescribes name v hv
      rwa [DataType.property, ht] at hproperty

theorem normal_objectType (h : d.Fitted S A wide l members inside)
    (hmakes : (objectType inside members).Makes A wide t) : t.Normal S := by
  simp only [objectType, Plan.makes_bind, Plan.makes_pure] at hmakes
  obtain ⟨types, htypes, rest, hrest, rfl⟩ := hmakes
  exact DataType.normal_ofObject _ (h.normal_named rfl htypes) (h.normal_memberType (by decide) hrest)

end Objects

section Arrays

variable {front : List DataType} {rest : DataType} {values schemas : List Json}

/-- What the keywords for objects demand of other values is met. -/
theorem meets_objects (h : d.Fitted S A wide l members inside) (hw : w.asObject? = none)
    (hwide : wide = false) :
    d.Meets l members w ["properties", "required", "additionalProperties"] := by
  have hother (members : Fields Json) : w ≠ .object members := by
    rintro rfl
    cases hw
  intro keyword hkeyword v hv
  simp only [List.mem_cons, List.not_mem_nil, or_false] at hkeyword
  rcases hkeyword with rfl | rfl | rfl
  · obtain ⟨properties, rfl⟩ := h.properties_object hv
    change d.Decides (propertiesDemand _ properties w) true
    cases w <;> first | exact .holds true | exact absurd rfl (hother _)
  · obtain ⟨names, rfl, hstrings⟩ := h.strings hv
    refine .all ?_
    intro x hx
    obtain ⟨item, hitem, rfl⟩ := List.mem_map.mp hx
    obtain ⟨name, rfl⟩ := hstrings item hitem
    cases w <;> first | exact .holds true | exact absurd rfl (hother _)
  · change d.Decides (if members.contains "patternProperties" then .unknown
      else otherPropertiesDemand _ _ v w) true
    rw [h.notPatterned hwide]
    cases w <;> first | exact .holds true | exact absurd rfl (hother _)

theorem expresses_items (h : d.Fitted S A wide l members inside)
    (hrest : (memberType inside members "items").Makes A wide rest)
    (hschemas : schemas = ((members.get? "prefixItems").bind Json.asArray?).getD [])
    (hvalues : (Json.array values).Over S) :
    d.Expresses wide l members (.array values) ["items"]
      (∀ i v, schemas.length ≤ i → values[i]? = some v → rest.Describes (some v)) := by
  apply expresses_keyword
  · intro v hv
    rw [memberType, hv] at hrest
    have hfits := h.member (by decide) hv hrest
    have hall : d.Judges wide (itemsDemand (l ++ [.name "items"]) schemas.length v (.array values))
        (∀ value ∈ values.drop schemas.length, rest.Describes (some value)) := by
      apply judges_all_map
      intro value hvalue
      cases hvalues with
      | array hall => exact hfits.judges value (hall value (List.mem_of_mem_drop hvalue))
    rw [hschemas] at hall ⊢
    refine hall.congr ⟨?_, ?_⟩
    · intro hdescribes i value hi hvalue
      refine hdescribes value (List.mem_iff_getElem?.mpr ⟨i - schemas.length, ?_⟩)
      rw [List.getElem?_drop, ← hschemas]
      rwa [Nat.add_sub_cancel' (hschemas ▸ hi)]
    · intro hdescribes value hvalue
      obtain ⟨i, hi⟩ := List.mem_iff_getElem?.mp hvalue
      rw [List.getElem?_drop] at hi
      exact hdescribes _ value (Nat.le_add_right _ i) hi
  · intro habsent i value _ _
    rw [memberType, habsent] at hrest
    obtain rfl : rest = .top := hrest
    exact .any

theorem expresses_prefixItems (h : d.Fitted S A wide l members inside)
    (hmakes : (itemTypes inside "prefixItems"
      (((members.get? "prefixItems").bind Json.asArray?).getD [])).Makes A wide front)
    (hvalues : (Json.array values).Over S) :
    d.Expresses wide l members (.array values) ["prefixItems"]
      (∀ (i : Nat) (t : DataType), front[i]? = some t → ∀ v, values[i]? = some v →
        t.Describes (some v)) := by
  apply expresses_keyword
  · intro v hv
    obtain ⟨schemas, rfl⟩ := h.array (by decide) hv
    rw [hv] at hmakes
    have hitems := h.items (by decide) hv hmakes
    have hall : d.Judges wide (prefixDemand (l ++ [.name "prefixItems"]) schemas (.array values))
        (∀ item ∈ schemas.zipIdx, ∀ t : DataType, front[item.2]? = some t → ∀ v, values[item.2]? = some v →
          t.Describes (some v)) := by
      apply judges_all_map
      rintro ⟨v, i⟩ hmem
      have hrel := hitems i
      rw [List.mem_zipIdx_iff_getElem?.mp hmem] at hrel
      generalize front[i]? = type at hrel
      cases hrel with
      | @some _ t hfits =>
        dsimp only
        cases hvalue : values[i]? with
        | none => exact judges_true nofun
        | some value =>
          cases hvalues with
          | array hall =>
            refine (hfits.judges value (hall value (List.mem_of_getElem? hvalue))).congr ?_
            simp
    refine hall.congr ⟨?_, fun hdescribes item _ => hdescribes item.2⟩
    intro hdescribes i t ht
    have hrel := hitems i
    rw [ht] at hrel
    generalize hget : schemas[i]? = v at hrel
    cases hrel with
    | some => exact hdescribes (_, i) (List.mem_zipIdx_iff_getElem?.mpr hget) t ht
  · intro habsent i t ht
    rw [habsent] at hmakes
    obtain rfl : front = [] := hmakes
    cases ht

theorem expresses_minItems (h : d.Fitted S A wide l members inside) {minimum : Nat}
    (hminimum : minimum = match members.get? "minItems" with
      | some (.number n) => n.toNat?.getD 0
      | _ => 0) :
    d.Expresses wide l members (.array values) ["minItems"] (minimum ≤ values.length) := by
  apply expresses_keyword
  · intro v hv
    obtain ⟨n, rfl, hwhole⟩ := h.count hv
    cases n with
    | int k hrange =>
      refine (judges_holds ((Number.int k hrange).atMost values.length)).congr ?_
      rw [hminimum, hv]
      simp only [Number.atMost, Number.toNat?, decide_eq_true_eq]
      split <;> simp <;> omega
    | double x =>
      -- a count that is not written as a whole number is left out, which describes more
      have hwide : wide = true :=
        eq_true_of_ne_false fun hexact => absurd (hwhole hexact) Bool.false_ne_true
      refine judged_of_wide hwide fun _ => ?_
      rw [hminimum, hv]
      exact Nat.zero_le _
  · intro habsent
    rw [hminimum, habsent]
    exact Nat.zero_le _

/-- In a document in which schemas are what they have to be, `items` is a single schema. -/
theorem makes_arrayType (h : d.Fitted S A wide l members inside)
    (hmakes : (arrayType inside members).Makes A wide t) :
    ∃ front rest,
      (itemTypes inside "prefixItems"
        (((members.get? "prefixItems").bind Json.asArray?).getD [])).Makes A wide front ∧
      (memberType inside members "items").Makes A wide rest ∧
      t = .ofArray front rest (match members.get? "minItems" with
        | some (.number n) => n.toNat?.getD 0
        | _ => 0) := by
  simp only [arrayType, Plan.makes_bind] at hmakes
  obtain ⟨front, hfront, hmakes⟩ := hmakes
  split at hmakes
  · rename_i items hitems
    -- a list is neither a truth value nor an object, as all schemas are
    have hschema := h.schema.member (by decide) hitems
    rcases h.formed.schema _ _ hschema with hbool | hobject
    · cases hbool
    · cases hobject
  · simp only [Plan.makes_bind, Plan.makes_pure] at hmakes
    obtain ⟨rest, hrest, rfl⟩ := hmakes
    exact ⟨front, rest, hfront, hrest, rfl⟩

/-- The types by position are as many as the schemas. -/
theorem length_front (hmakes : (itemTypes inside keyword schemas).Makes A wide front) :
    front.length = schemas.length := by
  rw [← length_eq_of_rel (Plan.makes_mapM hmakes), List.length_zipIdx]

/-- An array type is judged along with all keywords for objects and arrays. -/
theorem expresses_arrayType (h : d.Fitted S A wide l members inside)
    (hmakes : (arrayType inside members).Makes A wide t) (hvalues : (Json.array values).Over S) :
    d.Expresses wide l members (.array values) structural
      (t.Describes (some (.array values))) := by
  obtain ⟨front, rest, hfront, hrest, rfl⟩ := h.makes_arrayType hmakes
  have hlength := length_front hfront
  refine (expresses_append (expresses_nothing (h.meets_objects rfl))
    (expresses_append (h.expresses_items hrest rfl hvalues)
      (expresses_append (h.expresses_prefixItems hfront hvalues)
        (h.expresses_minItems rfl)))).congr ?_
  rw [DataType.describes_ofArray_items_iff, ← hlength]
  constructor
  · rintro ⟨-, hitems, hprefix, hminimum⟩
    refine ⟨hminimum, ?_⟩
    intro i v hv
    rw [DataType.element]
    cases ht : front[i]? with
    | none => exact hitems i v (List.getElem?_eq_none_iff.mp ht) hv
    | some t => exact hprefix i t ht v hv
  · rintro ⟨hminimum, hdescribes⟩
    refine ⟨trivial, ?_, ?_, hminimum⟩
    · intro i v hi hv
      have helement := hdescribes i v hv
      rwa [DataType.element_of_le hi] at helement
    · intro i t ht v hv
      have helement := hdescribes i v hv
      rwa [DataType.element, ht] at helement

theorem normal_arrayType (h : d.Fitted S A wide l members inside)
    (hmakes : (arrayType inside members).Makes A wide t) : t.Normal S := by
  obtain ⟨front, rest, hfront, hrest, rfl⟩ := h.makes_arrayType hmakes
  refine DataType.normal_ofArray _ ?_ (h.normal_memberType (by decide) hrest)
  intro t ht
  cases hv : members.get? "prefixItems" with
  | none =>
    rw [hv] at hfront
    obtain rfl : front = [] := hfront
    cases ht
  | some v =>
    obtain ⟨schemas, rfl⟩ := h.array (by decide) hv
    rw [hv] at hfront
    exact h.normal_items (by decide) hv hfront t ht

end Arrays

end Document.Fitted

end JsonPath.JsonSchema
