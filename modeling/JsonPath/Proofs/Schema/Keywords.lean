import JsonPath.Proofs.DataType.Difference
import JsonPath.Proofs.Schema.Parts

/-!
What each keyword adds to the type of a schema. The type that is stated by names of types, or by the
keywords for objects and arrays, is restricted by one keyword after the other, and then describes
the values that all of them accept.
-/

namespace JsonPath.JsonSchema

variable {d : Document} {S : NumberSet} {A : Location → Json → DataType → Prop} {wide : Bool}
  {l : Location} {members : Fields Json} {inside : Inside} {keyword : String} {v w : Json}
  {t : DataType}

namespace Document.Fitted

section Stated

theorem meets_structural (h : d.Fitted S A wide l members inside) (harray : w.asArray? = none)
    (hobject : w.asObject? = none) (hwide : wide = false) : d.Meets l members w structural := by
  have hboth : d.Meets l members w (["properties", "required", "additionalProperties"] ++
      ["items", "prefixItems", "minItems"]) :=
    meets_append.mpr ⟨h.meets_objects hobject hwide, h.meets_arrays harray⟩
  exact hboth

theorem judged_primitive (h : d.Fitted S A wide l members inside) (kind : Primitive) :
    Judged wide
      (d.Decides (.holds (Primitive.of? w = some kind)) true ∧ d.Meets l members w structural)
      (d.Decides (.holds (Primitive.of? w = some kind)) false ∨ d.Fails l members w structural)
      ((DataType.ofPrimitive kind).Describes (some w)) := by
  by_cases hkind : Primitive.of? w = some kind
  · refine judged_of_true (.primitive hkind) fun hwide => ⟨?_, ?_⟩
    · exact decides_holds.mpr (decide_eq_true hkind).symm
    · refine h.meets_structural ?_ ?_ hwide <;> cases w <;> first | rfl | cases hkind
  · refine judged_of_unmet (decides_holds.mpr (decide_eq_false hkind).symm) ?_
    intro hdescribes
    cases hdescribes with
    | primitive hof => exact hkind hof

/-- The type of a name is judged along with all keywords for objects and arrays. -/
theorem judged_namedType (h : d.Fitted S A wide l members inside) {name : String}
    (hmakes : (namedType inside members name).Makes A wide t) (hw : w.Over S) :
    Judged wide (d.Decides (typeDemand w name) true ∧ d.Meets l members w structural)
      (d.Decides (typeDemand w name) false ∨ d.Fails l members w structural)
      (t.Describes (some w)) := by
  unfold namedType at hmakes
  split at hmakes
  · obtain rfl : t = _ := hmakes
    exact h.judged_primitive .null
  · obtain rfl : t = _ := hmakes
    exact h.judged_primitive .boolean
  · obtain rfl : t = _ := hmakes
    exact h.judged_primitive .number
  · simp only [Plan.makes_bind, Plan.makes_widen, Plan.makes_pure] at hmakes
    obtain ⟨-, hwide, rfl⟩ := hmakes
    -- the type describes fractions as well, which are not accepted
    refine judged_of_wide hwide ?_
    rintro ⟨hinteger, -⟩
    cases w with
    | number => exact .primitive rfl
    | null | bool | string | array | object =>
      exact absurd (decides_holds.mp hinteger).symm Bool.false_ne_true
  · obtain rfl : t = _ := hmakes
    exact h.judged_primitive .string
  · cases w with
    | array values => exact (h.expresses_arrayType hmakes hw).met (.holds true)
    | null | bool | number | string | object =>
      refine judged_of_unmet (.holds false) fun hdescribes => ?_
      obtain ⟨front, rest, -, -, rfl⟩ := h.makes_arrayType hmakes
      cases DataType.asArray?_of_describes hdescribes
  · cases w with
    | object values => exact (h.expresses_objectType hmakes hw).met (.holds true)
    | null | bool | number | string | array =>
      refine judged_of_unmet (.holds false) fun hdescribes => ?_
      simp only [objectType, Plan.makes_bind, Plan.makes_pure] at hmakes
      obtain ⟨types, -, rest, -, rfl⟩ := hmakes
      cases DataType.asObject?_of_describes hdescribes
  · obtain ⟨hwide, rfl⟩ := Plan.makes_anything.mp hmakes
    exact judged_of_wide hwide fun _ => .any

theorem normal_namedType (h : d.Fitted S A wide l members inside) {name : String}
    (hmakes : (namedType inside members name).Makes A wide t) : t.Normal S := by
  have hprimitive {kind : Primitive} (ht : t = .ofPrimitive kind) : t.Normal S := by
    rw [ht]
    exact .primitive
  unfold namedType at hmakes
  split at hmakes
  · exact hprimitive hmakes
  · exact hprimitive hmakes
  · exact hprimitive hmakes
  · simp only [Plan.makes_bind, Plan.makes_pure] at hmakes
    obtain ⟨-, -, ht⟩ := hmakes
    exact hprimitive ht
  · exact hprimitive hmakes
  · exact h.normal_arrayType hmakes
  · exact h.normal_objectType hmakes
  · obtain ⟨-, rfl⟩ := Plan.makes_anything.mp hmakes
    exact .any

/-- The names of types are strings. -/
theorem typeNames (h : d.Fitted S A wide l members inside) {items : List Json}
    (hv : members.get? "type" = some (.array items)) :
    items = (items.filterMap Json.asString?).map .string := by
  have hkind := h.kind (by decide) hv
  change isStrings (.array items) = true at hkind
  change items.all (·.asString?.isSome) = true at hkind
  clear hv
  induction items with
  | nil => rfl
  | cons item rest ih =>
    rw [List.all_cons, Bool.and_eq_true] at hkind
    cases item with
    | string s => exact congrArg (Json.string s :: ·) (ih hkind.2)
    | null | bool | number | array | object => cases hkind.1

theorem normal_namedTypes (h : d.Fitted S A wide l members inside) {names : List String}
    {types : List DataType} (hmakes : ∀ i : Nat, Option.Rel
      (fun name t => (namedType inside members name).Makes A wide t) names[i]? types[i]?) :
    ∀ t ∈ types, t.Normal S := by
  intro t ht
  obtain ⟨name, -, hname⟩ := exists_of_rel_right hmakes ht
  exact h.normal_namedType hname

/-- The types of several names are judged by that one of the names is a type of the value. -/
theorem judged_namedTypes (h : d.Fitted S A wide l members inside) {names : List String}
    {types : List DataType} (hmakes : ∀ i : Nat, Option.Rel
      (fun name t => (namedType inside members name).Makes A wide t) names[i]? types[i]?)
    (hw : w.Over S) :
    Judged wide
      ((∃ name ∈ names, d.Decides (typeDemand w name) true) ∧ d.Meets l members w structural)
      ((∀ name ∈ names, d.Decides (typeDemand w name) false) ∨ d.Fails l members w structural)
      ((DataType.unionOf types).Describes (some w)) := by
  have hunion := (DataType.standsFor_ofJson hw).describes_unionOf_iff (h.normal_namedTypes hmakes)
  exact (judged_exists hmakes fun _ _ ht => h.judged_namedType ht hw).congr hunion.symm

/-- A value is of one of the types that have names. -/
theorem exists_typeName (d : Document) (w : Json) :
    ∃ name ∈ ["null", "boolean", "number", "string", "array", "object"],
      d.Decides (typeDemand w name) true := by
  cases w with
  | null => exact ⟨"null", by decide, .holds true⟩
  | bool => exact ⟨"boolean", by decide, .holds true⟩
  | number => exact ⟨"number", by decide, .holds true⟩
  | string => exact ⟨"string", by decide, .holds true⟩
  | array => exact ⟨"array", by decide, .holds true⟩
  | object => exact ⟨"object", by decide, .holds true⟩

/-- Without names, types of all kinds are made. -/
theorem makes_unnamed {arrays objects : DataType}
    (harrays : (arrayType inside members).Makes A wide arrays)
    (hobjects : (objectType inside members).Makes A wide objects) (i : Nat) :
    Option.Rel (fun name t => (namedType inside members name).Makes A wide t)
      ["null", "boolean", "number", "string", "array", "object"][i]?
      [DataType.ofPrimitive .null, .ofPrimitive .boolean, .ofPrimitive .number,
        .ofPrimitive .string, arrays, objects][i]? := by
  match i with
  | 0 | 1 | 2 | 3 => exact .some rfl
  | 4 => exact .some harrays
  | 5 => exact .some hobjects
  | _ + 6 => exact .none

theorem normal_statedType (h : d.Fitted S A wide l members inside)
    (hmakes : (statedType inside members).Makes A wide t) : t.Normal S := by
  unfold statedType at hmakes
  split at hmakes
  · exact h.normal_namedType hmakes
  · simp only [Plan.makes_bind, Plan.makes_pure] at hmakes
    obtain ⟨types, htypes, rfl⟩ := hmakes
    exact DataType.normal_unionOf (h.normal_namedTypes (Plan.makes_mapM htypes))
  · obtain ⟨-, rfl⟩ := Plan.makes_anything.mp hmakes
    exact .any
  · split at hmakes
    · simp only [Plan.makes_bind, Plan.makes_pure] at hmakes
      obtain ⟨arrays, harrays, objects, hobjects, rfl⟩ := hmakes
      exact DataType.normal_unionOf (h.normal_namedTypes (makes_unnamed harrays hobjects))
    · obtain rfl : t = .top := hmakes
      exact .any

/-- The stated type is judged by the names of types along with the keywords for objects and
arrays. -/
theorem expresses_statedType (h : d.Fitted S A wide l members inside)
    (hmakes : (statedType inside members).Makes A wide t) (hw : w.Over S) :
    d.Expresses wide l members w ("type" :: structural) (t.Describes (some w)) := by
  unfold statedType at hmakes
  split at hmakes
  · rename_i hv
    exact expresses_cons hv (h.judged_namedType hmakes hw)
  · rename_i items hv
    simp only [Plan.makes_bind, Plan.makes_pure] at hmakes
    obtain ⟨types, htypes, rfl⟩ := hmakes
    have hdemand : d.keywordDemand l members w "type" (.array items) =
        .any ((items.filterMap Json.asString?).map (typeDemand w)) := by
      change Demand.any _ = _
      rw [h.typeNames hv, List.map_map, ← h.typeNames hv]
      rfl
    apply expresses_cons hv
    rw [hdemand, decides_any_true, decides_any_false, List.forall_mem_map]
    refine (h.judged_namedTypes (Plan.makes_mapM htypes) hw).change ?_ ?_ fun _ => id
    · rintro ⟨⟨x, hx, htrue⟩, hmeets⟩
      obtain ⟨name, hname, rfl⟩ := List.mem_map.mp hx
      exact ⟨⟨name, hname, htrue⟩, hmeets⟩
    · rintro _ ⟨⟨name, hname, htrue⟩, hmeets⟩
      exact ⟨⟨_, List.mem_map_of_mem hname, htrue⟩, hmeets⟩
  · rename_i v hstring harray hv
    have hkind := h.kind (by decide) hv
    change (v.asString?.isSome || isStrings v) = true at hkind
    cases v with
    | string name => exact absurd rfl (hstring name)
    | array items => exact absurd rfl (harray items)
    | null | bool | number | object => cases hkind
  · rename_i hv
    have habsent : d.Meets l members w ["type"] := meets_absent (by simpa using hv)
    have hstated : d.Expresses wide l members w structural (t.Describes (some w)) := by
      split at hmakes
      · simp only [Plan.makes_bind, Plan.makes_pure] at hmakes
        obtain ⟨arrays, harrays, objects, hobjects, rfl⟩ := hmakes
        obtain ⟨name, hname, htrue⟩ := exists_typeName d w
        -- the value is of one of the types, so that only the other keywords matter
        refine (h.judged_namedTypes (makes_unnamed harrays hobjects) hw).change ?_ (fun _ => (·.2)) ?_
        · exact fun hmeets => ⟨⟨name, hname, htrue⟩, hmeets⟩
        · rintro _ (hfalse | hfails)
          · exact absurd ((hfalse name hname).unique htrue) Bool.false_ne_true
          · exact hfails
      · rename_i hnone
        obtain rfl : t = .top := hmakes
        refine judged_of_true .any fun _ => meets_absent ?_
        intro keyword hkeyword
        rw [List.any_eq_true, not_exists] at hnone
        simpa [Fields.contains, hkeyword] using hnone keyword
    exact (expresses_append (expresses_nothing fun _ => habsent) hstated).congr (iff_of_eq (true_and _))

end Stated

end Document.Fitted

/-- The type is judged by what the keywords of a schema demand. -/
structure Document.Expressed (d : Document) (S : NumberSet) (wide : Bool) (l : Location)
    (members : Fields Json) (keywords : List String) (t : DataType) : Prop where
  normal : t.Normal S
  expresses : ∀ w : Json, w.Over S →
    d.Expresses wide l members w keywords (t.Describes (some w))

namespace Document

variable {keywords others : List String} {u : DataType}

theorem Expressed.intersect (ht : d.Expressed S wide l members keywords t)
    (hu : d.Expressed S wide l members others u) :
    d.Expressed S wide l members (keywords ++ others) (t.intersect u) where
  normal := DataType.normal_intersect ht.normal hu.normal
  expresses w hw := by
    have hboth := (DataType.standsFor_ofJson hw).describes_intersect_iff ht.normal hu.normal
    exact (expresses_append (ht.expresses w hw) (hu.expresses w hw)).congr hboth.symm

theorem Expressed.absent (ht : d.Expressed S wide l members keywords t)
    (habsent : members.get? keyword = none) :
    d.Expressed S wide l members (keywords ++ [keyword]) t where
  normal := ht.normal
  expresses w hw := by
    have hnothing : d.Expresses wide l members w [keyword] True :=
      expresses_nothing fun _ => meets_absent (by simpa using habsent)
    exact (expresses_append (ht.expresses w hw) hnothing).congr (iff_of_eq (and_true _))

/-- A keyword that is there is judged by what it demands. -/
theorem expressed_keyword (hv : members.get? keyword = some v) (ht : t.Normal S)
    (h : ∀ w : Json, w.Over S →
      d.Judges wide (d.keywordDemand l members w keyword v) (t.Describes (some w))) :
    d.Expressed S wide l members [keyword] t where
  normal := ht
  expresses w hw := expresses_present hv (h w hw)

namespace Fitted

theorem expressed_statedType (h : d.Fitted S A wide l members inside)
    (hmakes : (statedType inside members).Makes A wide t) :
    d.Expressed S wide l members ("type" :: structural) t :=
  ⟨h.normal_statedType hmakes, fun _ hw => h.expresses_statedType hmakes hw⟩

section Values

theorem expressed_enum (h : d.Fitted S A wide l members inside) {values : List Json}
    (hv : members.get? "enum" = some (.array values)) :
    d.Expressed S wide l members ["enum"] (DataType.unionOf (values.map .ofJson)) := by
  have hvalues : ∀ value ∈ values, value.Over S := by
    cases h.member_over hv with
    | array hall => exact hall
  have hnormal : ∀ t ∈ values.map DataType.ofJson, t.Normal S := by
    intro t ht
    obtain ⟨value, hvalue, rfl⟩ := List.mem_map.mp ht
    exact DataType.normal_ofJson (hvalues value hvalue)
  refine expressed_keyword hv (DataType.normal_unionOf hnormal) ?_
  intro w hw
  refine (judges_holds (values.any fun value => w.same value)).congr ?_
  rw [(DataType.standsFor_ofJson hw).describes_unionOf_iff hnormal, List.any_eq_true]
  have hequal {value : Json} (hvalue : value ∈ values) :=
    DataType.describes_ofJson_iff (hvalues value hvalue).wellFormed hw.wellFormed
  constructor
  · rintro ⟨value, hvalue, hsame⟩
    exact ⟨_, List.mem_map_of_mem hvalue, (hequal hvalue).mpr hsame⟩
  · rintro ⟨t, ht, hdescribes⟩
    obtain ⟨value, hvalue, rfl⟩ := List.mem_map.mp ht
    exact ⟨value, hvalue, (hequal hvalue).mp hdescribes⟩

theorem expressed_const (h : d.Fitted S A wide l members inside)
    (hv : members.get? "const" = some v) :
    d.Expressed S wide l members ["const"] (DataType.ofJson v) := by
  have hover := h.member_over hv
  refine expressed_keyword hv (DataType.normal_ofJson hover) ?_
  intro w hw
  exact (judges_holds (w.same v)).congr
    (DataType.describes_ofJson_iff hover.wellFormed hw.wellFormed).symm

theorem expressed_restricted (h : d.Fitted S A wide l members inside)
    (ht : d.Expressed S wide l members keywords t) :
    d.Expressed S wide l members (keywords ++ ["enum"] ++ ["const"]) (restricted members t) := by
  unfold restricted
  dsimp only
  cases hv : members.get? "enum" with
  | none =>
    have henum := ht.absent hv
    split
    · rename_i hconst
      exact henum.intersect (h.expressed_const hconst)
    · rename_i hconst
      exact henum.absent hconst
  | some v =>
    obtain ⟨values, rfl⟩ := h.array (by decide) hv
    have henum := ht.intersect (h.expressed_enum hv)
    split
    · rename_i hconst
      exact henum.intersect (h.expressed_const hconst)
    · rename_i hconst
      exact henum.absent hconst

end Values

section Lists

variable {schemas : List Json} {types : List DataType}

theorem expressed_allOf (h : d.Fitted S A wide l members inside)
    (ht : d.Expressed S wide l members keywords t)
    (hmakes : (itemTypes inside "allOf"
      (((members.get? "allOf").bind Json.asArray?).getD [])).Makes A wide types) :
    d.Expressed S wide l members (keywords ++ ["allOf"]) (types.foldl .intersect t) := by
  cases hv : members.get? "allOf" with
  | none =>
    rw [hv] at hmakes
    obtain rfl : types = [] := hmakes
    exact ht.absent hv
  | some v =>
    obtain ⟨schemas, rfl⟩ := h.array (by decide) hv
    rw [hv] at hmakes
    have hnormal := h.normal_items (by decide) hv hmakes
    refine ⟨DataType.normal_foldl_intersect ht.normal hnormal, ?_⟩
    intro w hw
    have hall : d.Expresses wide l members w ["allOf"] (∀ u ∈ types, u.Describes (some w)) :=
      expresses_present hv (judges_all (h.listDemands (by decide) hv hmakes hw))
    exact (expresses_append (ht.expresses w hw) hall).congr
      ((DataType.standsFor_ofJson hw).describes_foldl_intersect_iff ht.normal hnormal).symm

/-- A list of schemas, one of which has to accept a value. -/
theorem expressed_choice (ht : d.Expressed S wide l members keywords t) {choice : Option DataType}
    (hmakes : Option.Rel (fun schemas t => (anyType inside keyword schemas).Makes A wide t)
      ((members.get? keyword).bind Json.asArray?) choice)
    (harray : ∀ v, members.get? keyword = some v → ∃ schemas, v = .array schemas)
    (hchoice : ∀ schemas types, members.get? keyword = some (.array schemas) →
      (itemTypes inside keyword schemas).Makes A wide types →
      d.Expressed S wide l members [keyword] (.unionOf types)) :
    d.Expressed S wide l members (keywords ++ [keyword]) (choice.toList.foldl .intersect t) := by
  cases hv : members.get? keyword with
  | none =>
    rw [hv] at hmakes
    cases hmakes
    exact ht.absent hv
  | some v =>
    obtain ⟨schemas, rfl⟩ := harray v hv
    rw [hv] at hmakes
    cases hmakes with
    | some hmakes =>
      obtain ⟨types, htypes, rfl⟩ := Plan.makes_map.mp hmakes
      exact ht.intersect (hchoice schemas types hv htypes)

theorem expressed_anyOf (h : d.Fitted S A wide l members inside)
    (hv : members.get? "anyOf" = some (.array schemas))
    (hmakes : (itemTypes inside "anyOf" schemas).Makes A wide types) :
    d.Expressed S wide l members ["anyOf"] (.unionOf types) := by
  have hnormal := h.normal_items (by decide) hv hmakes
  refine expressed_keyword hv (DataType.normal_unionOf hnormal) ?_
  intro w hw
  exact (judges_any (h.listDemands (by decide) hv hmakes hw)).congr
    ((DataType.standsFor_ofJson hw).describes_unionOf_iff hnormal).symm

theorem expressed_oneOf (h : d.Fitted S A wide l members inside)
    (hv : members.get? "oneOf" = some (.array schemas))
    (hmakes : (itemTypes inside "oneOf" schemas).Makes A wide types)
    (hone : wide = false → schemas.length ≤ 1) :
    d.Expressed S wide l members ["oneOf"] (.unionOf types) := by
  have hnormal := h.normal_items (by decide) hv hmakes
  refine expressed_keyword hv (DataType.normal_unionOf hnormal) ?_
  intro w hw
  refine (judges_one (h.listDemands (by decide) hv hmakes hw) ?_).congr
    ((DataType.standsFor_ofJson hw).describes_unionOf_iff hnormal).symm
  rw [JsonSchema.listDemands, List.length_map, List.length_zipIdx]
  exact hone

theorem expressed_combining (h : d.Fitted S A wide l members inside)
    (ht : d.Expressed S wide l members keywords t)
    (hmakes : (combining inside members t).Makes A wide u) :
    d.Expressed S wide l members (keywords ++ ["allOf"] ++ ["anyOf"] ++ ["oneOf"]) u := by
  simp only [combining, Plan.makes_bind, Plan.makes_option_mapM, Plan.makes_widenIf,
    Plan.makes_pure] at hmakes
  obtain ⟨all, hall, any, hany, -, hwide, one, hone, rfl⟩ := hmakes
  rw [List.foldl_append, List.foldl_append]
  refine expressed_choice (expressed_choice (h.expressed_allOf ht hall) hany
    (fun _ => h.array (by decide)) fun _ _ => h.expressed_anyOf) hone
    (fun _ => h.array (by decide)) ?_
  intro schemas types hv htypes
  refine h.expressed_oneOf hv htypes fun hexact => Nat.le_of_not_lt fun hlt => ?_
  have hfew := hwide (by simpa [hv, Json.asArray?] using hlt)
  exact absurd (hexact.symm.trans hfew) Bool.false_ne_true

end Lists

section Others

theorem expressed_referring (h : d.Fitted S A wide l members inside)
    (htold : ∀ l v t, d.Schema l v → A l v t → d.Fits S wide l v t)
    (ht : d.Expressed S wide l members keywords t)
    (hmakes : (referring d l members t).Makes A wide u) :
    d.Expressed S wide l members (keywords ++ ["$ref"]) u := by
  cases hv : members.get? "$ref" with
  | none =>
    rw [referring, hv] at hmakes
    obtain rfl : u = t := hmakes
    exact ht.absent hv
  | some v =>
    have hkind := h.kind (by decide) hv
    cases v with
    | string reference =>
      simp only [referring, hv, Option.bind_some, Json.asString?] at hmakes
      split at hmakes
      · rename_i target schema hresolve
        simp only [Plan.makes_bind, Plan.makes_node, Plan.makes_pure] at hmakes
        obtain ⟨referred, hreferred, rfl⟩ := hmakes
        have hfits := htold _ _ _ (h.schema.referred hv hresolve) hreferred
        refine ht.intersect (expressed_keyword hv hfits.normal ?_)
        intro w hw
        have hdemand : d.keywordDemand l members w "$ref" (.string reference) =
            .schema target schema w := by
          simp only [Document.keywordDemand, hresolve]
        rw [hdemand]
        exact hfits.judges w hw
      · rename_i hresolve
        simp only [Plan.makes_bind, Plan.makes_widen, Plan.makes_pure] at hmakes
        obtain ⟨-, hwide, rfl⟩ := hmakes
        refine ⟨ht.normal, ?_⟩
        intro w hw
        exact judged_of_wide hwide fun hmeets =>
          (ht.expresses w hw).covers (meets_append.mp hmeets).1
    | null | bool | number | array | object => cases hkind

/-- What is left after values are excluded. All that is decided about these has to be told. -/
theorem expressed_excluding (h : d.Fitted S A wide l members inside)
    (hnot : ∀ v t, members.get? "not" = some v → (inside [.name "not"] v).Makes A wide t →
      d.Fits S false (l ++ [.name "not"]) v t)
    (ht : d.Expressed S wide l members keywords t)
    (hmakes : (excluding inside members t).Makes A wide u) :
    d.Expressed S wide l members (keywords ++ ["not"]) u := by
  cases hv : members.get? "not" with
  | none =>
    rw [excluding, hv] at hmakes
    obtain rfl : u = t := hmakes
    exact ht.absent hv
  | some v =>
    simp only [excluding, hv, Plan.makes_bind, Plan.makes_widenIf, Plan.makes_pure] at hmakes
    obtain ⟨excluded, hexcluded, -, hwide, rfl⟩ := hmakes
    have hfits := hnot v excluded hv hexcluded
    refine ⟨DataType.normal_subtract ht.normal, ?_⟩
    intro w hw
    have hjudged : d.Expresses wide l members w (keywords ++ ["not"])
        (t.Describes (some w) ∧ ¬ excluded.Describes (some w)) :=
      expresses_append (ht.expresses w hw) (expresses_present hv (judges_not (hfits.judges w hw)))
    have hstands := DataType.standsFor_ofJson hw
    -- a difference may leave some of what is excluded, if the type is not exact
    cases wide with
    | true =>
      refine judged_of_wide rfl fun hmeets => ?_
      obtain ⟨hdescribes, hother⟩ := hjudged.covers hmeets
      exact (DataType.leaves_subtract t ht.normal.over hfits.normal.over).2 _ hw.held hdescribes hother
    | false =>
      refine hjudged.congr (hstands.describes_subtract_iff hw.held ht.normal hfits.normal ?_).symm
      simpa using hwide

end Others

end Fitted

end Document

end JsonPath.JsonSchema
