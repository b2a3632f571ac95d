import JsonPath.Proofs.DataType.Lattice
import JsonPath.Proofs.Json.Locations

/-!
The types of single values. Such a type describes the values that are equal to its value, and the
subtype test on it decides which types describe the value. The literals of these types have to be
scalars, as those of types that are built by the functions for it are; which numbers there are among
them makes no difference, for the test compares every literal with the value itself.
-/

namespace JsonPath

namespace DataType

variable {P : DataType → Prop} {t : DataType} {v w : Json}

section Build

variable {properties : List (String × DataType)} {front : List DataType} {rest : DataType}
  {v : Option Json}

theorem describes_ofObject_iff (required : List String) :
    (ofObject properties rest required).Describes v ↔
      (object properties rest required {}).Describes v := by
  refine ⟨?_, describes_ofObject⟩
  unfold ofObject
  dsimp only
  split
  · intro h
    cases h
  · intro h
    cases h with
    | object hpresent heach =>
      exact .object (fun name hname => hpresent name ((NameSet.mem_ofList _ _).mpr hname)) heach

theorem describes_ofArray_iff (minimum : Nat) :
    (ofArray front rest minimum).Describes v ↔ (array front rest minimum {}).Describes v := by
  refine ⟨?_, describes_ofArray⟩
  unfold ofArray
  dsimp only
  split
  · intro h
    cases h
  · split
    · rename_i hlt
      intro h
      cases h with
      | array henough heach =>
        refine .array henough ?_
        intro i w hw
        have hdescribes := heach i w hw
        by_cases hi : i < (front.takeWhile fun t => !t.isNever).length
        · rwa [element_takeWhile hi] at hdescribes
        · rw [element_of_le (Nat.le_of_not_lt hi)] at hdescribes
          cases hdescribes
    · exact id

theorem describes_ofObject_members_iff {required : List String} {values : Fields Json} :
    (ofObject properties rest required).Describes (some (.object values)) ↔
      (∀ name ∈ required, ∃ v, values.get? name = some v) ∧
        ∀ name v, values.get? name = some v →
          (property properties rest name).Describes (some v) := by
  rw [describes_ofObject_iff]
  constructor
  · intro h
    cases h with
    | object hpresent heach => exact ⟨hpresent, heach⟩
  · rintro ⟨hpresent, heach⟩
    exact .object hpresent heach

theorem describes_ofArray_items_iff {minimum : Nat} {values : List Json} :
    (ofArray front rest minimum).Describes (some (.array values)) ↔
      minimum ≤ values.length ∧
        ∀ i v, values[i]? = some v → (element front rest i).Describes (some v) := by
  rw [describes_ofArray_iff]
  constructor
  · intro h
    cases h with
    | array henough heach => exact ⟨henough, heach⟩
  · rintro ⟨henough, heach⟩
    exact .array henough heach

/-- Object types describe nothing but objects. -/
theorem asObject?_of_describes {required : List String} {w : Json}
    (h : (ofObject properties rest required).Describes (some w)) : w.asObject?.isSome = true := by
  rw [describes_ofObject_iff] at h
  cases h
  rfl

theorem asArray?_of_describes {minimum : Nat} {w : Json}
    (h : (ofArray front rest minimum).Describes (some w)) : w.asArray?.isSome = true := by
  rw [describes_ofArray_iff] at h
  cases h
  rfl

theorem ofArray_eq {minimum : Nat} (hpresent : ∀ t ∈ front, t.isNever = false)
    (hpossible : front.length < minimum → rest.isNever = false) :
    ofArray front rest minimum = array front rest minimum {} := by
  have hfirst : (front.take minimum).any isNever = false := by
    rw [List.any_eq_false]
    intro t ht
    rw [hpresent t (List.mem_of_mem_take ht)]
    nofun
  have hfurther : (decide (front.length < minimum) && rest.isNever) = false := by
    by_cases hlt : front.length < minimum
    · rw [hpossible hlt, Bool.and_false]
    · rw [decide_eq_false hlt, Bool.false_and]
  have hkept : ∀ t ∈ front, (!t.isNever) = true := by
    intro t ht
    rw [hpresent t ht]
    rfl
  have hall : (front.takeWhile fun t => !t.isNever) = front := by
    simpa using @List.takeWhile_append_of_pos _ _ front [] hkept
  rw [ofArray, hfirst, hfurther, hall]
  simp

theorem ofObject_eq {required : List String}
    (hpossible : ∀ name ∈ required, (property properties rest name).isNever = false) :
    ofObject properties rest required = object properties rest (NameSet.ofList required) {} := by
  unfold ofObject
  dsimp only
  rw [if_neg]
  rw [List.any_eq_true]
  rintro ⟨name, hname, hnever⟩
  rw [hpossible name ((NameSet.mem_ofList _ _).mp hname)] at hnever
  cases hnever

end Build

section Literals

/-- All literals in the type are scalars. Null is not among them, it has a primitive type. -/
inductive ScalarLiterals : DataType → Prop
  | any {notes : Annotations} : ScalarLiterals (.any notes)
  | never {notes : Annotations} : ScalarLiterals (.never notes)
  | literal {v : Json} {notes : Annotations} (scalar : v.IsScalar) (other : v ≠ .null) :
      ScalarLiterals (.literal v notes)
  | primitive {kind : Primitive} {notes : Annotations} : ScalarLiterals (.primitive kind notes)
  | object {properties : List (String × DataType)} {rest : DataType} {required : List String}
      {notes : Annotations} (each : ∀ p ∈ properties, ScalarLiterals p.2)
      (others : ScalarLiterals rest) : ScalarLiterals (.object properties rest required notes)
  | array {front : List DataType} {rest : DataType} {minimum : Nat} {notes : Annotations}
      (each : ∀ t ∈ front, ScalarLiterals t) (others : ScalarLiterals rest) :
      ScalarLiterals (.array front rest minimum notes)
  | union {members : List DataType} {notes : Annotations} (each : ∀ t ∈ members, ScalarLiterals t) :
      ScalarLiterals (.union members notes)

theorem Normal.scalarLiterals {S : NumberSet} (h : t.Normal S) : t.ScalarLiterals := by
  induction h with
  | any => exact .any
  | never => exact .never
  | literal hscalar _ hother => exact .literal hscalar hother
  | primitive => exact .primitive
  | object _ _ _ ihprops ihrest => exact .object ihprops ihrest
  | array _ _ _ _ ihfront ihrest => exact .array ihfront ihrest
  | union _ _ _ ih => exact .union ih

theorem scalarLiterals_withNotes {notes : Annotations} (h : t.ScalarLiterals) :
    (t.withNotes notes).ScalarLiterals := by
  cases h <;> constructor <;> assumption

theorem scalarLiterals_unionClosed : UnionClosed ScalarLiterals where
  members h := by
    cases h with
    | union heach => exact heach
  union := .union
  boolean := .primitive
  bottom := .never
  mergeNotes h := by
    unfold mergeNotes
    split
    · exact h
    · exact scalarLiterals_withNotes h

theorem scalarLiterals_closed : Closed ScalarLiterals where
  top := .any
  bottom := .never
  primitive _ := .primitive
  object required hprops hrest := by
    unfold ofObject
    dsimp only
    split
    · exact .never
    · exact .object hprops hrest
  array minimum hfront hrest := by
    unfold ofArray
    dsimp only
    split
    · exact .never
    · split
      · refine .array ?_ .never
        intro t ht
        exact hfront t ((List.takeWhile_sublist _).subset ht)
      · exact .array hfront hrest
  union := scalarLiterals_unionClosed.unionOf
  withNotes _ := scalarLiterals_withNotes
  properties h := by
    cases h with
    | object hprops => exact hprops
  others h := by
    cases h with
    | object _ hrest => exact hrest
  front h := by
    cases h with
    | array hfront => exact hfront
  further h := by
    cases h with
    | array _ hrest => exact hrest
  members := scalarLiterals_unionClosed.members

end Literals

section Values

theorem get?_map_ofJson (members : Fields Json) (name : String) :
    Fields.get? (members.map fun member => (member.1, ofJson member.2)) name =
      (members.get? name).map ofJson := by
  induction members with
  | nil => rfl
  | cons member rest ih =>
    rw [List.map_cons, Fields.get?, Fields.get?]
    split
    · rfl
    · exact ih

theorem element_map_ofJson (items : List Json) (i : Nat) :
    element (items.map ofJson) bottom i = (items[i]?.map ofJson).getD bottom := by
  rw [element, List.getElem?_map]

theorem property_map_ofJson (members : Fields Json) (name : String) :
    property (members.map fun member => (member.1, ofJson member.2)) bottom name =
      ((members.get? name).map ofJson).getD bottom := by
  rw [property, get?_map_ofJson]

theorem ofArray_map_ofJson {items : List Json}
    (h : ∀ item ∈ items, (ofJson item).isNever = false) :
    ofArray (items.map ofJson) bottom items.length =
      array (items.map ofJson) bottom items.length {} := by
  apply ofArray_eq
  · intro t ht
    obtain ⟨item, hitem, rfl⟩ := List.mem_map.mp ht
    exact h item hitem
  · intro hlt
    rw [List.length_map] at hlt
    omega

theorem ofObject_map_ofJson {members : Fields Json}
    (h : ∀ member ∈ members, (ofJson member.2).isNever = false) :
    ofObject (members.map fun member => (member.1, ofJson member.2)) bottom members.names =
      object (members.map fun member => (member.1, ofJson member.2)) bottom
        (NameSet.ofList members.names) {} := by
  apply ofObject_eq
  intro name hname
  obtain ⟨w, hw⟩ := Fields.mem_names_iff.mp hname
  rw [property_map_ofJson, hw]
  exact h _ (Fields.mem_of_get?_eq_some hw)

theorem isAtom_ofJson (v : Json) : (ofJson v).isAtom = true := by
  induction v using Json.parts_induction with
  | null | bool | number | string => rfl
  | array items ih =>
    rw [ofJson, ofItems_eq,
      ofArray_map_ofJson fun item hitem => isNever_eq_false_of_isAtom (ih item hitem)]
    rfl
  | object members ih =>
    rw [ofJson, ofMembers_eq,
      ofObject_map_ofJson fun member hmember => isNever_eq_false_of_isAtom (ih member hmember)]
    rfl

theorem ofJson_array (items : List Json) :
    ofJson (.array items) = array (items.map ofJson) bottom items.length {} := by
  rw [ofJson, ofItems_eq]
  exact ofArray_map_ofJson fun item _ => isNever_eq_false_of_isAtom (isAtom_ofJson item)

theorem ofJson_object (members : Fields Json) :
    ofJson (.object members) =
      object (members.map fun member => (member.1, ofJson member.2)) bottom
        (NameSet.ofList members.names) {} := by
  rw [ofJson, ofMembers_eq]
  exact ofObject_map_ofJson fun member _ => isNever_eq_false_of_isAtom (isAtom_ofJson member.2)

theorem scalarLiterals_ofJson (v : Json) : (ofJson v).ScalarLiterals := by
  induction v using Json.parts_induction with
  | null => exact .primitive
  | bool | number | string => exact .literal trivial nofun
  | array items ih =>
    rw [ofJson_array]
    refine .array ?_ .never
    intro t ht
    obtain ⟨item, hitem, rfl⟩ := List.mem_map.mp ht
    exact ih item hitem
  | object members ih =>
    rw [ofJson_object]
    refine .object ?_ .never
    intro p hp
    obtain ⟨member, hmember, rfl⟩ := List.mem_map.mp hp
    exact ih member hmember

end Values

section Decision

/-- A test that tells which types other than unions describe a value tells it through their
members. -/
theorem someMember_iff {test : DataType → Bool} {v : Option Json}
    (htest : ∀ u : DataType, u.ScalarLiterals → u.isAny = false → u.isUnion = false →
      (test u = true ↔ u.Describes v)) (ht : t.ScalarLiterals) :
    someMember test t = true ↔ t.Describes v := by
  induction t using parts_induction with
  | any => exact iff_of_true rfl .any
  | union members notes ih =>
    cases ht with
    | union heach =>
      rw [someMember, someMemberAmong_eq, List.any_eq_true]
      constructor
      · rintro ⟨t, hmem, h⟩
        exact .union hmem ((ih t hmem (heach t hmem)).mp h)
      · intro h
        cases h with
        | union hmem h => exact ⟨_, hmem, (ih _ hmem (heach _ hmem)).mpr h⟩
  | never | literal | primitive | object | array => exact htest _ ht rfl rfl

theorem literalTest_iff (hscalar : v.IsScalar) (hany : t.isAny = false)
    (hunion : t.isUnion = false) : literalTest v t = true ↔ t.Describes (some v) := by
  cases t with
  | any => cases hany
  | union => cases hunion
  | literal =>
    refine ⟨.literal, ?_⟩
    intro h
    cases h with
    | literal hsame => exact hsame
  | primitive =>
    rw [literalTest, decide_eq_true_eq]
    refine ⟨.primitive, ?_⟩
    intro h
    cases h with
    | primitive hkind => exact hkind
  | never | object | array =>
    refine iff_of_false Bool.false_ne_true ?_
    intro h
    cases h
    all_goals exact hscalar

theorem primitiveTest_null_iff (ht : t.ScalarLiterals) (hany : t.isAny = false)
    (hunion : t.isUnion = false) : primitiveTest .null t = true ↔ t.Describes (some .null) := by
  cases ht with
  | any => cases hany
  | union => cases hunion
  | primitive =>
    rw [primitiveTest, decide_eq_true_eq]
    constructor
    · rintro rfl
      exact .primitive rfl
    · intro h
      cases h with
      | primitive hkind => exact Option.some.inj hkind
  | @literal w _ _ hother =>
    refine iff_of_false Bool.false_ne_true ?_
    intro h
    cases h with
    | literal hsame =>
      cases w with
      | null => exact hother rfl
      | bool | number | string | array | object => cases hsame
  | never | object | array =>
    refine iff_of_false Bool.false_ne_true ?_
    intro h
    cases h

/-- An array belongs to the array types that describe its items and do not ask for more. -/
theorem array_isSubtypeOf_iff_describes {items : List Json}
    (hitems : ∀ item ∈ items, ∀ t : DataType, t.ScalarLiterals →
      ((ofJson item).isSubtypeOf t = true ↔ t.Describes (some item)))
    (ht : t.ScalarLiterals) :
    (array (items.map ofJson) bottom items.length {}).isSubtypeOf t = true ↔
      t.Describes (some (.array items)) := by
  refine someMember_iff ?_ ht
  intro u hu hany hunion
  cases hu with
  | any => cases hany
  | union => cases hunion
  | @array front rest minimum notes hfront hrest =>
    have hself : (array front rest minimum notes).ScalarLiterals := .array hfront hrest
    have hover := scalarLiterals_closed.element hself
    change (array _ _ _ {}).isSubtypeOf (array front rest minimum notes) = true ↔ _
    rw [array_isSubtypeOf_array_iff]
    constructor
    · rintro ⟨hminimum, -, hsub⟩
      refine .array hminimum ?_
      intro i w hw
      have hi := hsub i
      rw [element_map_ofJson, hw] at hi
      exact (hitems w (List.mem_of_getElem? hw) _ (hover i)).mp hi
    · intro h
      cases h with
      | array henough heach =>
        refine ⟨henough, rfl, ?_⟩
        intro i
        rw [element_map_ofJson]
        cases hw : items[i]? with
        | none => rfl
        | some w => exact (hitems w (List.mem_of_getElem? hw) _ (hover i)).mpr (heach i w hw)
  | literal hscalar =>
    refine iff_of_false Bool.false_ne_true ?_
    intro h
    cases h with
    | literal hsame => exact Json.isScalar_of_same hsame hscalar
  | primitive | never | object =>
    refine iff_of_false Bool.false_ne_true ?_
    intro h
    cases h
    all_goals rename_i hkind; cases hkind

/-- An object belongs to the object types that describe its members and require no others. -/
theorem object_isSubtypeOf_iff_describes {members : Fields Json}
    (hmembers : ∀ member ∈ members, ∀ t : DataType, t.ScalarLiterals →
      ((ofJson member.2).isSubtypeOf t = true ↔ t.Describes (some member.2)))
    (ht : t.ScalarLiterals) :
    (object (members.map fun member => (member.1, ofJson member.2)) bottom
      (NameSet.ofList members.names) {}).isSubtypeOf t = true ↔
        t.Describes (some (.object members)) := by
  refine someMember_iff ?_ ht
  intro u hu hany hunion
  cases hu with
  | any => cases hany
  | union => cases hunion
  | @object properties rest required notes hprops hrest =>
    have hself : (object properties rest required notes).ScalarLiterals := .object hprops hrest
    have hover := scalarLiterals_closed.property hself
    change (object _ _ _ {}).isSubtypeOf (object properties rest required notes) = true ↔ _
    simp only [object_isSubtypeOf_object_iff, NameSet.mem_ofList, Fields.mem_names_iff,
      property_map_ofJson]
    constructor
    · rintro ⟨hrequired, -, hsub⟩
      refine .object hrequired ?_
      intro name w hw
      have hname := hsub name
      rw [hw] at hname
      exact (hmembers _ (Fields.mem_of_get?_eq_some hw) _ (hover name)).mp hname
    · intro h
      cases h with
      | object hpresent heach =>
        refine ⟨hpresent, rfl, ?_⟩
        intro name
        cases hw : Fields.get? members name with
        | none => rfl
        | some w =>
          exact (hmembers _ (Fields.mem_of_get?_eq_some hw) _ (hover name)).mpr (heach name w hw)
  | literal hscalar =>
    refine iff_of_false Bool.false_ne_true ?_
    intro h
    cases h with
    | literal hsame => exact Json.isScalar_of_same hsame hscalar
  | primitive | never | array =>
    refine iff_of_false Bool.false_ne_true ?_
    intro h
    cases h
    all_goals rename_i hkind; cases hkind

/-- The type of a value is a subtype of just the types that describe the value. -/
theorem ofJson_isSubtypeOf_iff (v : Json) (ht : t.ScalarLiterals) :
    (ofJson v).isSubtypeOf t = true ↔ t.Describes (some v) := by
  induction v using Json.parts_induction generalizing t with
  | null => exact someMember_iff (fun _ => primitiveTest_null_iff) ht
  | bool | number | string => exact someMember_iff (fun _ _ => literalTest_iff trivial) ht
  | array items ih =>
    rw [ofJson_array]
    exact array_isSubtypeOf_iff_describes (fun item hitem _ => ih item hitem) ht
  | object members ih =>
    rw [ofJson_object]
    exact object_isSubtypeOf_iff_describes (fun member hmember _ => ih member hmember) ht

end Decision

section Equality

theorem describes_ofJson_items_iff {items ws : List Json}
    (hitems : ∀ item ∈ items, ∀ w ∈ ws, (ofJson item).Describes (some w) ↔ w.same item = true) :
    (ofJson (.array items)).Describes (some (.array ws)) ↔ Json.sameItems ws items = true := by
  rw [ofJson, ofItems_eq, describes_ofArray_items_iff, Json.sameItems_iff]
  constructor
  · rintro ⟨henough, heach⟩
    have hlength : ws.length = items.length := by
      refine Nat.le_antisymm (Nat.le_of_not_lt fun hlt => ?_) henough
      have hdescribes := heach _ _ (List.getElem?_eq_getElem hlt)
      rw [element_of_le (Nat.le_of_eq (List.length_map _))] at hdescribes
      cases hdescribes
    refine ⟨hlength, ?_⟩
    intro i w item hw hitem
    have hdescribes := heach i w hw
    rw [element_map_ofJson, hitem] at hdescribes
    exact (hitems item (List.mem_of_getElem? hitem) w (List.mem_of_getElem? hw)).mp hdescribes
  · rintro ⟨hlength, hsame⟩
    refine ⟨Nat.le_of_eq hlength.symm, ?_⟩
    intro i w hw
    have hlt : i < items.length := hlength ▸ (List.getElem?_eq_some_iff.mp hw).1
    have hitem := List.getElem?_eq_getElem hlt
    rw [element_map_ofJson, hitem]
    exact (hitems _ (List.mem_of_getElem? hitem) w (List.mem_of_getElem? hw)).mpr
      (hsame i w _ hw hitem)

theorem describes_ofJson_members_iff {members ws : Fields Json} (hnames : members.names.Nodup)
    (hnames' : ws.names.Nodup)
    (hmembers : ∀ member ∈ members, ∀ w, (∃ name, ws.get? name = some w) →
      ((ofJson member.2).Describes (some w) ↔ w.same member.2 = true)) :
    (ofJson (.object members)).Describes (some (.object ws)) ↔
      (Json.object ws).same (.object members) = true := by
  rw [ofJson, ofMembers_eq, describes_ofObject_members_iff, Json.same_object_iff hnames' hnames]
  constructor
  · rintro ⟨hpresent, heach⟩ name
    have hdescribes := heach name
    rw [property_map_ofJson] at hdescribes
    cases hv : members.get? name with
    | none =>
      cases hw : ws.get? name with
      | none => exact .none
      | some w =>
        have hempty := hdescribes w hw
        rw [hv] at hempty
        cases hempty
    | some v =>
      obtain ⟨w, hw⟩ := hpresent name (Fields.mem_names_iff.mpr ⟨v, hv⟩)
      have hmember := hdescribes w hw
      rw [hv] at hmember
      rw [hw]
      exact .some ((hmembers _ (Fields.mem_of_get?_eq_some hv) w ⟨name, hw⟩).mp hmember)
  · intro hrel
    have hnames := Fields.mem_names_of_rel hrel
    refine ⟨fun name hname => Fields.mem_names_iff.mp ((hnames name).mpr hname), ?_⟩
    intro name w hw
    have hname := hrel name
    rw [hw] at hname
    rw [property_map_ofJson]
    cases hv : members.get? name with
    | none =>
      rw [hv] at hname
      cases hname
    | some v =>
      rw [hv] at hname
      cases hname with
      | some hsame =>
        exact (hmembers _ (Fields.mem_of_get?_eq_some hv) w ⟨name, hw⟩).mpr hsame

/-- The type of a value describes the values that are equal to it. -/
theorem describes_ofJson_iff (hv : v.WellFormed) (hw : w.WellFormed) :
    (ofJson v).Describes (some w) ↔ w.same v = true := by
  induction v using Json.parts_induction generalizing w with
  | null =>
    constructor
    · intro h
      cases h with
      | primitive hkind => cases w <;> first | rfl | cases hkind
    · intro hsame
      exact .primitive (Primitive.of?_eq_of_same hsame)
  | bool | number | string =>
    refine ⟨?_, .literal⟩
    intro h
    cases h with
    | literal hsame => exact hsame
  | array items ih =>
    cases w with
    | array ws =>
      apply describes_ofJson_items_iff
      intro item hitem x hx
      exact ih item hitem (Json.wellFormedItems_iff.mp hv item hitem)
        (Json.wellFormedItems_iff.mp hw x hx)
    | null | bool | number | string | object =>
      rw [ofJson_array]
      exact iff_of_false nofun nofun
  | object members ih =>
    cases w with
    | object ws =>
      apply describes_ofJson_members_iff hv.1 hw.1
      rintro member hmember x ⟨name, hx⟩
      exact ih member hmember (Json.wellFormedMembers_iff.mp hv.2 member hmember)
        (Json.wellFormedMembers_iff.mp hw.2 _ (Fields.mem_of_get?_eq_some hx))
    | null | bool | number | string | array =>
      rw [ofJson_object]
      exact iff_of_false nofun nofun

theorem not_describes_ofJson_none (v : Json) : ¬ (ofJson v).Describes none := by
  cases v with
  | null | bool | number | string => exact nofun
  | array =>
    rw [ofJson_array]
    exact nofun
  | object =>
    rw [ofJson_object]
    exact nofun

end Equality

section Made

/-- The types that the functions which build types make. Any numbers may be in their literals. -/
inductive Made : DataType → Prop
  | top : Made top
  | bottom : Made bottom
  | primitive (kind : Primitive) : Made (ofPrimitive kind)
  | ofJson (v : Json) : Made (ofJson v)
  | ofObject {properties : List (String × DataType)} {rest : DataType} (required : List String)
      (each : ∀ p ∈ properties, Made p.2) (others : Made rest) :
      Made (ofObject properties rest required)
  | ofArray {front : List DataType} {rest : DataType} (minimum : Nat) (each : ∀ t ∈ front, Made t)
      (others : Made rest) : Made (ofArray front rest minimum)
  | unionOf {ts : List DataType} (each : ∀ t ∈ ts, Made t) : Made (unionOf ts)
  | withNotes {t : DataType} (notes : Annotations) (made : Made t) : Made (t.withNotes notes)

theorem Made.scalarLiterals (h : t.Made) : t.ScalarLiterals := by
  induction h with
  | top => exact .any
  | bottom => exact .never
  | primitive => exact .primitive
  | ofJson v => exact scalarLiterals_ofJson v
  | ofObject required _ _ iheach ihothers =>
    exact scalarLiterals_closed.object required iheach ihothers
  | ofArray minimum _ _ iheach ihothers => exact scalarLiterals_closed.array minimum iheach ihothers
  | unionOf _ ih => exact scalarLiterals_closed.union ih
  | withNotes notes _ ih => exact scalarLiterals_withNotes ih

/-- The subtype test on the type of a value tells which types describe the value. What is described
by that type are the values that are equal to it. -/
theorem ofJson_decides_membership (hv : v.WellFormed) :
    (∀ t : DataType, t.Made → ((ofJson v).isSubtypeOf t = true ↔ t.Describes (some v))) ∧
      ¬ (ofJson v).Describes none ∧
        ∀ w : Json, w.WellFormed → ((ofJson v).Describes (some w) ↔ w.same v = true) := by
  refine ⟨?_, not_describes_ofJson_none v, ?_⟩
  · intro t ht
    exact ofJson_isSubtypeOf_iff v ht.scalarLiterals
  · intro w hw
    exact describes_ofJson_iff hv hw

/-- A whole number that is not a double, next to a truth value. -/
def wholePair : Json := .object [("pair", .array [.number (.ofInt (2 ^ 53 + 1)), .bool true])]

/-- The nearest double. -/
def nearest : Json := .number (.double (Double.ofInt (2 ^ 53 + 1)))

/-- Objects whose `pair` starts with the double or with a text, after which a truth value may
follow. -/
def nearestPair : DataType :=
  ofObject [("pair", ofArray [unionOf [ofPrimitive .string, ofJson nearest], ofPrimitive .boolean]
    bottom 1)] top ["pair"]

theorem ofJson_decides_membership_rounded :
    wholePair.WellFormed ∧ nearestPair.Made ∧ (ofJson wholePair).isSubtypeOf nearestPair = true ∧
      nearestPair.Describes (some wholePair) ∧
      (ofJson wholePair).Describes (some (.object [("pair", .array [nearest, .bool true])])) := by
  have hwhole : wholePair.WellFormed := ⟨by decide, ⟨trivial, trivial, trivial⟩, trivial⟩
  have hnearest : (Json.object [("pair", .array [nearest, .bool true])]).WellFormed :=
    ⟨by decide, ⟨trivial, trivial, trivial⟩, trivial⟩
  have hfirst : (unionOf [ofPrimitive .string, ofJson nearest]).Made :=
    .unionOf (forall_mem_pair (.primitive _) (.ofJson _))
  have hitems : (ofArray [unionOf [ofPrimitive .string, ofJson nearest], ofPrimitive .boolean]
      bottom 1).Made := .ofArray 1 (forall_mem_pair hfirst (.primitive _)) .bottom
  have hmade : nearestPair.Made := .ofObject _ (List.forall_mem_singleton.mpr hitems) .top
  have hsub : (ofJson wholePair).isSubtypeOf nearestPair = true := by decide +kernel
  obtain ⟨hdecides, -, hequal⟩ := ofJson_decides_membership hwhole
  exact ⟨hwhole, hmade, hsub, (hdecides _ hmade).mp hsub,
    (hequal _ hnearest).mpr (by decide +kernel)⟩

end Made

end DataType

end JsonPath
