import JsonPath.Proofs.Schema.Judgement
import JsonPath.Proofs.Schema.Plan
import JsonPath.Proofs.TypeDefinition.Acceptance
import JsonPath.Proofs.TypeDefinition.Tagged

/-!
The types of the forms of a schema. The type of a form describes what the form accepts if the types
of the schemas inside do, and nothing else if these are exact. Only the type of timestamps describes
more than the form accepts, since they are taken for any texts.
-/

namespace JsonPath

namespace TypeDefinition

open DataType

variable {root : Json} {A : Location → Json → DataType → Prop} {wide : Bool} {inside : Inside}
  {members : Fields Json} {form : Form} {tag : String} {v w : Json} {t : DataType}

/-- The types of the schemas that names are mapped to. -/
def mappedTypes (inside : Inside) (keyword : String) (fields : Fields Json) :
    Plan (Fields DataType) :=
  fields.mapM fun (name, v) => return (name, ← inside [.name keyword, .name name] v)

/-- The type of a form. -/
def Form.plan (root : Json) (inside : Inside) : Form → Plan DataType
  | .empty => return .top
  | .ref name =>
    match definition? root name with
    | some (location, v) => Plan.node location v
    | none => Plan.anything
  | .type name => namedType name
  | .enum texts => return .unionOf (texts.map fun text => .literal (.string text) {})
  | .elements v => return .arrayOf (← inside [.name "elements"] v)
  | .properties required optional additional => do
    let first ← mappedTypes inside "properties" required
    let second ← mappedTypes inside "optionalProperties" optional
    let properties := second.foldl (fun ps p => Fields.insert ps p.1 p.2) first
    return .ofObject properties (if additional then .top else .bottom) (Fields.names first)
  | .values v => return .recordOf (← inside [.name "values"] v)
  | .discriminator tag mapping => do
    let variants ← mapping.mapM fun (key, v) => do
      Plan.widenIf !isVariant v
      return tagged tag key (← inside [.name "mapping", .name key] v)
    return .unionOf variants

theorem asObject?_of_hasFields {keyword : String} {fields : Fields Json}
    (h : HasFields members keyword fields) :
    ((members.get? keyword).bind Json.asObject?).getD [] = fields := by
  rcases h with h | ⟨h, rfl⟩ <;> rw [h] <;> rfl

theorem texts_types (texts : List String) :
    ((texts.map Json.string).filter fun v => v.asString?.isSome).map ofJson =
      texts.map fun text => .literal (.string text) {} := by
  have hall : ∀ v ∈ texts.map Json.string, v.asString?.isSome = true :=
    List.forall_mem_map.mpr fun _ _ => rfl
  rw [List.filter_eq_self.mpr hall, List.map_map]
  rfl

/-- The type of a schema is that of its form. -/
theorem formType_eq (h : HasForm members form) :
    formType root inside members = form.plan root inside := by
  have hnone {keyword : String}
      (hkeyword : keyword ∉ ["definitions", "metadata", "nullable"] ++ form.keywords) :
      members.get? keyword = none := h.only.get?_eq_none hkeyword
  cases h with
  | empty => simp [formType, Fields.contains, hnone, Form.keywords, Form.plan]
  | @ref name _ hname =>
    cases hleads : definition? root name <;>
      simp [formType, Json.asString?, hname, hleads, Form.plan]
  | type _ hname => simp [formType, Json.asString?, hnone, Form.keywords, hname, Form.plan]
  | enum _ htexts =>
    simp [formType, Json.asArray?, hnone, Form.keywords, htexts, texts_types, Form.plan]
  | elements _ hv => simp [formType, hnone, Form.keywords, hv, Form.plan]
  | values _ hv => simp [formType, Fields.contains, hnone, Form.keywords, hv, Form.plan]
  | discriminator _ htag hmapping =>
    simp [formType, Fields.contains, Json.asString?, Json.asObject?, hnone, Form.keywords, htag,
      choiceType, hmapping, Form.plan]
  | @properties required optional additional _ hany hfirst hsecond hflag =>
    have htype : propertiesType inside members =
        (Form.properties required optional additional).plan root inside := by
      rw [propertiesType, namedTypes, namedTypes, asObject?_of_hasFields hfirst,
        asObject?_of_hasFields hsecond]
      rcases hflag with hflag | ⟨hflag, rfl⟩ <;> rw [hflag]
      · cases additional <;> rfl
      · rfl
    simp [formType, hnone, Form.keywords, hany, htype]

/-- The type describes the values that a schema accepts, and no others if it is exact. The type of a
schema that a tag may choose can be tagged then. -/
structure Fits (root : Json) (wide : Bool) (v : Json) (t : DataType) : Prop where
  normal : t.Normal .none
  covers : ∀ w : Json, w.WellFormed → Accepts root none v w → t.Describes (some w)
  accepts : wide = false → ∀ w : Json, w.WellFormed → t.Describes (some w) → Accepts root none v w
  untagged : wide = false → ∀ tag, IsVariant tag v → IsUntagged tag t

/-- The type describes the values that a form accepts, and no others if it is exact. -/
structure Form.Fits (root : Json) (wide : Bool) (form : Form) (t : DataType) : Prop where
  normal : t.Normal .none
  covers : ∀ w : Json, w.WellFormed → FormAccepts root none form w → t.Describes (some w)
  accepts : wide = false → ∀ w : Json, w.WellFormed → t.Describes (some w) →
    FormAccepts root none form w

/-- What is asked for inside a form fits. -/
def FitsInside (root : Json) (A : Location → Json → DataType → Prop) (wide : Bool)
    (inside : Inside) (form : Form) : Prop :=
  ∀ steps v t, (steps, v) ∈ form.inner → (inside steps v).Makes A wide t → Fits root wide v t

theorem fits_empty : Form.empty.Fits root wide .top :=
  ⟨.any, fun _ _ _ => .any, fun _ _ _ _ => .empty⟩

/-- What stands for anything is noted not to be exact. -/
theorem fits_anything (hmakes : Plan.anything.Makes A wide t) : form.Fits root wide t := by
  obtain ⟨hwide, rfl⟩ := Plan.makes_anything.mp hmakes
  exact ⟨.any, fun _ _ _ => .any,
    fun hexact => absurd (hexact.symm.trans hwide) Bool.false_ne_true⟩

theorem fits_ref {name : String}
    (hfits : ∀ l v t, definition? root name = some (l, v) → A l v t → Fits root wide v t)
    (hmakes : ((Form.ref name).plan root inside).Makes A wide t) :
    (Form.ref name).Fits root wide t := by
  simp only [Form.plan] at hmakes
  split at hmakes
  · rename_i l v hdefinition
    have hv := hfits l v t hdefinition (Plan.makes_node.mp hmakes)
    refine ⟨hv.normal, ?_, fun hexact w hw h => .ref hdefinition (hv.accepts hexact w hw h)⟩
    intro w hw haccepts
    cases haccepts with
    | ref hleads haccepts =>
      cases hdefinition.symm.trans hleads
      exact hv.covers w hw haccepts
  · exact fits_anything hmakes

/-- Timestamps are taken for any texts, and whole numbers for any numbers. Only the latter make the
type inexact. -/
theorem fits_type {name : String} (htime : wide = false → name ≠ "timestamp")
    (hmakes : (namedType name).Makes A wide t) : (Form.type name).Fits root wide t := by
  have hprimitive {kind : Primitive}
      (hcovers : ∀ w, isOfType name w = true → Primitive.of? w = some kind)
      (haccepts : wide = false → ∀ w, Primitive.of? w = some kind → isOfType name w = true) :
      (Form.type name).Fits root wide (.ofPrimitive kind) := by
    refine ⟨.primitive, ?_, ?_⟩
    · intro w _ h
      cases h with
      | type hof => exact .primitive (hcovers w hof)
    · intro hexact w _ h
      cases h with
      | primitive hkind => exact .type (haccepts hexact w hkind)
  unfold namedType at hmakes
  split at hmakes
  · rename_i hname
    subst hname
    obtain rfl : t = _ := hmakes
    exact hprimitive (fun _ => of_decide_eq_true) fun _ _ => decide_eq_true
  · rename_i hboolean
    split at hmakes
    · rename_i hname
      obtain rfl : t = _ := hmakes
      rcases Bool.or_eq_true_iff.mp hname with hname | hname <;> obtain rfl := of_decide_eq_true hname
      · exact hprimitive (fun _ => of_decide_eq_true) fun _ _ => decide_eq_true
      · refine hprimitive ?_ fun hexact => absurd rfl (htime hexact)
        intro w hof
        cases w with
        | string => rfl
        | null | bool | number | array | object => cases hof
    · rename_i htext
      split at hmakes
      · rename_i hname
        obtain rfl : t = _ := hmakes
        rcases Bool.or_eq_true_iff.mp hname with hname | hname <;>
          obtain rfl := of_decide_eq_true hname <;>
          exact hprimitive (fun _ => of_decide_eq_true) fun _ _ => decide_eq_true
      · rename_i hfloat
        split at hmakes
        · simp only [Plan.makes_bind, Plan.makes_widen, Plan.makes_pure] at hmakes
          obtain ⟨-, hwide, rfl⟩ := hmakes
          refine hprimitive ?_ fun hexact => absurd (hexact.symm.trans hwide) Bool.false_ne_true
          intro w hof
          unfold isOfType at hof
          split at hof
          case h_1 => exact absurd rfl hboolean
          case h_2 => exact absurd rfl htext
          case h_3 => exact absurd rfl htext
          case h_4 | h_5 => exact absurd rfl hfloat
          · cases w with
            | number => rfl
            | null | bool | string | array | object => cases hof
        · exact fits_anything hmakes

section Records

variable {u : DataType}

theorem describes_arrayOf_iff :
    (arrayOf u).Describes (some w) ↔
      ∃ items, w = .array items ∧ ∀ item ∈ items, u.Describes (some item) := by
  constructor
  · intro h
    cases w with
    | array items =>
      refine ⟨items, rfl, ?_⟩
      intro item hitem
      obtain ⟨i, hi⟩ := List.mem_iff_getElem?.mp hitem
      exact (describes_ofArray_items_iff.mp h).2 i item hi
    | null | bool | number | string | object => cases asArray?_of_describes h
  · rintro ⟨items, rfl, heach⟩
    exact describes_ofArray_items_iff.mpr
      ⟨Nat.zero_le _, fun i v hv => heach v (List.mem_of_getElem? hv)⟩

theorem describes_recordOf_iff :
    (recordOf u).Describes (some w) ↔ ∃ values : Fields Json, w = .object values ∧
      ∀ name v, values.get? name = some v → u.Describes (some v) := by
  constructor
  · intro h
    cases w with
    | object values => exact ⟨values, rfl, (describes_ofObject_members_iff.mp h).2⟩
    | null | bool | number | string | array => cases asObject?_of_describes h
  · rintro ⟨values, rfl, heach⟩
    exact describes_ofObject_members_iff.mpr ⟨List.forall_mem_nil _, heach⟩

end Records

theorem fits_enum {texts : List String} :
    (Form.enum texts).Fits root wide
      (unionOf (texts.map fun text => .literal (.string text) {})) := by
  have hnormal : ∀ t ∈ texts.map fun text => (DataType.literal (.string text) {}),
      t.Normal .none :=
    List.forall_mem_map.mpr fun text _ => .literal trivial (.string text) nofun
  have hdescribes {w : Json} (hw : w.WellFormed) :
      (unionOf (texts.map fun text => .literal (.string text) {})).Describes (some w) ↔
        ∃ text ∈ texts, w = .string text := by
    rw [describes_unionOf_of_none hnormal hw]
    constructor
    · rintro ⟨t, ht, h⟩
      obtain ⟨text, hmem, rfl⟩ := List.mem_map.mp ht
      exact ⟨text, hmem, describes_text_iff.mp h⟩
    · rintro ⟨text, hmem, rfl⟩
      exact ⟨_, List.mem_map_of_mem hmem, describes_text_iff.mpr rfl⟩
  refine ⟨normal_unionOf hnormal, ?_, ?_⟩
  · intro w hw haccepts
    cases haccepts with
    | enum hmem => exact (hdescribes hw).mpr ⟨_, hmem, rfl⟩
  · intro _ w hw h
    obtain ⟨text, hmem, rfl⟩ := (hdescribes hw).mp h
    exact .enum hmem

theorem fits_elements (hinside : FitsInside root A wide inside (.elements v))
    (hmakes : ((Form.elements v).plan root inside).Makes A wide t) :
    (Form.elements v).Fits root wide t := by
  simp only [Form.plan, Plan.makes_bind, Plan.makes_pure] at hmakes
  obtain ⟨u, hu, rfl⟩ := hmakes
  have hv := hinside _ v u List.mem_cons_self hu
  refine ⟨normal_ofArray _ (List.forall_mem_nil _) hv.normal, ?_, ?_⟩
  · intro w hw haccepts
    cases haccepts with
    | elements heach =>
      refine describes_arrayOf_iff.mpr ⟨_, rfl, ?_⟩
      intro item hitem
      exact hv.covers item (Json.wellFormedItems_iff.mp hw item hitem) (heach item hitem)
  · intro hexact w hw h
    obtain ⟨items, rfl, heach⟩ := describes_arrayOf_iff.mp h
    refine .elements fun item hitem => ?_
    exact hv.accepts hexact item (Json.wellFormedItems_iff.mp hw item hitem) (heach item hitem)

theorem wellFormed_of_get? {values : Fields Json} (h : (Json.object values).WellFormed)
    {name : String} (hget : values.get? name = some w) : w.WellFormed :=
  Json.wellFormedMembers_iff.mp h.2 _ (Fields.mem_of_get?_eq_some hget)

theorem fits_values (hinside : FitsInside root A wide inside (.values v))
    (hmakes : ((Form.values v).plan root inside).Makes A wide t) :
    (Form.values v).Fits root wide t := by
  simp only [Form.plan, Plan.makes_bind, Plan.makes_pure] at hmakes
  obtain ⟨u, hu, rfl⟩ := hmakes
  have hv := hinside _ v u List.mem_cons_self hu
  refine ⟨normal_ofObject _ (List.forall_mem_nil _) hv.normal, ?_, ?_⟩
  · intro w hw haccepts
    cases haccepts with
    | values heach =>
      refine describes_recordOf_iff.mpr ⟨_, rfl, ?_⟩
      intro name value hvalue
      exact hv.covers value (wellFormed_of_get? hw hvalue) (heach name value hvalue)
  · intro hexact w hw h
    obtain ⟨values, rfl, heach⟩ := describes_recordOf_iff.mp h
    refine .values fun name value hvalue => ?_
    exact hv.accepts hexact value (wellFormed_of_get? hw hvalue) (heach name value hvalue)

end TypeDefinition

end JsonPath
