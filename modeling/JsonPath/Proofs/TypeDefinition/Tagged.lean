import JsonPath.Proofs.DataType.Unnumbered
import JsonPath.Schema.TypeDefinition

/-!
Object types with a tag in front. Tagged, a type describes the objects that hold the key of the tag
and that the type describes without the tag. If the type demands the tag itself it describes none of
these.
-/

namespace JsonPath

namespace Fields

variable {α : Type}

/-- The fields other than those of a name. -/
def without (tag : String) (fields : Fields α) : Fields α := fields.filter fun p => p.1 ≠ tag

theorem get?_without (tag : String) (fields : Fields α) (name : String) :
    (fields.without tag).get? name = if name = tag then none else fields.get? name := by
  induction fields with
  | nil => exact (ite_self _).symm
  | cons field rest ih =>
    obtain ⟨key, value⟩ := field
    unfold without at ih ⊢
    by_cases hkey : key = tag <;> by_cases hname : key = name <;>
      simp_all [get?]

theorem names_without_sublist (tag : String) (fields : Fields α) :
    (fields.without tag).names.Sublist fields.names := List.filter_sublist.map _

end Fields

theorem Json.WellFormed.without {values : Fields Json} (h : (Json.object values).WellFormed)
    (tag : String) : (Json.object (values.without tag)).WellFormed := by
  refine ⟨h.1.sublist (values.names_without_sublist tag), wellFormedMembers_iff.mpr ?_⟩
  intro member hmember
  exact wellFormedMembers_iff.mp h.2 member (List.mem_filter.mp hmember |>.1)

namespace TypeDefinition

open DataType

variable {tag key : String} {t : DataType} {values : Fields Json}

theorem taggedEach_eq (tag key : String) (ts : List DataType) :
    taggedEach tag key ts = ts.map (tagged tag key) := by
  induction ts with
  | nil => rfl
  | cons t rest ih => rw [taggedEach, ih, List.map_cons]

theorem describes_text_iff {w : Json} {notes : Annotations} :
    (literal (.string key) notes).Describes (some w) ↔ w = .string key := by
  constructor
  · intro h
    cases h with
    | literal hsame =>
      cases w with
      | string s => exact congrArg Json.string (beq_iff_eq.mp hsame)
      | null | bool | number | array | object => cases hsame
  · rintro rfl
    exact .literal (beq_self_eq_true key)

section Normal

variable {S : NumberSet}

theorem normal_taggedObject (tag key : String) (ht : t.Normal S) :
    (taggedObject tag key t).Normal S := by
  cases t with
  | object properties rest required notes =>
    cases ht with
    | object hprops hrest =>
      refine normal_withNotes.mpr (normal_ofObject _ (List.forall_mem_cons.mpr ⟨?_, ?_⟩) hrest)
      · exact .literal trivial (.string key) nofun
      · intro p hp
        exact hprops p (List.mem_filter.mp hp).1
  | any | never | literal | primitive | array | union => exact ht

theorem normal_tagged (tag key : String) (ht : t.Normal S) : (tagged tag key t).Normal S := by
  induction t using parts_induction with
  | union members notes ih =>
    cases ht with
    | union heach =>
      rw [tagged, taggedEach_eq]
      exact normal_unionOf (List.forall_mem_map.mpr fun m hm => ih m hm (heach m hm))
  | any | never | literal | primitive | object | array => exact normal_taggedObject tag key ht

end Normal

section Describes

variable {properties : Fields DataType} {rest : DataType} {required : List String}
  {notes : Annotations}

theorem property_tagged (name : String) :
    property ((tag, .literal (.string key) {}) :: properties.without tag) rest name =
      if name = tag then .literal (.string key) {} else property properties rest name := by
  rw [property, Fields.get?, Fields.get?_without]
  by_cases h : name = tag
  · rw [if_pos h.symm, if_pos h]
    rfl
  · rw [if_neg (Ne.symm h), if_neg h, if_neg h]
    rfl

/-- A tagged object type describes the objects that hold the key and that the type describes
without the tag, if the type does not demand the tag itself. -/
theorem describes_taggedObject_iff :
    (taggedObject tag key (object properties rest required notes)).Describes
        (some (.object values)) ↔
      values.get? tag = some (.string key) ∧ (∀ name ∈ required, ∃ v, values.get? name = some v) ∧
        ∀ name v, (values.without tag).get? name = some v →
          (property properties rest name).Describes (some v) := by
  change (((ofObject ((tag, .literal (.string key) {}) :: properties.without tag) rest
    (required ++ [tag])).withNotes notes).Describes _) ↔ _
  rw [describes_withNotes, describes_ofObject_members_iff]
  simp only [List.forall_mem_append, List.forall_mem_singleton, property_tagged,
    Fields.get?_without]
  constructor
  · rintro ⟨⟨hpresent, v, hv⟩, heach⟩
    have hkey := heach tag v hv
    rw [if_pos rfl, describes_text_iff] at hkey
    refine ⟨hkey ▸ hv, hpresent, ?_⟩
    intro name w hw
    split at hw
    · cases hw
    · rename_i hname
      have hdescribes := heach name w hw
      rwa [if_neg hname] at hdescribes
  · rintro ⟨hkey, hpresent, heach⟩
    refine ⟨⟨hpresent, _, hkey⟩, ?_⟩
    intro name w hw
    split
    · rename_i hname
      rw [hname, hkey] at hw
      exact describes_text_iff.mpr (Option.some.inj hw).symm
    · rename_i hname
      exact heach name w (by rw [if_neg hname, hw])

/-- What a type describes without the tag it describes with the tag, if it is tagged. -/
theorem describes_tagged (ht : t.Normal .none) (hvalues : (Json.object values).WellFormed)
    (hkey : values.get? tag = some (.string key))
    (h : t.Describes (some (.object (values.without tag)))) :
    (tagged tag key t).Describes (some (.object values)) := by
  induction t using parts_induction with
  | any => exact .any
  | never => cases h
  | primitive kind =>
    cases h with
    | primitive hkind => cases hkind
  | literal v =>
    cases h with
    | literal hsame =>
      cases ht with
      | literal hscalar => exact (Json.isScalar_of_same hsame hscalar).elim
  | object properties rest required notes =>
    cases h with
    | object hpresent heach =>
      refine describes_taggedObject_iff.mpr ⟨hkey, ?_, heach⟩
      intro name hname
      obtain ⟨v, hv⟩ := hpresent name hname
      rw [Fields.get?_without] at hv
      split at hv
      · cases hv
      · exact ⟨v, hv⟩
  | array => cases h
  | union members notes ih =>
    cases ht with
    | union heach =>
      cases h with
      | union hmem h =>
        rw [tagged, taggedEach_eq, describes_unionOf_of_none
          (List.forall_mem_map.mpr fun m hm => normal_tagged tag key (heach m hm)) hvalues]
        exact ⟨_, List.mem_map_of_mem hmem, ih _ hmem (heach _ hmem) h⟩

/-- The type is the empty one, or an object type that does not demand the tag. -/
def IsUntagged (tag : String) : DataType → Prop
  | .never _ => True
  | .object _ _ required _ => tag ∉ required
  | _ => False

theorem isUntagged_withNotes : IsUntagged tag (t.withNotes notes) ↔ IsUntagged tag t := by
  cases t <;> rfl

theorem isUntagged_ofObject (h : tag ∉ required) :
    IsUntagged tag (ofObject properties rest required) := by
  unfold ofObject
  dsimp only
  split
  · trivial
  · exact fun hmem => h ((NameSet.mem_ofList _ _).mp hmem)

/-- Tagged, such a type describes just what it describes without the tag. -/
theorem describes_of_tagged (ht : IsUntagged tag t) {w : Json}
    (h : (tagged tag key t).Describes (some w)) :
    ∃ values : Fields Json, w = .object values ∧ values.get? tag = some (.string key) ∧
      t.Describes (some (.object (values.without tag))) := by
  cases t with
  | never => cases h
  | object properties rest required notes =>
    obtain ⟨values, rfl⟩ : ∃ values, w = .object values := by
      have hobject := asObject?_of_describes (describes_withNotes.mp h : (ofObject _ _ _).Describes _)
      cases w with
      | object values => exact ⟨values, rfl⟩
      | null | bool | number | string | array => cases hobject
    obtain ⟨hkey, hpresent, heach⟩ := describes_taggedObject_iff.mp h
    refine ⟨values, rfl, hkey, .object ?_ heach⟩
    intro name hname
    obtain ⟨v, hv⟩ := hpresent name hname
    have hother : name ≠ tag := by
      rintro rfl
      exact ht hname
    exact ⟨v, by rw [Fields.get?_without, if_neg hother, hv]⟩
  | any | literal | primitive | array | union => exact ht.elim

end Describes

end TypeDefinition

end JsonPath
