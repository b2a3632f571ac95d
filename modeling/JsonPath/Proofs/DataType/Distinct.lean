import JsonPath.Proofs.DataType.Lattice

/-!
Types without repeated names. The properties of an object type are told apart by their names, as
the fields of a record are, and its literals are scalars. The functions that build types keep such
types if they are given no repeated names. Each of these types is equal to itself.
-/

namespace JsonPath

theorem Json.same_self_of_isScalar {v : Json} (h : v.IsScalar) : v.same v = true := by
  cases v with
  | null => rfl
  | bool | string => simp [Json.same]
  | number n =>
    rw [Json.same, beq_iff_eq]
    exact Number.order_self n
  | array | object => exact h.elim

namespace DataType

variable {t u : DataType}

/-- No object type in the type describes a property twice, and all literals are scalars. -/
inductive Distinct : DataType → Prop
  | any {notes : Annotations} : Distinct (.any notes)
  | never {notes : Annotations} : Distinct (.never notes)
  | literal {v : Json} {notes : Annotations} (scalar : v.IsScalar) : Distinct (.literal v notes)
  | primitive {kind : Primitive} {notes : Annotations} : Distinct (.primitive kind notes)
  | object {properties : List (String × DataType)} {rest : DataType} {required : List String}
      {notes : Annotations} (nodup : (Fields.names properties).Nodup)
      (each : ∀ p ∈ properties, Distinct p.2) (others : Distinct rest) :
      Distinct (.object properties rest required notes)
  | array {front : List DataType} {rest : DataType} {minimum : Nat} {notes : Annotations}
      (each : ∀ t ∈ front, Distinct t) (others : Distinct rest) :
      Distinct (.array front rest minimum notes)
  | union {members : List DataType} {notes : Annotations} (each : ∀ t ∈ members, Distinct t) :
      Distinct (.union members notes)

section Build

theorem Distinct.withNotes (h : t.Distinct) (notes : Annotations) :
    (t.withNotes notes).Distinct := by
  cases h <;> constructor <;> assumption

theorem distinct_unionClosed : UnionClosed Distinct where
  members h := by
    cases h with
    | union heach => exact heach
  union := .union
  boolean := .primitive
  bottom := .never
  mergeNotes h := by
    unfold mergeNotes
    split
    · exact h
    · exact h.withNotes _

/-- What is found inside a type without repeated names has none. -/
theorem distinct_explored : Explored Distinct where
  bottom := .never
  union := distinct_unionClosed.unionOf
  properties h := by
    cases h with
    | object _ heach _ => exact heach
  others h := by
    cases h with
    | object _ _ hothers => exact hothers
  front h := by
    cases h with
    | array heach _ => exact heach
  further h := by
    cases h with
    | array _ hothers => exact hothers
  members := distinct_unionClosed.members
  top := .any
  primitive _ := .primitive

theorem Distinct.subtract (h : t.Distinct) (u : DataType) : (t.subtract u).Distinct := by
  refine subtract_induction (motive := fun t left => t.Distinct → left.Distinct) u
    ?gone ?stays ?boolean ?union ?noted t h
  case gone => exact fun _ _ _ => .never
  case stays => exact fun _ _ _ _ h => h
  case boolean =>
    intro notes _ hleft _
    have htruth (b : Bool) : (ofBool b).Distinct := .literal trivial
    exact distinct_unionClosed.unionOf
      (forall_mem_pair (hleft true (htruth true)) (hleft false (htruth false)))
  case union =>
    intro ms notes _ hleft h
    exact distinct_unionClosed.unionOf (List.forall_mem_map.mpr fun m hm =>
      hleft m hm (distinct_unionClosed.members h m hm))
  case noted => exact fun _ _ _ h ht => distinct_unionClosed.mergeNotes (h ht)

variable {properties : List (String × DataType)} {front : List DataType} {rest : DataType}

theorem distinct_ofObject (required : List String) (hnodup : (Fields.names properties).Nodup)
    (hprops : ∀ p ∈ properties, p.2.Distinct) (hrest : rest.Distinct) :
    (ofObject properties rest required).Distinct := by
  unfold ofObject
  dsimp only
  split
  · exact .never
  · exact .object hnodup hprops hrest

theorem distinct_ofArray (minimum : Nat) (hfront : ∀ t ∈ front, t.Distinct)
    (hrest : rest.Distinct) : (ofArray front rest minimum).Distinct := by
  unfold ofArray
  dsimp only
  split
  · exact .never
  · split
    · refine .array ?_ .never
      intro t ht
      exact hfront t ((List.takeWhile_sublist _).subset ht)
    · exact .array hfront hrest

end Build

section Equality

theorem sameProperties_iff {properties : List (String × DataType)} {other : Fields DataType} :
    sameProperties properties other = true ↔
      ∀ p ∈ properties, ∃ u, other.get? p.1 = some u ∧ p.2.same u = true := by
  induction properties with
  | nil => simp [sameProperties]
  | cons p rest ih =>
    obtain ⟨name, t⟩ := p
    rw [sameProperties, Bool.and_eq_true, ih, List.forall_mem_cons]
    refine and_congr_left fun _ => ?_
    cases other.get? name with
    | none => simp
    | some u => simp

theorem sameMembers_iff {ts others : List DataType} :
    sameMembers ts others = true ↔ ∀ t ∈ ts, ∃ u ∈ others, t.same u = true := by
  induction ts with
  | nil => simp [sameMembers]
  | cons t rest ih =>
    rw [sameMembers, Bool.and_eq_true, ih, List.forall_mem_cons, List.any_eq_true]

theorem sameFront_self {front : List DataType} (h : ∀ t ∈ front, t.same t = true) :
    sameFront front front = true := by
  induction front with
  | nil => simp [sameFront]
  | cons t rest ih =>
    obtain ⟨ht, hrest⟩ := List.forall_mem_cons.mp h
    rw [sameFront, ht, ih hrest]
    rfl

/-- A type without repeated names equals itself. -/
theorem Distinct.same_self (h : t.Distinct) : t.same t = true := by
  induction h with
  | any | never => simp [same]
  | literal hscalar =>
    rw [same]
    exact Json.same_self_of_isScalar hscalar
  | primitive => simp [same]
  | @object properties rest required notes hnodup heach hrest ihprops ihrest =>
    have hproperties : sameProperties properties properties = true := by
      rw [sameProperties_iff]
      intro p hp
      exact ⟨p.2, Fields.get?_eq_some_of_mem hnodup hp, ihprops p hp⟩
    rw [same, ihrest, hproperties]
    simp
  | array _ _ ihfront ihrest =>
    rw [same, ihrest, sameFront_self ihfront]
    simp
  | union _ ih =>
    rw [same, sameMembers_iff.mpr fun t ht => ⟨t, ht, ih t ht⟩]
    simp

end Equality

end DataType

end JsonPath
