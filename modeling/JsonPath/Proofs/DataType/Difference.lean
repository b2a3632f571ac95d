import JsonPath.Proofs.DataType.Exact

/-!
Differences of types. A difference describes at least the values that only the first type describes,
and it is a subtype of that type. It is empty just if the first type is a subtype of the second. It
is exact where the first type is made of single values, for these belong to the second type or have
nothing in common with it. The two truth values together are a member of that kind as well.
-/

namespace JsonPath.DataType

variable {S : NumberSet} {a t t' u w : DataType} {v : Option Json}

section Below

/-- What is left of a type is a subtype just if those of its atoms are that are not taken away. -/
theorem subtract_isSubtypeOf_iff (ht : t.Normal S) (hw : w.Normal S) :
    (t.subtract u).isSubtypeOf w = true ↔
      ∀ a ∈ t.atoms, a.isSubtypeOf u = false → a.isSubtypeOf w = true := by
  refine subtract_induction (motive := fun t left => t.Normal S →
    (left.isSubtypeOf w = true ↔
      ∀ a ∈ t.atoms, a.isSubtypeOf u = false → a.isSubtypeOf w = true)) u
    ?gone ?stays ?boolean ?union ?noted t ht
  case gone =>
    intro t hsub ht
    refine iff_of_true rfl fun a ha hnot => ?_
    rw [(isSubtypeOf_iff_atoms ht).mp hsub a ha] at hnot
    cases hnot
  case stays =>
    intro t hunion hnot hboth ht
    rw [isSubtypeOf_iff_atoms ht]
    refine forall₂_congr fun a ha => ⟨fun h _ => h, fun h => h ?_⟩
    cases t with
    | never => cases ha
    | primitive kind notes =>
      cases kind with
      | boolean =>
        rcases List.mem_cons.mp ha with rfl | ha
        · exact hboth notes true rfl
        · rw [List.mem_singleton.mp ha]
          exact hboth notes false rfl
      | number | string | null | nothing =>
        rw [List.mem_singleton.mp ha]
        exact hnot
    | any | literal | object | array =>
      rw [List.mem_singleton.mp ha]
      exact hnot
    | union => cases hunion
  case boolean =>
    intro notes _ hleft _
    have htruth (b : Bool) : (ofBool b).Normal S := normal_truth b _
    have hmember (b : Bool) : ((ofBool b).subtract u).isSubtypeOf w = true ↔
        ((ofBool b).isSubtypeOf u = false → (ofBool b).isSubtypeOf w = true) := by
      rw [hleft b (htruth b)]
      exact List.forall_mem_singleton
    have hatoms : (primitive .boolean notes).atoms = [ofBool true, ofBool false] := rfl
    rw [hatoms, unionOf_isSubtypeOf_iff
      (forall_mem_pair (normal_subtract (htruth true)) (normal_subtract (htruth false))) hw,
      List.forall_mem_cons, List.forall_mem_singleton, List.forall_mem_cons,
      List.forall_mem_singleton, hmember true, hmember false]
  case union =>
    intro ms notes _ hleft ht
    rw [unionOf_isSubtypeOf_iff (normal_map_subtract ht.members) hw, List.forall_mem_map, atoms,
      List.forall_mem_flatMap]
    refine forall₂_congr fun m hm => ?_
    rw [hleft m hm (ht.members m hm)]
    cases ht with
    | union _ hplain _ => rw [atoms_of_isUnion (isUnion_eq_false_of_isPlain (hplain m hm))]
  case noted =>
    intro t left other h ht
    rw [isSubtypeOf_mergeNotes_left]
    exact h ht

/-- What is left of a type is a subtype of it. -/
theorem subtract_isSubtypeOf (ht : t.Normal S) : (t.subtract u).isSubtypeOf t = true :=
  (subtract_isSubtypeOf_iff ht ht).mpr fun _ ha _ => ht.isSubtypeOf_of_mem_atoms ha

/-- Of a subtype a subtype is left. -/
theorem subtract_mono (ht : t.Normal S) (ht' : t'.Normal S) (hu : u.Normal S)
    (h : t.isSubtypeOf t' = true) : (t.subtract u).isSubtypeOf (t'.subtract u) = true := by
  have hleft : (t'.subtract u).Normal S := normal_subtract ht'
  rw [subtract_isSubtypeOf_iff ht hleft]
  intro a ha hnot
  obtain ⟨hanormal, hatom⟩ := ht.atoms a ha
  have hat := (isSubtypeOf_iff_atoms ht).mp h a ha
  obtain ⟨b, hb, hab⟩ := (isSubtypeOf_iff_exists_atom hatom hanormal ht').mp hat
  have hbnormal := (ht'.atoms b hb).1
  -- an atom around one that is not taken away is not taken away
  have hbnot : b.isSubtypeOf u = false := by
    refine eq_false_of_ne_true fun hbu => ?_
    rw [isSubtypeOf_trans hanormal hbnormal hu hab hbu] at hnot
    cases hnot
  have hbleft := (subtract_isSubtypeOf_iff ht' hleft).mp (isSubtypeOf_refl hleft) b hb hbnot
  exact isSubtypeOf_trans hanormal hbnormal hleft hab hbleft

end Below

section Empty

theorem isNever_iff_isSubtypeOf_bottom (ht : t.Normal S) :
    t.isNever = true ↔ t.isSubtypeOf bottom = true :=
  ⟨fun h => isSubtypeOf_of_isNever h bottom, isNever_of_isSubtypeOf ht rfl⟩

theorem not_isSubtypeOf_bottom_of_isAtom (hatom : t.isAtom = true) (ht : t.Normal S) :
    t.isSubtypeOf bottom = false := by
  refine eq_false_of_ne_true fun h => ?_
  rw [← isNever_iff_isSubtypeOf_bottom ht, isNever_eq_false_of_isAtom hatom] at h
  cases h

theorem isNever_eq_false_of_not_isSubtypeOf (h : t.isSubtypeOf u = false) :
    t.isNever = false := by
  refine eq_false_of_ne_true fun hnever => ?_
  rw [isSubtypeOf_of_isNever hnever u] at h
  cases h

/-- Nothing is left of a type just if it is a subtype of what is taken away. -/
theorem isNever_subtract_iff (ht : t.Normal S) :
    (t.subtract u).isNever = true ↔ t.isSubtypeOf u = true := by
  have hbottom : bottom.Normal S := .never
  rw [isNever_iff_isSubtypeOf_bottom (normal_subtract ht), subtract_isSubtypeOf_iff ht hbottom,
    isSubtypeOf_iff_atoms ht]
  refine forall₂_congr fun a ha => ?_
  obtain ⟨hnormal, hatom⟩ := ht.atoms a ha
  rw [not_isSubtypeOf_bottom_of_isAtom hatom hnormal]
  simp

end Empty

section Values

theorem StandsFor.describes_of_subtract (h : StandsFor S a v) (ht : t.Normal S)
    (hdescribes : (t.subtract u).Describes v) : t.Describes v := by
  rw [← h.describes_iff _ (normal_subtract ht)] at hdescribes
  rw [← h.describes_iff t ht]
  exact isSubtypeOf_trans h.normal (normal_subtract ht) ht hdescribes (subtract_isSubtypeOf ht)

/-- A difference is all of the values that only the first type describes, if nothing of it belongs
to the second. -/
theorem StandsFor.describes_subtract_iff (h : StandsFor S a v) (hv : Json.Held S v)
    (ht : t.Normal S) (hu : u.Normal S)
    (hnone : ((t.subtract u).intersect u).isNever = true) :
    (t.subtract u).Describes v ↔ t.Describes v ∧ ¬ u.Describes v := by
  constructor
  · intro hdescribes
    refine ⟨h.describes_of_subtract ht hdescribes, ?_⟩
    intro hother
    have hboth := (h.describes_intersect_iff (normal_subtract ht) hu).mpr ⟨hdescribes, hother⟩
    rw [hboth.isNever] at hnone
    cases hnone
  · rintro ⟨hdescribes, hother⟩
    exact (leaves_subtract t ht.over hu.over).2 v hv hdescribes hother

end Values

section Singletons

/-- The type has one value, or the two truth values. -/
def isBasic : DataType → Bool
  | primitive .boolean _ => true
  | t => t.isSingleton

/-- An atom below a type of one value is that type again. -/
theorem isSubtypeOf_of_isSingleton (hatom : a.isAtom = true) (ha : a.Normal S) (ht : t.Normal S)
    (hone : t.isSingleton = true) (h : a.isSubtypeOf t = true) : t.isSubtypeOf a = true := by
  cases ht with
  | literal _ hnumbers => exact literal_isSubtypeOf_of_isSubtypeOf hatom ha hnumbers h
  | @primitive kind notes =>
    cases ha with
    | @literal w _ hscalar _ hother =>
      have hkind : Primitive.of? w = some kind := of_decide_eq_true h
      cases w with
      | null => exact absurd rfl hother
      | array | object => cases hkind
      | bool | number | string =>
        cases hkind
        cases hone
    | @primitive kind' notes' =>
      have hkind : kind' = kind := by
        simpa [isSubtypeOf, isUnion, someMember, primitiveTest] using h
      subst hkind
      simp [isSubtypeOf, isUnion, someMember, primitiveTest]
    | any | object | array => cases h
    | never | union => cases hatom
  | any | never | object | array | union => cases hone

/-- A type of one value is a subtype of the types that describe its value. -/
theorem isSubtypeOf_of_describes (ht : t.Normal S) (hone : t.isSingleton = true) (hu : u.Normal S)
    (hv : Json.Held S v) (h : t.Describes v) (hother : u.Describes v) :
    t.isSubtypeOf u = true := by
  have hstands := standsFor_ofValue? hv
  have hsub := (hstands.describes_iff t ht).mpr h
  have hback := isSubtypeOf_of_isSingleton hstands.atom hstands.normal ht hone hsub
  exact isSubtypeOf_trans ht hstands.normal hu hback ((hstands.describes_iff u hu).mpr hother)

theorem members_eq_singleton (hunion : t.isUnion = false) (hnever : t.isNever = false) :
    t.members = [t] := by
  cases t with
  | union => cases hunion
  | never => cases hnever
  | any | literal | primitive | object | array => rfl

/-- A basic type of which nothing belongs to another type has nothing in common with it. -/
theorem not_describes_of_isBasic (ht : t.Normal S) (hbasic : t.isBasic = true) (hu : u.Normal S)
    (hv : Json.Held S v) (hnot : t.isSubtypeOf u = false)
    (hboth : ∀ notes b, t = primitive .boolean notes → (ofBool b).isSubtypeOf u = false)
    (h : t.Describes v) : ¬ u.Describes v := by
  intro hother
  have hone (hsingleton : t.isSingleton = true) : False := by
    rw [isSubtypeOf_of_describes ht hsingleton hu hv h hother] at hnot
    cases hnot
  cases t with
  | primitive kind notes =>
    cases kind with
    | boolean =>
      obtain ⟨b, hb⟩ := exists_truth_of_describes h
      have htruth : (ofBool b).Normal S := normal_truth b _
      have hnot := hboth notes b rfl
      rw [isSubtypeOf_of_describes htruth rfl hu hv hb hother] at hnot
      cases hnot
    | null | nothing => exact hone rfl
    | number | string => cases hbasic
  | literal => exact hone rfl
  | any | never | object | array | union => cases hbasic

/-- What is left of a union of single values has nothing in common with what is taken away. -/
theorem not_describes_of_subtract (ht : t.Normal S) (hbasic : ∀ m ∈ t.members, m.isBasic = true)
    (hu : u.Normal S) (hv : Json.Held S v) (h : (t.subtract u).Describes v) :
    ¬ u.Describes v := by
  have htruth (b : Bool) : (ofBool b).Normal S := normal_truth b _
  have hstands := standsFor_ofValue? hv
  refine subtract_induction (motive := fun t left => t.Normal S →
    (∀ m ∈ t.members, m.isBasic = true) → left.Describes v → ¬ u.Describes v) u
    ?gone ?stays ?boolean ?union ?noted t ht hbasic h
  case gone => exact fun _ _ _ _ h => nomatch h
  case stays =>
    intro t hunion hnot hboth ht hbasic h
    rw [members_eq_singleton hunion (isNever_eq_false_of_not_isSubtypeOf hnot),
      List.forall_mem_singleton] at hbasic
    exact not_describes_of_isBasic ht hbasic hu hv hnot hboth h
  case boolean =>
    intro notes _ hleft _ _ h
    have hmember (b : Bool) := hleft b (htruth b) (List.forall_mem_singleton.mpr rfl)
    rw [hstands.describes_unionOf_iff
      (forall_mem_pair (normal_subtract (htruth true)) (normal_subtract (htruth false)))] at h
    obtain ⟨x, hx, h⟩ := h
    rcases List.mem_cons.mp hx with rfl | hx
    · exact hmember true h
    · rw [List.mem_singleton.mp hx] at h
      exact hmember false h
  case union =>
    intro ms notes _ hleft ht hbasic h
    rw [hstands.describes_unionOf_iff (normal_map_subtract ht.members)] at h
    obtain ⟨x, hx, h⟩ := h
    obtain ⟨m, hm, rfl⟩ := List.mem_map.mp hx
    have hplain : m.isPlain = true := by
      cases ht with
      | union _ hplain _ => exact hplain m hm
    refine hleft m hm (ht.members m hm) ?_ h
    rw [members_eq_singleton (isUnion_eq_false_of_isPlain hplain)
      (isNever_eq_false_of_isPlain hplain), List.forall_mem_singleton]
    exact hbasic m hm
  case noted => exact fun _ _ _ h ht hbasic hleft => h ht hbasic (describes_mergeNotes.mp hleft)

end Singletons

/-- The third type is what is left of the first one without the second. It may hold values of the
second type, unless the first is made of single values and the truth values. -/
structure IsDifference (S : NumberSet) (t u left : DataType) : Prop where
  keeps : ∀ v, Json.Held S v → t.Describes v → ¬ u.Describes v → left.Describes v
  below : left.isSubtypeOf t = true
  isNever_iff : left.isNever = true ↔ t.isSubtypeOf u = true
  describes_iff : (∀ m ∈ t.members, m.isBasic = true) →
    ∀ v, Json.Held S v → (left.Describes v ↔ t.Describes v ∧ ¬ u.Describes v)

theorem isDifference_subtract (ht : t.Built S) (hu : u.Built S) :
    IsDifference S t u (t.subtract u) where
  keeps := (leaves_subtract t ht.normal.over hu.normal.over).2
  below := subtract_isSubtypeOf ht.normal
  isNever_iff := isNever_subtract_iff ht.normal
  describes_iff hbasic v hv := by
    constructor
    · intro h
      exact ⟨(standsFor_ofValue? hv).describes_of_subtract ht.normal h,
        not_describes_of_subtract ht.normal hbasic hu.normal hv h⟩
    · rintro ⟨h, hother⟩
      exact (leaves_subtract t ht.normal.over hu.normal.over).2 v hv h hother

/-- A truth value, one text, null, or no value. -/
def answer : DataType :=
  unionOf [ofPrimitive .boolean, ofJson (.string "unknown"), ofPrimitive .null, nothing]

/-- One of the truth values, or null. -/
def trueOrNull : DataType := unionOf [ofBool true, ofPrimitive .null]

theorem isDifference_subtract_truths :
    answer.Built .whole ∧ trueOrNull.Built .whole ∧ (∀ m ∈ answer.members, m.isBasic = true) ∧
      (answer.subtract trueOrNull).isNever = false ∧
      (answer.subtract trueOrNull).Describes (some (.bool false)) ∧
      ¬ (answer.subtract trueOrNull).Describes (some (.bool true)) := by
  have htruth (b : Bool) : (ofBool b).Built .whole := .ofJson (.bool b)
  have hanswer : answer.Built .whole :=
    .unionOf (List.forall_mem_cons.mpr ⟨.primitive _, List.forall_mem_cons.mpr
      ⟨.ofJson (.string "unknown"), forall_mem_pair (.primitive _) (.primitive _)⟩⟩)
  have hother : trueOrNull.Built .whole :=
    .unionOf (forall_mem_pair (htruth true) (.primitive _))
  have hbasic : ∀ m ∈ answer.members, m.isBasic = true := by decide +kernel
  have hheld (b : Bool) : Json.Held .whole (some (.bool b)) := (Json.Over.bool b).held
  have hstands (b : Bool) := standsFor_ofValue? (hheld b)
  have hdifference := isDifference_subtract hanswer hother
  have hexact (b : Bool) := hdifference.describes_iff hbasic _ (hheld b)
  refine ⟨hanswer, hother, hbasic, ?_, (hexact false).mpr ⟨?_, ?_⟩, ?_⟩
  · refine eq_false_of_ne_true fun hnever => ?_
    have hsub := hdifference.isNever_iff.mp hnever
    exact absurd hsub (by decide +kernel)
  · exact ((hstands false).describes_iff _ hanswer.normal).mp (by decide +kernel)
  · rw [← (hstands false).describes_iff _ hother.normal]
    decide +kernel
  · intro hleft
    exact ((hexact true).mp hleft).2
      (((hstands true).describes_iff _ hother.normal).mp (by decide +kernel))

end JsonPath.DataType
