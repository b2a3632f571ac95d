import JsonPath.Proofs.DataType.Union

/-!
Intersection and difference describe what their names say, and possibly more. A value of two
types is one of their intersection, and a value of a type that is not one of a second is left in
the difference.
-/

namespace JsonPath.DataType

variable {S : NumberSet}

section Intersection

variable {a b t : DataType} {v : Option Json}

theorem meetEach_eq (a : DataType) (meet : DataType → DataType) (ts : List DataType) :
    meetEach a meet ts = ts.map (meetMembers a meet) := by
  induction ts with
  | nil => rfl
  | cons t rest ih => rw [meetEach, ih, List.map_cons]

theorem intersectEach_eq (ts : List DataType) (b : DataType) :
    intersectEach ts b = ts.map fun t => t.intersect b := by
  induction ts with
  | nil => rfl
  | cons t rest ih => rw [intersectEach, ih, List.map_cons]

theorem get?_propertyMeets (properties : Fields DataType) (name : String) :
    (propertyMeets properties).get? name = (properties.get? name).map intersect := by
  induction properties with
  | nil => rfl
  | cons p rest ih =>
    obtain ⟨key, t⟩ := p
    rw [propertyMeets, Fields.get?, Fields.get?]
    split
    · rfl
    · exact ih

theorem names_propertyMeets (properties : Fields DataType) :
    (propertyMeets properties).names = properties.names := by
  induction properties with
  | nil => rfl
  | cons p rest ih =>
    rw [propertyMeets, Fields.names, List.map_cons, ← Fields.names, ih]
    rfl

theorem frontMeets_eq (front : List DataType) : frontMeets front = front.map intersect := by
  induction front with
  | nil => rfl
  | cons t rest ih => rw [frontMeets, ih, List.map_cons]

/-- The meet of a property, whether it is named or not. -/
theorem getD_propertyMeets (properties : Fields DataType) (rest : DataType) (name : String) :
    ((propertyMeets properties).get? name).getD rest.intersect =
      (property properties rest name).intersect := by
  rw [get?_propertyMeets, property]
  cases properties.get? name <;> rfl

theorem getD_frontMeets (front : List DataType) (rest : DataType) (i : Nat) :
    (frontMeets front)[i]?.getD rest.intersect = (element front rest i).intersect := by
  rw [frontMeets_eq, List.getElem?_map, element]
  cases front[i]? <;> rfl

theorem mem_allNames (a b : List String) (name : String) :
    name ∈ allNames a b ↔ name ∈ a ∨ name ∈ b := by
  have hfold (names found : List String) :
      name ∈ names.foldl (fun found name =>
        if found.contains name then found else found ++ [name]) found ↔
          name ∈ found ∨ name ∈ names := by
    induction names generalizing found with
    | nil => simp
    | cons first rest ih =>
      rw [List.foldl_cons, ih, List.mem_cons]
      split
      · rename_i hfound
        rw [List.contains_iff_mem] at hfound
        constructor
        · intro h
          exact h.imp_right .inr
        · intro h
          rcases h with h | rfl | h
          · exact .inl h
          · exact .inl hfound
          · exact .inr h
      · rw [List.mem_append, List.mem_singleton, or_assoc]
  rw [allNames, hfold, List.mem_append]
  simp

theorem get?_map_names {α : Type} (names : List String) (f : String → α) (name : String) :
    Fields.get? (names.map fun name => (name, f name)) name =
      if name ∈ names then some (f name) else none := by
  induction names with
  | nil => rfl
  | cons first rest ih =>
    rw [List.map_cons, Fields.get?]
    by_cases hname : first = name
    · subst hname
      simp
    · have hname' : ¬ name = first := fun h => hname h.symm
      rw [if_neg hname, ih]
      simp [hname']

/-- The third type describes what the first two have in common. -/
def Common (S : NumberSet) (a b t : DataType) : Prop :=
  t.Over S ∧ ∀ v, Json.Held S v → a.Describes v → b.Describes v → t.Describes v

/-- What a function makes of any type describes what it has in common with `a`. -/
def Meets (S : NumberSet) (a : DataType) (f : DataType → DataType) : Prop :=
  ∀ b : DataType, b.Over S → Common S a b (f b)

/-- The lesser of two related types is what they have in common. -/
theorem common_lesser?_getD (ha : a.Over S) (hb : b.Over S)
    (h : a.isSubtypeOf b = false → b.isSubtypeOf a = false → Common S a b t) :
    Common S a b ((lesser? a b).getD t) := by
  unfold lesser?
  split
  · refine ⟨over_mergeNotes.mpr ha, ?_⟩
    intro v _ hv _
    exact describes_mergeNotes.mpr hv
  · rename_i hsub
    split
    · refine ⟨over_mergeNotes.mpr hb, ?_⟩
      intro v _ _ hv
      exact describes_mergeNotes.mpr hv
    · rename_i hsub'
      exact h (eq_false_of_ne_true hsub) (eq_false_of_ne_true hsub')

/-- The union over the members of a union has in common with `a` what they have. -/
theorem common_unionOf {ms : List DataType} {f : DataType → DataType} {notes : Annotations}
    (h : ∀ m ∈ ms, Common S a m (f m)) : Common S a (union ms notes) (unionOf (ms.map f)) := by
  have hover : ∀ t ∈ ms.map f, t.Over S := by
    intro t ht
    obtain ⟨m, hm, rfl⟩ := List.mem_map.mp ht
    exact (h m hm).1
  refine ⟨over_unionOf hover, ?_⟩
  intro v hv ha hb
  cases hb with
  | @union _ _ m _ hm hdescribes =>
    exact describes_unionOf hover hv (List.mem_map_of_mem hm) ((h m hm).2 v hv ha hdescribes)

theorem Common.symm (h : Common S a b t) : Common S b a t := by
  refine ⟨h.1, ?_⟩
  intro v hv hb ha
  exact h.2 v hv ha hb

/-- It is enough to look at types that are unrelated to `a` and are not unions. -/
theorem meets_meetMembers {meet : DataType → DataType} (ha : a.Over S)
    (hmeet : ∀ b : DataType, b.Over S → b.isUnion = false → a.isSubtypeOf b = false →
      b.isSubtypeOf a = false → Common S a b (meet b)) :
    Meets S a (meetMembers a meet) := by
  intro b hb
  induction b using parts_induction with
  | union ms notes ih =>
    rw [meetMembers, meetEach_eq]
    refine common_lesser?_getD ha hb ?_
    intro _ _
    cases hb with
    | union heach =>
      apply common_unionOf
      intro m hm
      exact ih m hm (heach m hm)
  | any | never | literal | primitive | object | array =>
    exact common_lesser?_getD ha hb (hmeet _ hb rfl)

/-- Types without a common value have the empty type in common. -/
theorem common_bottom (h : ∀ v, Json.Held S v → a.Describes v → ¬ b.Describes v) :
    Common S a b bottom := by
  refine ⟨.never, ?_⟩
  intro v hv ha hb
  exact absurd hb (h v hv ha)

theorem isSubtypeOf_any (t : DataType) (notes : Annotations) :
    t.isSubtypeOf (any notes) = true := by
  cases t <;> simp [isSubtypeOf, someMember, isAny, isUnion, isNever]

/-- A literal that shares a value with a type that is not a union is a subtype of it. -/
theorem isSubtypeOf_of_literal {value : Json} {notes : Annotations} (hb : b.Over S)
    (hunion : b.isUnion = false) (ha : (literal value notes).Over S) (hv : Json.Held S v)
    (hva : (literal value notes).Describes v) (hvb : b.Describes v) :
    (literal value notes).isSubtypeOf b = true := by
  cases hva with
  | @literal _ w _ hsame =>
  cases ha with
  | literal hscalar hover =>
    have hw := hv w rfl
    have hsame' := Json.same_symm hw hover hsame
    cases hvb with
    | any => exact isSubtypeOf_any _ _
    | literal hother =>
      cases hb with
      | literal _ hover' => exact Json.same_trans hover hw hover' hsame' hother
    | primitive hkind =>
      simp only [isSubtypeOf, someMember, literalTest, Primitive.of?_eq_of_same hsame']
      exact decide_eq_true hkind
    | object | array => exact (Json.isScalar_of_same hsame hscalar).elim
    | union => cases hunion

/-- A primitive type that shares a value with a type that is not a union is related to it. -/
theorem isSubtypeOf_of_primitive {kind : Primitive} {notes : Annotations} (hb : b.Over S)
    (hunion : b.isUnion = false) (hv : Json.Held S v)
    (hva : (primitive kind notes).Describes v) (hvb : b.Describes v) :
    (primitive kind notes).isSubtypeOf b = true ∨ b.isSubtypeOf (primitive kind notes) = true := by
  cases hvb with
  | any => exact .inl (isSubtypeOf_any _ _)
  | nothing =>
    cases hva
    exact .inl rfl
  | literal =>
    refine .inr (isSubtypeOf_of_literal .primitive rfl hb hv ?_ hva)
    exact .literal (by assumption)
  | primitive hkind =>
    cases hva with
    | primitive hkind' =>
      obtain rfl := Option.some.inj (hkind.symm.trans hkind')
      left
      simp [isSubtypeOf, isUnion, someMember, primitiveTest]
  | object | array =>
    cases hva with
    | primitive hkind => cases hkind
  | union => cases hunion

theorem property_map_names (names : List String) (f : String → DataType) (rest : DataType)
    (name : String) : property (names.map fun name => (name, f name)) rest name =
      if name ∈ names then f name else rest := by
  rw [property, get?_map_names]
  split <;> rfl

theorem element_map_range (n : Nat) (f : Nat → DataType) (rest : DataType) (i : Nat) :
    element ((List.range n).map f) rest i = if i < n then f i else rest := by
  unfold element
  split
  · rename_i hi
    simp [hi]
  · rename_i hi
    rw [List.getElem?_eq_none (by simpa using hi)]
    rfl

section Parts

variable {properties : List (String × DataType)} {front : List DataType} {rest : DataType}
  {required : List String} {minimum : Nat} {notes : Annotations}

/-- Objects of two types have members of both types. -/
theorem common_objectMeet (hprops : ∀ p ∈ properties, Meets S p.2 p.2.intersect)
    (hrest : Meets S rest rest.intersect) (hb : b.Over S) (hunion : b.isUnion = false)
    (hany : b.isAny = false) :
    Common S (object properties rest required notes) b
      (objectMeet (object properties rest required notes) (propertyMeets properties)
        rest.intersect required b) := by
  have hmeet (name : String) : Meets S (property properties rest name)
      (property properties rest name).intersect := by
    rcases property_eq properties rest name with ⟨p, hp, heq⟩ | heq <;> rw [heq]
    · exact hprops p hp
    · exact hrest
  cases b with
  | object properties' rest' required' notes' =>
    cases hb with
    | object hprops' hrest' =>
    simp only [objectMeet, getD_propertyMeets]
    have hover (name : String) : ((property properties rest name).intersect
        (property properties' rest' name)).Over S :=
      (hmeet name _ (.property hprops' hrest' name)).1
    refine ⟨?_, ?_⟩
    · rw [over_mergeNotes, over_mergeNotes]
      apply over_ofObject
      · intro p hp
        obtain ⟨name, -, rfl⟩ := List.mem_map.mp hp
        exact hover name
      · exact (hrest _ hrest').1
    · intro v hv hva hvb
      rw [describes_mergeNotes, describes_mergeNotes]
      apply describes_ofObject
      cases hva with
      | @object _ _ _ _ members hpresent heach =>
      cases hvb with
      | object hpresent' heach' =>
        cases hv _ rfl with
        | object _ hmembers =>
          constructor
          · intro name hname
            rcases (NameSet.mem_union _ _ _).mp hname with hname | hname
            · exact hpresent name hname
            · exact hpresent' name hname
          · intro name w hw
            have hmember : w.Over S := hmembers _ (Fields.mem_of_get?_eq_some hw)
            have hboth := (hmeet name _ (.property hprops' hrest' name)).2 _ hmember.held
              (heach name w hw) (heach' name w hw)
            rw [property_map_names]
            split
            · exact hboth
            · -- neither type has the property by name
              rename_i hname
              rw [mem_allNames, not_or, names_propertyMeets] at hname
              rw [property_of_not_mem hname.1, property_of_not_mem hname.2] at hboth
              exact hboth
  | any | never | literal | primitive | array | union =>
    apply common_bottom
    intro v _ hva hvb
    cases hva with
    | object =>
      obtain ⟨_, _, _, _, heq⟩ := hvb.eq_object hb hunion hany
      cases heq

/-- Arrays of two types have elements of both types. -/
theorem common_arrayMeet (hfront : ∀ t ∈ front, Meets S t t.intersect)
    (hrest : Meets S rest rest.intersect) (hb : b.Over S) (hunion : b.isUnion = false)
    (hany : b.isAny = false) :
    Common S (array front rest minimum notes) b
      (arrayMeet (array front rest minimum notes) (frontMeets front) rest.intersect minimum b) := by
  have hmeet (i : Nat) : Meets S (element front rest i) (element front rest i).intersect := by
    rcases element_eq front rest i with hmem | heq
    · exact hfront _ hmem
    · rw [heq]
      exact hrest
  cases b with
  | array front' rest' minimum' notes' =>
    cases hb with
    | array hfront' hrest' =>
    simp only [arrayMeet, getD_frontMeets]
    refine ⟨?_, ?_⟩
    · rw [over_mergeNotes, over_mergeNotes]
      apply over_ofArray
      · intro t ht
        obtain ⟨i, -, rfl⟩ := List.mem_map.mp ht
        exact (hmeet i _ (.element hfront' hrest' i)).1
      · exact (hrest _ hrest').1
    · intro v hv hva hvb
      rw [describes_mergeNotes, describes_mergeNotes]
      apply describes_ofArray
      cases hva with
      | @array _ _ _ _ items henough heach =>
      cases hvb with
      | array henough' heach' =>
        cases hv _ rfl with
        | array hitems =>
          refine .array (Nat.max_le.mpr ⟨henough, henough'⟩) ?_
          intro i w hw
          have hitem : w.Over S := hitems _ (List.mem_of_getElem? hw)
          have hboth := (hmeet i _ (.element hfront' hrest' i)).2 _ hitem.held
            (heach i w hw) (heach' i w hw)
          rw [element_map_range]
          split
          · exact hboth
          · -- both types describe the element by what is left
            rename_i hi
            rw [frontMeets_eq, List.length_map, Nat.not_lt, Nat.max_le] at hi
            rw [element_of_le hi.1, element_of_le hi.2] at hboth
            exact hboth
  | any | never | literal | primitive | object | union =>
    apply common_bottom
    intro v _ hva hvb
    cases hva with
    | array =>
      obtain ⟨_, _, _, _, heq⟩ := hvb.eq_array hb hunion hany
      cases heq

end Parts

theorem isAny_eq_false_of_unrelated (h : a.isSubtypeOf b = false) : b.isAny = false := by
  cases b <;> first | rfl | (rw [isSubtypeOf_any] at h; cases h)

/-- The intersection of two types describes what they have in common. -/
theorem meets_intersect (a : DataType) (ha : a.Over S) : Meets S a a.intersect := by
  induction a using parts_induction with
  | any notes =>
    apply meets_meetMembers ha
    intro b _ _ _ hsub
    rw [isSubtypeOf_any] at hsub
    cases hsub
  | never notes =>
    apply meets_meetMembers ha
    intro b _ _ _ _
    apply common_bottom
    intro v _ hva _
    cases hva
  | literal value notes =>
    apply meets_meetMembers ha
    intro b hb hunion hsub _
    apply common_bottom
    intro v hv hva hvb
    rw [isSubtypeOf_of_literal hb hunion ha hv hva hvb] at hsub
    cases hsub
  | primitive kind notes =>
    apply meets_meetMembers ha
    intro b hb hunion hsub hsub'
    apply common_bottom
    intro v hv hva hvb
    rcases isSubtypeOf_of_primitive hb hunion hv hva hvb with h | h
    · rw [h] at hsub
      cases hsub
    · rw [h] at hsub'
      cases hsub'
  | object properties rest required notes ihprops ihrest =>
    apply meets_meetMembers ha
    intro b hb hunion hsub _
    cases ha with
    | object hprops hrest =>
      exact common_objectMeet (fun p hp => ihprops p hp (hprops p hp)) (ihrest hrest) hb hunion
        (isAny_eq_false_of_unrelated hsub)
  | array front rest minimum notes ihfront ihrest =>
    apply meets_meetMembers ha
    intro b hb hunion hsub _
    cases ha with
    | array hfront hrest =>
      exact common_arrayMeet (fun t ht => ihfront t ht (hfront t ht)) (ihrest hrest) hb hunion
        (isAny_eq_false_of_unrelated hsub)
  | union ms notes ih =>
    intro b hb
    simp only [intersect, intersectEach_eq]
    refine common_lesser?_getD ha hb ?_
    intro _ _
    cases ha with
    | union heach =>
      apply Common.symm
      apply common_unionOf
      intro m hm
      exact (ih m hm (heach m hm) b hb).symm

end Intersection

section Difference

variable {t u : DataType} {v : Option Json}

theorem subtractEach_eq (ts : List DataType) (u : DataType) :
    subtractEach ts u = ts.map fun t => t.subtract u := by
  induction ts with
  | nil => rfl
  | cons t rest ih => rw [subtractEach, ih, List.map_cons]

/-- The first type less the second describes the values of the first that the second does not
describe. -/
def Leaves (S : NumberSet) (t u left : DataType) : Prop :=
  left.Over S ∧ ∀ v, Json.Held S v → t.Describes v → ¬ u.Describes v → left.Describes v

theorem leaves_bottom (ht : t.Over S) (hu : u.Over S) (hsub : t.isSubtypeOf u = true) :
    Leaves S t u bottom := by
  refine ⟨.never, ?_⟩
  intro v hv h hnot
  exact absurd (h.of_isSubtypeOf ht hu hv hsub) hnot

theorem leaves_self (ht : t.Over S) : Leaves S t u t := ⟨ht, fun _ _ h _ => h⟩

/-- Of a type nothing stays, or all of it, or the union of what stays of its members. The members of
the boolean type are the two truth values. -/
theorem subtract_induction {motive : DataType → DataType → Prop} (u : DataType)
    (gone : ∀ t, t.isSubtypeOf u = true → motive t bottom)
    (stays : ∀ t, t.isUnion = false → t.isSubtypeOf u = false →
      (∀ notes b, t = primitive .boolean notes → (ofBool b).isSubtypeOf u = false) → motive t t)
    (boolean : ∀ notes, (primitive .boolean notes).isSubtypeOf u = false →
      (∀ b, motive (ofBool b) ((ofBool b).subtract u)) →
        motive (primitive .boolean notes)
          (unionOf [(ofBool true).subtract u, (ofBool false).subtract u]))
    (union : ∀ ms notes, (DataType.union ms notes).isSubtypeOf u = false →
      (∀ m ∈ ms, motive m (m.subtract u)) →
        motive (DataType.union ms notes) (unionOf (ms.map fun m => m.subtract u)))
    (noted : ∀ t left other, motive t left → motive t (left.mergeNotes other)) (t : DataType) :
    motive t (t.subtract u) := by
  have hwhole (t : DataType) (hunion : t.isUnion = false)
      (hboolean : ∀ notes, t ≠ primitive .boolean notes) : motive t (unlessSubtype t u) := by
    unfold unlessSubtype
    split
    · rename_i hsub
      exact gone t hsub
    · rename_i hsub
      exact stays t hunion (eq_false_of_ne_true hsub) fun notes _ heq => absurd heq (hboolean notes)
  induction t using parts_induction with
  | any | never | literal | object | array => exact hwhole _ rfl nofun
  | primitive kind notes =>
    cases kind with
    | boolean =>
      rw [subtract]
      split
      · rename_i hsub
        exact gone _ hsub
      · rename_i hsub
        have hnot := eq_false_of_ne_true hsub
        dsimp only
        split
        · exact noted _ _ _ (boolean notes hnot fun b => hwhole (ofBool b) rfl nofun)
        · rename_i hboth
          refine stays _ rfl hnot fun _ b _ => eq_false_of_ne_true fun hb => hboth ?_
          cases b <;> simp [unlessSubtype, hb, bottom, isNever]
    | number | string | null | nothing => exact hwhole _ rfl nofun
  | union ms notes ih =>
    rw [subtract, subtractEach_eq]
    split
    · rename_i hsub
      exact gone _ hsub
    · rename_i hsub
      have hleft := union ms notes (eq_false_of_ne_true hsub) ih
      dsimp only
      split
      · exact hleft
      · exact noted _ _ _ hleft

theorem exists_truth_of_describes {notes : Annotations}
    (h : (primitive .boolean notes).Describes v) : ∃ b, (ofBool b).Describes v := by
  cases h with
  | @primitive _ w _ hkind =>
    cases w with
    | bool b => exact ⟨b, .literal (by simp [Json.same])⟩
    | null | number | string | array | object => cases hkind

/-- The difference of two types describes all values that only the first describes. -/
theorem leaves_subtract (t : DataType) (ht : t.Over S) (hu : u.Over S) :
    Leaves S t u (t.subtract u) := by
  refine subtract_induction (motive := fun t left => t.Over S → Leaves S t u left) u
    ?gone ?stays ?boolean ?union ?noted t ht
  case gone =>
    intro t hsub ht
    exact leaves_bottom ht hu hsub
  case stays =>
    intro t _ _ _ ht
    exact leaves_self ht
  case boolean =>
    intro notes _ hleft _
    have htruth (b : Bool) := hleft b (.literal trivial (.bool b))
    refine ⟨over_unionOf_pair (htruth true).1 (htruth false).1, ?_⟩
    intro v hv h hnot
    obtain ⟨b, hb⟩ := exists_truth_of_describes h
    have hmember := (htruth b).2 v hv hb hnot
    refine describes_unionOf_pair (htruth true).1 (htruth false).1 hv ?_
    cases b with
    | true => exact .inl hmember
    | false => exact .inr hmember
  case union =>
    intro ms notes _ hleft ht
    cases ht with
    | union heach =>
      have hover : ∀ t ∈ ms.map (fun m => m.subtract u), t.Over S := by
        intro t ht
        obtain ⟨m, hm, rfl⟩ := List.mem_map.mp ht
        exact (hleft m hm (heach m hm)).1
      refine ⟨over_unionOf hover, ?_⟩
      intro v hv h hnot
      cases h with
      | @union _ _ m _ hm hdescribes =>
        have hmember := (hleft m hm (heach m hm)).2 v hv hdescribes hnot
        exact describes_unionOf hover hv (List.mem_map_of_mem hm) hmember
  case noted =>
    intro t left other h ht
    obtain ⟨hover, hleaves⟩ := h ht
    refine ⟨over_mergeNotes.mpr hover, ?_⟩
    intro v hv h hnot
    exact describes_mergeNotes.mpr (hleaves v hv h hnot)

end Difference

end JsonPath.DataType
