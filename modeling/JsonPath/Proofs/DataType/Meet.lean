import JsonPath.Proofs.DataType.Join

/-!
Intersections are meets of the subtype relation: a type is a subtype of an intersection just if it
is one of both types. It is enough to look at atoms, and among these only those of the same shape
can be below two types that are unrelated.
-/

namespace JsonPath.DataType

variable {S : NumberSet} {a b c t : DataType} {ms : List DataType} {notes : Annotations}
  {meet f : DataType → DataType}

/-- The atoms below the third type are those below both of the others. -/
def IsMeet (S : NumberSet) (a b t : DataType) : Prop :=
  t.Normal S ∧ ∀ c : DataType, c.isAtom = true → c.Normal S →
    (c.isSubtypeOf t = true ↔ c.isSubtypeOf a = true ∧ c.isSubtypeOf b = true)

theorem IsMeet.symm (h : IsMeet S a b t) : IsMeet S b a t := by
  refine ⟨h.1, ?_⟩
  intro c hatom hc
  rw [h.2 c hatom hc, and_comm]

theorem IsMeet.isSubtypeOf_iff (h : IsMeet S a b t) (hc : c.Normal S) :
    c.isSubtypeOf t = true ↔ c.isSubtypeOf a = true ∧ c.isSubtypeOf b = true := by
  have hatoms : ∀ x ∈ c.atoms,
      (x.isSubtypeOf t = true ↔ x.isSubtypeOf a = true ∧ x.isSubtypeOf b = true) := by
    intro x hx
    obtain ⟨hnormal, hatom⟩ := hc.atoms x hx
    exact h.2 x hatom hnormal
  simp only [isSubtypeOf_iff_atoms hc]
  constructor
  · intro hall
    exact ⟨fun x hx => ((hatoms x hx).mp (hall x hx)).1, fun x hx => ((hatoms x hx).mp (hall x hx)).2⟩
  · rintro ⟨halla, hallb⟩ x hx
    exact (hatoms x hx).mpr ⟨halla x hx, hallb x hx⟩

theorem isMeet_lesser?_getD (ha : a.Normal S) (hb : b.Normal S)
    (h : a.isSubtypeOf b = false → b.isSubtypeOf a = false → IsMeet S a b t) :
    IsMeet S a b ((lesser? a b).getD t) := by
  unfold lesser?
  split
  · rename_i hsub
    refine ⟨normal_mergeNotes.mpr ha, ?_⟩
    intro c _ hc
    rw [Option.getD_some, isSubtypeOf_mergeNotes_right]
    exact ⟨fun h => ⟨h, isSubtypeOf_trans hc ha hb h hsub⟩, And.left⟩
  · rename_i hsub
    split
    · rename_i hsub'
      refine ⟨normal_mergeNotes.mpr hb, ?_⟩
      intro c _ hc
      rw [Option.getD_some, isSubtypeOf_mergeNotes_right]
      exact ⟨fun h => ⟨isSubtypeOf_trans hc hb ha h hsub', h⟩, And.right⟩
    · rename_i hsub'
      exact h (eq_false_of_ne_true hsub) (eq_false_of_ne_true hsub')

theorem isMeet_unionOf (hms : (union ms notes).Normal S)
    (h : ∀ m ∈ ms, IsMeet S a m (f m)) : IsMeet S a (union ms notes) (unionOf (ms.map f)) := by
  have hnormal : ∀ t ∈ ms.map f, t.Normal S := by
    intro t ht
    obtain ⟨m, hm, rfl⟩ := List.mem_map.mp ht
    exact (h m hm).1
  refine ⟨normal_unionOf hnormal, ?_⟩
  intro c hatom hc
  cases hms with
  | union _ hplain _ =>
    rw [isSubtypeOf_unionOf_iff hatom hc hnormal, isSubtypeOf_union_iff hatom hplain]
    constructor
    · rintro ⟨t, ht, hsub⟩
      obtain ⟨m, hm, rfl⟩ := List.mem_map.mp ht
      obtain ⟨hca, hcm⟩ := ((h m hm).2 c hatom hc).mp hsub
      exact ⟨hca, m, hm, hcm⟩
    · rintro ⟨hca, m, hm, hcm⟩
      exact ⟨f m, List.mem_map_of_mem hm, ((h m hm).2 c hatom hc).mpr ⟨hca, hcm⟩⟩

/-- It is enough to look at types that are unrelated to `a` and are not unions. -/
theorem isMeet_meetMembers (ha : a.Normal S)
    (hmeet : ∀ b : DataType, b.Normal S → b.isUnion = false → a.isSubtypeOf b = false →
      b.isSubtypeOf a = false → IsMeet S a b (meet b)) (hb : b.Normal S) :
    IsMeet S a b (meetMembers a meet b) := by
  induction b using parts_induction with
  | union ms notes ih =>
    rw [meetMembers, meetEach_eq]
    refine isMeet_lesser?_getD ha hb ?_
    intro _ _
    apply isMeet_unionOf hb
    cases hb with
    | union heach _ _ => exact fun m hm => ih m hm (heach m hm)
  | any | never | literal | primitive | object | array =>
    exact isMeet_lesser?_getD ha hb (hmeet _ hb rfl)

/-- Types without a common atom have the empty type as their meet. -/
theorem isMeet_bottom
    (h : ∀ c : DataType, c.isAtom = true → c.Normal S → c.isSubtypeOf a = true →
      c.isSubtypeOf b = false) : IsMeet S a b bottom := by
  refine ⟨.never, ?_⟩
  intro c hatom hc
  refine iff_of_false (ne_true_of_eq_false (isSubtypeOf_eq_false_of_isNever hatom hc rfl)) ?_
  rintro ⟨hca, hcb⟩
  rw [h c hatom hc hca] at hcb
  cases hcb

/-- An atom below a literal is a literal that is equal to it. -/
theorem literal_isSubtypeOf_of_isSubtypeOf {v : Json} (hatom : c.isAtom = true) (hc : c.Normal S)
    (hv : v.Over S) (h : c.isSubtypeOf (literal v notes) = true) :
    (literal v notes).isSubtypeOf c = true := by
  cases hc with
  | literal _ hnumbers =>
    have hsame := Json.same_symm hnumbers hv h
    exact hsame
  | primitive => simp [isSubtypeOf, isUnion, someMember, primitiveTest] at h
  | any | object | array => cases h
  | never | union => cases hatom

theorem isMeet_literal {v : Json} (ha : (literal v notes).Normal S) (hb : b.Normal S)
    (hsub : (literal v notes).isSubtypeOf b = false) : IsMeet S (literal v notes) b bottom := by
  apply isMeet_bottom
  intro c hatom hc hca
  refine eq_false_of_ne_true fun hcb => ?_
  have hnumbers : v.Over S := by
    cases ha with
    | literal _ hnumbers _ => exact hnumbers
  have hac := literal_isSubtypeOf_of_isSubtypeOf hatom hc hnumbers hca
  rw [isSubtypeOf_trans ha hc hb hac hcb] at hsub
  cases hsub

theorem isMeet_primitive {kind : Primitive} (hb : b.Normal S) (hunion : b.isUnion = false)
    (hsub : (primitive kind notes).isSubtypeOf b = false)
    (hsub' : b.isSubtypeOf (primitive kind notes) = false) :
    IsMeet S (primitive kind notes) b bottom := by
  have ha : (primitive kind notes).Normal S := .primitive
  apply isMeet_bottom
  intro c hatom hc hca
  refine eq_false_of_ne_true fun hcb => ?_
  have habove (h : (primitive kind notes).isSubtypeOf c = true) : False := by
    rw [isSubtypeOf_trans ha hc hb h hcb] at hsub
    cases hsub
  have hbelow (h : b.isSubtypeOf c = true) : False := by
    rw [isSubtypeOf_trans hb hc ha h hca] at hsub'
    cases hsub'
  cases hc with
  | literal hscalar hnumbers =>
    have hkind : Primitive.of? _ = some kind := of_decide_eq_true hca
    cases hb with
    | literal _ hnumbers' => exact hbelow (Json.same_symm hnumbers hnumbers' hcb)
    | primitive =>
      have hkind' : Primitive.of? _ = some _ := of_decide_eq_true hcb
      obtain rfl := Option.some.inj (hkind.symm.trans hkind')
      rw [← @isSubtypeOf_withNotes_right _ _ notes] at hsub
      rw [withNotes, isSubtypeOf_refl ha] at hsub
      cases hsub
    | any =>
      rw [isSubtypeOf_any] at hsub
      cases hsub
    | never | object | array => cases hcb
    | union => cases hunion
  | primitive =>
    have hkind := hca
    simp only [isSubtypeOf, isUnion, Bool.and_false, Bool.false_eq_true, if_false, someMember,
      primitiveTest, decide_eq_true_eq] at hkind
    subst hkind
    exact habove (isSubtypeOf_withNotes_right.trans (isSubtypeOf_refl ha))
  | any | object | array => cases hca
  | never | union => cases hatom

/-- The intersections of the type with all others are meets. -/
def HasMeets (S : NumberSet) (a : DataType) : Prop :=
  ∀ b : DataType, b.Normal S → IsMeet S a b (a.intersect b)

section Parts

variable {properties : List (String × DataType)} {front : List DataType} {rest : DataType}
  {required : List String} {minimum : Nat}

theorem eq_object_of_isSubtypeOf (hatom : c.isAtom = true)
    (h : c.isSubtypeOf (object properties rest required notes) = true) :
    ∃ properties' rest' required' notes', c = object properties' rest' required' notes' := by
  cases c with
  | object => exact ⟨_, _, _, _, rfl⟩
  | primitive => simp [isSubtypeOf, isUnion, someMember, primitiveTest] at h
  | any | literal | array => cases h
  | never | union => cases hatom

theorem eq_array_of_isSubtypeOf (hatom : c.isAtom = true)
    (h : c.isSubtypeOf (array front rest minimum notes) = true) :
    ∃ front' rest' minimum' notes', c = array front' rest' minimum' notes' := by
  cases c with
  | array => exact ⟨_, _, _, _, rfl⟩
  | primitive => simp [isSubtypeOf, isUnion, someMember, primitiveTest] at h
  | any | literal | object => cases h
  | never | union => cases hatom

/-- The meet of two object types has the meets of their properties, named or not. -/
theorem isMeet_objectMeet (hprops : ∀ p ∈ properties, HasMeets S p.2) (hrest : HasMeets S rest)
    (hb : b.Normal S) (hunion : b.isUnion = false) (hany : b.isAny = false) :
    IsMeet S (object properties rest required notes) b
      (objectMeet (object properties rest required notes) (propertyMeets properties)
        rest.intersect required b) := by
  have hmeet (name : String) : HasMeets S (property properties rest name) := by
    rcases property_eq properties rest name with ⟨p, hp, heq⟩ | heq <;> rw [heq]
    · exact hprops p hp
    · exact hrest
  cases b with
  | object properties' rest' required' notes' =>
    cases hb with
    | object hprops' hrest' =>
    have hboth (name : String) := hmeet name _ (.property hprops' hrest' name)
    simp only [objectMeet, getD_propertyMeets, names_propertyMeets]
    refine ⟨?_, ?_⟩
    · rw [normal_mergeNotes, normal_mergeNotes]
      apply normal_ofObject
      · intro p hp
        obtain ⟨name, -, rfl⟩ := List.mem_map.mp hp
        exact (hboth name).1
      · exact (hrest _ hrest').1
    · intro c hatom hc
      rw [isSubtypeOf_mergeNotes_right, isSubtypeOf_mergeNotes_right,
        isSubtypeOf_ofObject_iff hatom hc]
      have hproperty (name : String) :
          property ((allNames (Fields.names properties) (Fields.names properties')).map fun name =>
            (name, (property properties rest name).intersect (property properties' rest' name)))
            (rest.intersect rest') name =
          (property properties rest name).intersect (property properties' rest' name) := by
        rw [property_map_names]
        split
        · rfl
        · -- neither type has the property by name
          rename_i hname
          rw [mem_allNames, not_or] at hname
          rw [property_of_not_mem hname.1, property_of_not_mem hname.2]
      cases hc with
      | object hpropsc hrestc =>
        have hrestIff := (hrest _ hrest').isSubtypeOf_iff hrestc
        have hpropIff (name : String) := (hboth name).isSubtypeOf_iff (.property hpropsc hrestc name)
        simp only [object_isSubtypeOf_object_iff, NameSet.mem_union, hproperty, hrestIff, hpropIff,
          or_imp, forall_and]
        constructor
        · rintro ⟨⟨hrequired, hrequired'⟩, ⟨hsub, hsub'⟩, hall, hall'⟩
          exact ⟨⟨hrequired, hsub, hall⟩, hrequired', hsub', hall'⟩
        · rintro ⟨⟨hrequired, hsub, hall⟩, hrequired', hsub', hall'⟩
          exact ⟨⟨hrequired, hrequired'⟩, ⟨hsub, hsub'⟩, hall, hall'⟩
      | any | literal | primitive | array =>
        simp [isSubtypeOf, isUnion, isAny, someMember, literalTest, primitiveTest, arrayTest]
      | never | union => cases hatom
  | never | literal | primitive | array =>
    apply isMeet_bottom
    intro c hatom _ hca
    obtain ⟨_, _, _, _, rfl⟩ := eq_object_of_isSubtypeOf hatom hca
    rfl
  | any => cases hany
  | union => cases hunion

/-- The meet of two array types has the meets of their elements at each position. -/
theorem isMeet_arrayMeet (hfront : ∀ t ∈ front, HasMeets S t) (hrest : HasMeets S rest)
    (hb : b.Normal S) (hunion : b.isUnion = false) (hany : b.isAny = false) :
    IsMeet S (array front rest minimum notes) b
      (arrayMeet (array front rest minimum notes) (frontMeets front) rest.intersect minimum b) := by
  have hmeet (i : Nat) : HasMeets S (element front rest i) := by
    rcases element_eq front rest i with hmem | heq
    · exact hfront _ hmem
    · rw [heq]
      exact hrest
  cases b with
  | array front' rest' minimum' notes' =>
    cases hb with
    | array hfront' hrest' =>
    have hboth (i : Nat) := hmeet i _ (.element hfront' hrest' i)
    have hlength : (frontMeets front).length = front.length := by rw [frontMeets_eq, List.length_map]
    simp only [arrayMeet, getD_frontMeets, hlength]
    refine ⟨?_, ?_⟩
    · rw [normal_mergeNotes, normal_mergeNotes]
      apply normal_ofArray
      · intro t ht
        obtain ⟨i, -, rfl⟩ := List.mem_map.mp ht
        exact (hboth i).1
      · exact (hrest _ hrest').1
    · intro c hatom hc
      rw [isSubtypeOf_mergeNotes_right, isSubtypeOf_mergeNotes_right,
        isSubtypeOf_ofArray_iff hatom hc]
      have helement (i : Nat) :
          element ((List.range (max front.length front'.length)).map fun i =>
            (element front rest i).intersect (element front' rest' i)) (rest.intersect rest') i =
          (element front rest i).intersect (element front' rest' i) := by
        rw [element_map_range]
        split
        · rfl
        · -- both types describe the element by what is left
          rename_i hi
          rw [Nat.not_lt, Nat.max_le] at hi
          rw [element_of_le hi.1, element_of_le hi.2]
      cases hc with
      | array hfrontc hrestc =>
        have hrestIff := (hrest _ hrest').isSubtypeOf_iff hrestc
        have helementIff (i : Nat) := (hboth i).isSubtypeOf_iff (.element hfrontc hrestc i)
        simp only [array_isSubtypeOf_array_iff, Nat.max_le, helement, hrestIff, helementIff,
          forall_and]
        constructor
        · rintro ⟨⟨hminimum, hminimum'⟩, ⟨hsub, hsub'⟩, hall, hall'⟩
          exact ⟨⟨hminimum, hsub, hall⟩, hminimum', hsub', hall'⟩
        · rintro ⟨⟨hminimum, hsub, hall⟩, hminimum', hsub', hall'⟩
          exact ⟨⟨hminimum, hminimum'⟩, ⟨hsub, hsub'⟩, hall, hall'⟩
      | any | literal | primitive | object =>
        simp [isSubtypeOf, isUnion, isAny, someMember, literalTest, primitiveTest, objectTest]
      | never | union => cases hatom
  | never | literal | primitive | object =>
    apply isMeet_bottom
    intro c hatom _ hca
    obtain ⟨_, _, _, _, rfl⟩ := eq_array_of_isSubtypeOf hatom hca
    rfl
  | any => cases hany
  | union => cases hunion

end Parts

/-- The intersection of two types is their meet. -/
theorem hasMeets (ha : a.Normal S) : HasMeets S a := by
  induction a using parts_induction with
  | any notes =>
    intro b hb
    refine isMeet_meetMembers ha ?_ hb
    intro b _ _ _ hsub
    rw [isSubtypeOf_any] at hsub
    cases hsub
  | never notes =>
    intro b hb
    refine isMeet_meetMembers ha ?_ hb
    intro b _ _ hsub _
    cases hsub
  | literal value notes =>
    intro b hb
    refine isMeet_meetMembers ha ?_ hb
    intro b hb _ hsub _
    exact isMeet_literal ha hb hsub
  | primitive kind notes =>
    intro b hb
    refine isMeet_meetMembers ha ?_ hb
    intro b hb hunion hsub hsub'
    exact isMeet_primitive hb hunion hsub hsub'
  | object properties rest required notes ihprops ihrest =>
    intro b hb
    refine isMeet_meetMembers ha ?_ hb
    intro b hb hunion hsub _
    cases ha with
    | object hprops hrest _ =>
      exact isMeet_objectMeet (fun p hp => ihprops p hp (hprops p hp)) (ihrest hrest) hb hunion
        (isAny_eq_false_of_unrelated hsub)
  | array front rest minimum notes ihfront ihrest =>
    intro b hb
    refine isMeet_meetMembers ha ?_ hb
    intro b hb hunion hsub _
    cases ha with
    | array hfront hrest _ _ =>
      exact isMeet_arrayMeet (fun t ht => ihfront t ht (hfront t ht)) (ihrest hrest) hb hunion
        (isAny_eq_false_of_unrelated hsub)
  | union ms notes ih =>
    intro b hb
    simp only [intersect, intersectEach_eq]
    refine isMeet_lesser?_getD ha hb ?_
    intro _ _
    apply IsMeet.symm
    apply isMeet_unionOf ha
    cases ha with
    | union heach _ _ =>
      intro m hm
      exact (ih m hm (heach m hm) b hb).symm

end JsonPath.DataType
