import JsonPath.Proofs.DataType.Normal

/-!
The subtype test on types in normal form is a preorder. A type is a subtype just if its atoms are:
the members of a union, with the truth values standing for the boolean type. An atom is a subtype
of a union just if it is one of a member.
-/

namespace JsonPath.DataType

variable {S : NumberSet} {a t u : DataType}

section Notes

variable {notes : Annotations} {other : DataType}

@[simp] theorem isAny_withNotes : (t.withNotes notes).isAny = t.isAny := by
  cases t <;> rfl

@[simp] theorem isSubtypeOf_withNotes_left :
    (t.withNotes notes).isSubtypeOf u = t.isSubtypeOf u := by
  cases t <;> rfl

@[simp] theorem isSubtypeOf_withNotes_right :
    t.isSubtypeOf (u.withNotes notes) = t.isSubtypeOf u := by
  induction t using parts_induction with
  | union ms n ih =>
    have hall : (ms.all fun t => t.isSubtypeOf (u.withNotes notes)) =
        ms.all fun t => t.isSubtypeOf u := by
      rw [Bool.eq_iff_iff, List.all_eq_true, List.all_eq_true]
      exact forall₂_congr fun t ht => by rw [ih t ht]
    simp only [isSubtypeOf, isNever_withNotes, isAny_withNotes, allSubtypes_eq, hall]
  | any | never | literal | primitive | object | array => cases u <;> rfl

@[simp] theorem isSubtypeOf_mergeNotes_left :
    (t.mergeNotes other).isSubtypeOf u = t.isSubtypeOf u := by
  unfold mergeNotes
  split
  · rfl
  · exact isSubtypeOf_withNotes_left

@[simp] theorem isSubtypeOf_mergeNotes_right :
    t.isSubtypeOf (u.mergeNotes other) = t.isSubtypeOf u := by
  unfold mergeNotes
  split
  · rfl
  · exact isSubtypeOf_withNotes_right

end Notes

section Shapes

variable {properties properties' : List (String × DataType)} {front front' ms : List DataType}
  {rest rest' : DataType} {required required' : List String} {minimum minimum' : Nat}
  {notes notes' : Annotations}

theorem object_isSubtypeOf_object_iff :
    (object properties rest required notes).isSubtypeOf
        (object properties' rest' required' notes') = true ↔
      (∀ name ∈ required', name ∈ required) ∧ rest.isSubtypeOf rest' = true ∧
        ∀ name, (property properties rest name).isSubtypeOf (property properties' rest' name) =
          true := by
  rw [isSubtypeOf, someMember]
  · constructor
    · intro h
      obtain ⟨_, _, _, _, heq, hrequired, hall⟩ := objectTest_eq_true h
      cases heq
      rw [objectTest, Bool.and_eq_true, Bool.and_eq_true] at h
      exact ⟨hrequired, h.1.2, hall⟩
    · rintro ⟨hrequired, hrest, hall⟩
      rw [objectTest, Bool.and_eq_true, Bool.and_eq_true, List.all_eq_true]
      refine ⟨⟨?_, hrest⟩, ?_⟩
      · simpa [NameSet.subset] using hrequired
      · intro name _
        rw [getD_propertyTests]
        exact hall name
  all_goals intros; contradiction

theorem array_isSubtypeOf_array_iff :
    (array front rest minimum notes).isSubtypeOf (array front' rest' minimum' notes') = true ↔
      minimum' ≤ minimum ∧ rest.isSubtypeOf rest' = true ∧
        ∀ i, (element front rest i).isSubtypeOf (element front' rest' i) = true := by
  rw [isSubtypeOf, someMember]
  · constructor
    · intro h
      obtain ⟨_, _, _, _, heq, hminimum, hall⟩ := arrayTest_eq_true h
      cases heq
      rw [arrayTest, Bool.and_eq_true, Bool.and_eq_true] at h
      exact ⟨hminimum, h.1.2, hall⟩
    · rintro ⟨hminimum, hrest, hall⟩
      rw [arrayTest, Bool.and_eq_true, Bool.and_eq_true, List.all_eq_true, decide_eq_true_eq]
      refine ⟨⟨hminimum, hrest⟩, ?_⟩
      intro i _
      rw [getD_frontTests]
      exact hall i
  all_goals intros; contradiction

/-- The boolean type belongs wherever both truth values do. -/
theorem boolean_isSubtypeOf_iff :
    (primitive .boolean notes).isSubtypeOf u = true ↔
      (ofBool true).isSubtypeOf u = true ∧ (ofBool false).isSubtypeOf u = true := by
  cases u with
  | union => simp [isSubtypeOf, isUnion, ofBool]
  | literal v =>
    cases v <;> simp [isSubtypeOf, isUnion, ofBool, someMember, primitiveTest, literalTest, Json.same]
  | any | never | primitive | object | array =>
    simp [isSubtypeOf, isUnion, ofBool, someMember, primitiveTest, literalTest, Primitive.of?]

/-- Nothing but the empty type is a subtype of it. -/
theorem isNever_of_isSubtypeOf (ht : t.Normal S) (hu : u.isNever = true)
    (h : t.isSubtypeOf u = true) : t.isNever = true := by
  obtain ⟨notes, rfl⟩ := isNever_eq_true hu
  cases ht with
  | never => rfl
  | primitive => simp [isSubtypeOf, isUnion, someMember, primitiveTest] at h
  | any | literal | object | array | union => cases h

end Shapes

section Atoms

variable {ms : List DataType} {notes : Annotations}

/-- The type is a subtype of a union only if it is one of a member. -/
def isAtom : DataType → Bool
  | never _ | union _ _ | primitive .boolean _ => false
  | _ => true

/-- The parts of a type other than a union for which a union may have different members. -/
def parts : DataType → List DataType
  | never _ => []
  | primitive .boolean _ => [ofBool true, ofBool false]
  | t => [t]

/-- The atoms that a type consists of. -/
def atoms : DataType → List DataType
  | union ms _ => ms.flatMap parts
  | t => t.parts

theorem atoms_of_isUnion (hunion : t.isUnion = false) : t.atoms = t.parts := by
  cases t <;> first | rfl | cases hunion

theorem isSubtypeOf_iff_parts (hunion : t.isUnion = false) :
    t.isSubtypeOf u = true ↔ ∀ a ∈ t.parts, a.isSubtypeOf u = true := by
  cases t with
  | never => simp [parts, isSubtypeOf]
  | primitive kind notes =>
    cases kind with
    | boolean => simp [parts, boolean_isSubtypeOf_iff]
    | number | string | null | nothing => simp [parts]
  | union => cases hunion
  | any | literal | object | array => simp [parts]

theorem isUnion_eq_false_of_isPlain (h : t.isPlain = true) : t.isUnion = false := by
  cases t <;> first | rfl | cases h

theorem isNever_eq_false_of_isPlain (h : t.isPlain = true) : t.isNever = false := by
  cases t <;> first | rfl | cases h

theorem isNever_eq_false_of_isAtom (h : t.isAtom = true) : t.isNever = false := by
  cases t <;> first | rfl | cases h

/-- A union is a subtype just if its members are. -/
theorem union_isSubtypeOf_iff (h : (union ms notes).Normal S) :
    (union ms notes).isSubtypeOf u = true ↔ ∀ m ∈ ms, m.isSubtypeOf u = true := by
  cases h with
  | union heach hplain hnonempty =>
    rw [isSubtypeOf, Bool.and_eq_true, Bool.or_eq_true, allSubtypes_eq, List.all_eq_true]
    constructor
    · rintro ⟨-, hany | hall⟩
      · obtain ⟨_, rfl⟩ := isAny_eq_true hany
        intro m _
        exact isSubtypeOf_any m _
      · exact hall
    · intro hall
      refine ⟨?_, .inr hall⟩
      obtain ⟨m, hm⟩ := List.exists_mem_of_ne_nil _ hnonempty
      cases hnever : u.isNever with
      | false => rfl
      | true =>
        have hempty := isNever_of_isSubtypeOf (heach m hm) hnever (hall m hm)
        rw [isNever_eq_false_of_isPlain (hplain m hm)] at hempty
        cases hempty

/-- A type is a subtype just if all its atoms are. -/
theorem isSubtypeOf_iff_atoms (ht : t.Normal S) :
    t.isSubtypeOf u = true ↔ ∀ a ∈ t.atoms, a.isSubtypeOf u = true := by
  cases t with
  | union ms notes =>
    rw [union_isSubtypeOf_iff ht, atoms, List.forall_mem_flatMap]
    cases ht with
    | union _ hplain _ =>
      exact forall₂_congr fun m hm =>
        isSubtypeOf_iff_parts (isUnion_eq_false_of_isPlain (hplain m hm))
  | any | never | literal | primitive | object | array => exact isSubtypeOf_iff_parts rfl

/-- An atom is a subtype of a union just if it is one of a member. -/
theorem isSubtypeOf_union_iff (ha : a.isAtom = true) (hplain : ∀ m ∈ ms, m.isPlain = true) :
    a.isSubtypeOf (union ms notes) = true ↔ ∃ m ∈ ms, a.isSubtypeOf m = true := by
  cases a with
  | any n =>
    simp only [isSubtypeOf, isAny, Bool.false_eq_true, false_iff, not_exists, not_and]
    intro m hm hany
    obtain ⟨_, rfl⟩ := isAny_eq_true hany
    cases hplain _ hm
  | primitive kind n =>
    cases kind with
    | boolean => cases ha
    | number | string | null | nothing =>
      simp [isSubtypeOf, someMember, someMemberAmong_eq]
  | literal | object | array => simp [isSubtypeOf, someMember, someMemberAmong_eq]
  | never | union => cases ha

theorem Normal.parts (ht : t.Normal S) (hunion : t.isUnion = false) :
    ∀ a ∈ t.parts, a.Normal S ∧ a.isAtom = true := by
  cases ht with
  | @primitive kind notes =>
    cases kind with
    | boolean =>
      have htruth (b : Bool) : (ofBool b).Normal S ∧ (ofBool b).isAtom = true :=
        ⟨normal_truth b _, rfl⟩
      exact List.forall_mem_cons.mpr ⟨htruth true, List.forall_mem_singleton.mpr (htruth false)⟩
    | number | string | null | nothing => simp [DataType.parts, isAtom, Normal.primitive]
  | never => exact List.forall_mem_nil _
  | any => exact List.forall_mem_singleton.mpr ⟨.any, rfl⟩
  | literal hscalar hnumbers hother =>
    exact List.forall_mem_singleton.mpr ⟨.literal hscalar hnumbers hother, rfl⟩
  | object hprops hrest hpossible =>
    exact List.forall_mem_singleton.mpr ⟨.object hprops hrest hpossible, rfl⟩
  | array hfront hrest hpresent hpossible =>
    exact List.forall_mem_singleton.mpr ⟨.array hfront hrest hpresent hpossible, rfl⟩
  | union => cases hunion

theorem Normal.atoms (ht : t.Normal S) : ∀ a ∈ t.atoms, a.Normal S ∧ a.isAtom = true := by
  cases t with
  | union ms notes =>
    cases ht with
    | union heach hplain _ =>
      rw [DataType.atoms, List.forall_mem_flatMap]
      intro m hm
      exact (heach m hm).parts (isUnion_eq_false_of_isPlain (hplain m hm))
  | any | never | literal | primitive | object | array => exact ht.parts rfl

/-- An atom is a subtype of a type other than a union just if it is one of a part. -/
theorem isSubtypeOf_iff_exists_part (ha : a.isAtom = true) (hanormal : a.Normal S)
    (hunion : t.isUnion = false) :
    a.isSubtypeOf t = true ↔ ∃ p ∈ t.parts, a.isSubtypeOf p = true := by
  cases t with
  | never notes =>
    simp only [DataType.parts, List.not_mem_nil, false_and, exists_false, iff_false]
    intro h
    have hnever := isNever_of_isSubtypeOf hanormal rfl h
    rw [isNever_eq_false_of_isAtom ha] at hnever
    cases hnever
  | primitive kind notes =>
    cases kind with
    | boolean =>
      cases a with
      | literal v =>
        cases v <;> simp [DataType.parts, isSubtypeOf, someMember, literalTest, ofBool, Json.same,
          Primitive.of?]
      | primitive kind =>
        cases kind with
        | boolean => cases ha
        | number | string | null | nothing =>
          simp [DataType.parts, isSubtypeOf, someMember, primitiveTest, ofBool]
      | any | object | array =>
        simp [DataType.parts, isSubtypeOf, someMember, objectTest, arrayTest, ofBool, isAny]
      | never | union => cases ha
    | number | string | null | nothing => simp [DataType.parts]
  | union => cases hunion
  | any | literal | object | array => simp [DataType.parts]

/-- An atom is a subtype of a type just if it is one of an atom of it. -/
theorem isSubtypeOf_iff_exists_atom (ha : a.isAtom = true) (hanormal : a.Normal S)
    (ht : t.Normal S) : a.isSubtypeOf t = true ↔ ∃ b ∈ t.atoms, a.isSubtypeOf b = true := by
  cases t with
  | union ms notes =>
    cases ht with
    | union heach hplain _ =>
      rw [isSubtypeOf_union_iff ha hplain, DataType.atoms]
      simp only [List.mem_flatMap]
      constructor
      · rintro ⟨m, hm, h⟩
        obtain ⟨p, hp, h⟩ := (isSubtypeOf_iff_exists_part ha hanormal
          (isUnion_eq_false_of_isPlain (hplain m hm))).mp h
        exact ⟨p, ⟨m, hm, hp⟩, h⟩
      · rintro ⟨p, ⟨m, hm, hp⟩, h⟩
        exact ⟨m, hm, (isSubtypeOf_iff_exists_part ha hanormal
          (isUnion_eq_false_of_isPlain (hplain m hm))).mpr ⟨p, hp, h⟩⟩
  | any | never | literal | primitive | object | array =>
    exact isSubtypeOf_iff_exists_part ha hanormal rfl

end Atoms

section Preorder

variable {w : DataType}

theorem isSubtypeOf_refl (ht : t.Normal S) : t.isSubtypeOf t = true := by
  induction ht with
  | any | never => rfl
  | literal _ hnumbers => exact Json.same_refl hnumbers
  | @primitive kind => cases kind <;> rfl
  | @object properties rest _ _ _ _ _ ihprops ihrest =>
    refine object_isSubtypeOf_object_iff.mpr ⟨fun _ h => h, ihrest, ?_⟩
    intro name
    rcases property_eq properties rest name with ⟨p, hp, heq⟩ | heq <;> rw [heq]
    · exact ihprops p hp
    · exact ihrest
  | @array front rest _ _ _ _ _ _ ihfront ihrest =>
    refine array_isSubtypeOf_array_iff.mpr ⟨Nat.le_refl _, ihrest, ?_⟩
    intro i
    rcases element_eq front rest i with hmem | heq
    · exact ihfront _ hmem
    · rw [heq]
      exact ihrest
  | union heach hplain hnonempty ih =>
    rw [isSubtypeOf_iff_atoms (.union heach hplain hnonempty), DataType.atoms,
      List.forall_mem_flatMap]
    intro m hm a ha
    have hunion := isUnion_eq_false_of_isPlain (hplain m hm)
    exact (isSubtypeOf_union_iff ((heach m hm).parts hunion a ha).2 hplain).mpr
      ⟨m, hm, (isSubtypeOf_iff_parts hunion).mp (ih m hm) a ha⟩

theorem Normal.isSubtypeOf_of_mem_atoms (ht : t.Normal S) (ha : a ∈ t.atoms) :
    a.isSubtypeOf t = true :=
  (isSubtypeOf_iff_atoms ht).mp (isSubtypeOf_refl ht) a ha

/-- To pass from an atom to a type it is enough to pass from it to the atoms on the way. -/
theorem isSubtypeOf_trans_of_atoms (ha : a.isAtom = true) (hanormal : a.Normal S)
    (hu : u.Normal S) (hw : w.Normal S) (hau : a.isSubtypeOf u = true)
    (huw : u.isSubtypeOf w = true)
    (h : ∀ x y : DataType, x.Normal S → x.isAtom = true → y.Normal S → y.isAtom = true →
      a.isSubtypeOf x = true → x.isSubtypeOf y = true → a.isSubtypeOf y = true) :
    a.isSubtypeOf w = true := by
  obtain ⟨x, hx, hax⟩ := (isSubtypeOf_iff_exists_atom ha hanormal hu).mp hau
  obtain ⟨hxnormal, hxatom⟩ := hu.atoms x hx
  have hxw := (isSubtypeOf_iff_atoms hu).mp huw x hx
  obtain ⟨y, hy, hxy⟩ := (isSubtypeOf_iff_exists_atom hxatom hxnormal hw).mp hxw
  obtain ⟨hynormal, hyatom⟩ := hw.atoms y hy
  exact (isSubtypeOf_iff_exists_atom ha hanormal hw).mpr
    ⟨y, hy, h x y hxnormal hxatom hynormal hyatom hax hxy⟩

theorem literal_isSubtypeOf_trans {v : Json} {notes : Annotations}
    (ht : (literal v notes).Normal S) (hu : u.Normal S) (hw : w.Normal S)
    (htu : (literal v notes).isSubtypeOf u = true) (huw : u.isSubtypeOf w = true) :
    (literal v notes).isSubtypeOf w = true := by
  refine isSubtypeOf_trans_of_atoms rfl ht hu hw htu huw ?_
  intro x y hx hxatom hy hyatom hax hxy
  cases ht with
  | literal _ hnumbers =>
  cases hx with
  | any =>
    obtain ⟨_, rfl⟩ := isAny_eq_true hxy
    exact isSubtypeOf_any _ _
  | @literal v' _ _ hnumbers' =>
    have hsame : v.same v' = true := hax
    cases hy with
    | any => exact isSubtypeOf_any _ _
    | literal _ hnumbers'' =>
      exact Json.same_trans hnumbers hnumbers' hnumbers'' hsame hxy
    | primitive =>
      simp only [isSubtypeOf, someMember, literalTest, decide_eq_true_eq] at hxy ⊢
      exact (Primitive.of?_eq_of_same hsame).trans hxy
    | never | object | array => cases hxy
    | union => cases hyatom
  | @primitive kind =>
    have hkind : kind ≠ .boolean := by
      intro h
      subst h
      cases hxatom
    cases hy with
    | any => exact isSubtypeOf_any _ _
    | primitive =>
      simp only [isSubtypeOf, someMember, literalTest, primitiveTest, hkind, decide_eq_true_eq,
        decide_false, Bool.false_and, Bool.false_eq_true, if_false] at hax hxy ⊢
      exact hax.trans (congrArg some hxy)
    | never | literal | object | array =>
      simp [isSubtypeOf, someMember, primitiveTest, isUnion] at hxy
    | union => cases hyatom
  | never | object | array => cases hax
  | union => cases hxatom

theorem primitive_isSubtypeOf_trans {kind : Primitive} {notes : Annotations} (hu : u.Normal S)
    (hw : w.Normal S) (htu : (primitive kind notes).isSubtypeOf u = true)
    (huw : u.isSubtypeOf w = true) : (primitive kind notes).isSubtypeOf w = true := by
  by_cases hkind : kind = .boolean
  · subst hkind
    rw [boolean_isSubtypeOf_iff] at htu ⊢
    exact ⟨literal_isSubtypeOf_trans (normal_truth true _) hu hw htu.1 huw,
      literal_isSubtypeOf_trans (normal_truth false _) hu hw htu.2 huw⟩
  · have hatom : (primitive kind notes).isAtom = true := by
      cases kind <;> first | rfl | contradiction
    refine isSubtypeOf_trans_of_atoms hatom .primitive hu hw htu huw ?_
    intro x y hx hxatom hy hyatom hax hxy
    cases hx with
    | any =>
      obtain ⟨_, rfl⟩ := isAny_eq_true hxy
      exact isSubtypeOf_any _ _
    | primitive =>
      simp only [isSubtypeOf, someMember, primitiveTest, hkind, decide_eq_true_eq, decide_false,
        Bool.false_and, Bool.false_eq_true, if_false] at hax
      subst hax
      exact hxy
    | never | literal | object | array =>
      simp [isSubtypeOf, someMember, primitiveTest, isUnion] at hax
    | union => cases hxatom

/-- A subtype of a subtype is a subtype. -/
theorem isSubtypeOf_trans (ht : t.Normal S) (hu : u.Normal S) (hw : w.Normal S)
    (htu : t.isSubtypeOf u = true) (huw : u.isSubtypeOf w = true) : t.isSubtypeOf w = true := by
  induction t using parts_induction generalizing u w with
  | any =>
    obtain ⟨_, rfl⟩ := isAny_eq_true htu
    exact huw
  | never => rfl
  | literal => exact literal_isSubtypeOf_trans ht hu hw htu huw
  | primitive => exact primitive_isSubtypeOf_trans hu hw htu huw
  | object properties rest required notes ihprops ihrest =>
    refine isSubtypeOf_trans_of_atoms rfl ht hu hw htu huw ?_
    intro x y hx hxatom hy hyatom hax hxy
    cases hx with
    | any =>
      obtain ⟨_, rfl⟩ := isAny_eq_true hxy
      exact isSubtypeOf_any _ _
    | object hprops' hrest' _ =>
      cases hy with
      | any => exact isSubtypeOf_any _ _
      | object hprops'' hrest'' _ =>
        cases ht with
        | object hprops hrest _ =>
        rw [object_isSubtypeOf_object_iff] at hax hxy ⊢
        obtain ⟨hrequired, hrestSub, hall⟩ := hax
        obtain ⟨hrequired', hrestSub', hall'⟩ := hxy
        refine ⟨fun name hname => hrequired name (hrequired' name hname),
          ihrest hrest hrest' hrest'' hrestSub hrestSub', ?_⟩
        intro name
        have hnormal' := Normal.property hprops' hrest' name
        have hnormal'' := Normal.property hprops'' hrest'' name
        have hsub := hall name
        rcases property_eq properties rest name with ⟨p, hp, heq⟩ | heq <;> rw [heq] at hsub ⊢
        · exact ihprops p hp (hprops p hp) hnormal' hnormal'' hsub (hall' name)
        · exact ihrest hrest hnormal' hnormal'' hsub (hall' name)
      | never | literal | primitive | array => cases hxy
      | union => cases hyatom
    | never | literal | primitive | array => cases hax
    | union => cases hxatom
  | array front rest minimum notes ihfront ihrest =>
    refine isSubtypeOf_trans_of_atoms rfl ht hu hw htu huw ?_
    intro x y hx hxatom hy hyatom hax hxy
    cases hx with
    | any =>
      obtain ⟨_, rfl⟩ := isAny_eq_true hxy
      exact isSubtypeOf_any _ _
    | array hfront' hrest' _ _ =>
      cases hy with
      | any => exact isSubtypeOf_any _ _
      | array hfront'' hrest'' _ _ =>
        cases ht with
        | array hfront hrest _ _ =>
        rw [array_isSubtypeOf_array_iff] at hax hxy ⊢
        obtain ⟨hminimum, hrestSub, hall⟩ := hax
        obtain ⟨hminimum', hrestSub', hall'⟩ := hxy
        refine ⟨Nat.le_trans hminimum' hminimum,
          ihrest hrest hrest' hrest'' hrestSub hrestSub', ?_⟩
        intro i
        have hnormal' := Normal.element hfront' hrest' i
        have hnormal'' := Normal.element hfront'' hrest'' i
        have hsub := hall i
        rcases element_eq front rest i with hmem | heq
        · exact ihfront _ hmem (hfront _ hmem) hnormal' hnormal'' hsub (hall' i)
        · rw [heq] at hsub ⊢
          exact ihrest hrest hnormal' hnormal'' hsub (hall' i)
      | never | literal | primitive | object => cases hxy
      | union => cases hyatom
    | never | literal | primitive | object => cases hax
    | union => cases hxatom
  | union ms notes ih =>
    rw [union_isSubtypeOf_iff ht] at htu ⊢
    cases ht with
    | union heach _ _ =>
      intro m hm
      exact ih m hm (heach m hm) hu hw (htu m hm) huw

end Preorder

end JsonPath.DataType
