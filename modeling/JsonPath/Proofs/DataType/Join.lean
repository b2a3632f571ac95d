import JsonPath.Proofs.DataType.Order

/-!
Unions are joins of the subtype relation: an atom is a subtype of a union just if it is one of a
type that is united. For objects and arrays the subtype relation does not tell a type from its
normal form.
-/

namespace JsonPath.DataType

variable {S : NumberSet} {a b c t : DataType} {ts ms : List DataType}

section Join

/-- The type is a subtype of one of the types. -/
def Under (a : DataType) (ts : List DataType) : Prop := ∃ t ∈ ts, a.isSubtypeOf t = true

theorem under_cons : Under a (t :: ts) ↔ a.isSubtypeOf t = true ∨ Under a ts := by
  simp [Under]

theorem under_append : Under a (ts ++ ms) ↔ Under a ts ∨ Under a ms := by
  simp [Under, or_and_right, exists_or]

theorem isSubtypeOf_eq_false_of_isNever (ha : a.isAtom = true) (hnormal : a.Normal S)
    (ht : t.isNever = true) : a.isSubtypeOf t = false := by
  refine eq_false_of_ne_true fun h => ?_
  have hnever := isNever_of_isSubtypeOf hnormal ht h
  rw [isNever_eq_false_of_isAtom ha] at hnever
  cases hnever

theorem under_flatten (ha : a.isAtom = true) (hnormal : a.Normal S)
    (hts : ∀ t ∈ ts, t.Normal S) : Under a (flatten ts) ↔ Under a ts := by
  induction ts with
  | nil => rfl
  | cons t rest ih =>
    obtain ⟨ht, hrest⟩ := List.forall_mem_cons.mp hts
    rw [under_cons, ← ih hrest]
    cases t with
    | union ms notes =>
      cases ht with
      | union _ hplain _ => rw [flatten, under_append, isSubtypeOf_union_iff ha hplain, Under]
    | never notes =>
      rw [flatten, isSubtypeOf_eq_false_of_isNever ha hnormal rfl]
      simp
    | any | literal | primitive | object | array =>
      rw [flatten, under_cons]
      all_goals intros; contradiction

/-- What is a subtype of a truth value is that truth value, so it is one of the boolean type. -/
theorem isSubtypeOf_boolean_of_isTruth (hnormal : a.Normal S) {x : Bool}
    (ht : isTruth x t = true) (h : a.isSubtypeOf t = true) :
    a.isSubtypeOf (ofPrimitive .boolean) = true := by
  obtain ⟨notes, rfl⟩ := isTruth_eq_true ht
  exact isSubtypeOf_trans hnormal (normal_truth x notes) .primitive h rfl

theorem under_joinTruths (ha : a.isAtom = true) (hnormal : a.Normal S) :
    Under a (joinTruths ts) ↔ Under a ts := by
  unfold joinTruths
  split
  · rename_i hboth
    obtain ⟨htrue, hfalse⟩ := Bool.and_eq_true_iff.mp hboth
    rw [under_append]
    constructor
    · rintro (⟨t, ht, h⟩ | ⟨t, ht, h⟩)
      · exact ⟨t, (List.mem_filter.mp ht).1, h⟩
      · rw [List.mem_singleton.mp ht] at h
        obtain ⟨p, hp, h⟩ := (isSubtypeOf_iff_exists_part ha hnormal rfl).mp h
        have htruth (x : Bool) (hx : ts.any (isTruth x) = true)
            (h : a.isSubtypeOf (ofBool x) = true) : Under a ts := by
          obtain ⟨t, ht, htruth⟩ := List.any_eq_true.mp hx
          obtain ⟨notes, rfl⟩ := isTruth_eq_true htruth
          exact ⟨_, ht, (@isSubtypeOf_withNotes_right _ _ notes).trans h⟩
        rcases List.mem_cons.mp hp with rfl | hp
        · exact htruth true htrue h
        · rw [List.mem_singleton.mp hp] at h
          exact htruth false hfalse h
    · rintro ⟨t, ht, h⟩
      have hlast (x : Bool) (hx : isTruth x t = true) : Under a [ofPrimitive .boolean] :=
        ⟨_, List.mem_cons_self, isSubtypeOf_boolean_of_isTruth hnormal hx h⟩
      cases htrue : isTruth true t with
      | true => exact .inr (hlast true htrue)
      | false =>
        cases hfalse : isTruth false t with
        | true => exact .inr (hlast false hfalse)
        | false =>
          refine .inl ⟨t, List.mem_filter.mpr ⟨ht, ?_⟩, h⟩
          rw [htrue, hfalse]
          rfl
  · rfl

theorem under_absorb? {absorbed : List DataType} (hnormal : a.Normal S) (ht : t.Normal S)
    (hts : ∀ u ∈ ts, u.Normal S) (heq : absorb? t ts = some absorbed) :
    Under a absorbed ↔ Under a ts ∨ a.isSubtypeOf t = true := by
  induction ts generalizing absorbed with
  | nil => cases heq
  | cons s rest ih =>
    obtain ⟨hs, hrest⟩ := List.forall_mem_cons.mp hts
    rw [absorb?] at heq
    split at heq
    · rename_i hsub
      cases heq
      have hhead : a.isSubtypeOf (if s.same t then s.mergeNotes t else s) = a.isSubtypeOf s := by
        split
        · exact isSubtypeOf_mergeNotes_right
        · rfl
      rw [under_cons, under_cons, hhead, or_assoc]
      constructor
      · exact Or.imp_right .inl
      · rintro (h | h | h)
        · exact .inl h
        · exact .inr h
        · exact .inl (isSubtypeOf_trans hnormal ht hs h hsub)
    · obtain ⟨others, hothers, rfl⟩ := Option.map_eq_some_iff.mp heq
      rw [under_cons, under_cons, ih hrest hothers, or_assoc]

theorem under_addMember (hnormal : a.Normal S) (ht : t.Normal S) (hts : ∀ u ∈ ts, u.Normal S) :
    Under a (addMember ts t) ↔ Under a ts ∨ a.isSubtypeOf t = true := by
  unfold addMember
  split
  · rename_i heq
    exact under_absorb? hnormal ht hts heq
  · rw [under_append, under_cons]
    constructor
    · rintro (⟨u, hu, h⟩ | h | ⟨_, hnil, _⟩)
      · exact .inl ⟨u, (List.mem_filter.mp hu).1, h⟩
      · exact .inr h
      · cases hnil
    · rintro (⟨u, hu, h⟩ | h)
      · -- a member that goes is a subtype of the one that comes
        cases hsub : u.isSubtypeOf t with
        | true => exact .inr (.inl (isSubtypeOf_trans hnormal (hts u hu) ht h hsub))
        | false =>
          refine .inl ⟨u, List.mem_filter.mpr ⟨hu, ?_⟩, h⟩
          rw [hsub]
          rfl
      · exact .inr (.inl h)

theorem under_foldl_addMember (hnormal : a.Normal S) {found : List DataType}
    (hfound : ∀ u ∈ found, Summand S u) (hts : ∀ u ∈ ts, Summand S u) :
    Under a (ts.foldl addMember found) ↔ Under a found ∨ Under a ts := by
  induction ts generalizing found with
  | nil => simp [Under]
  | cons t rest ih =>
    obtain ⟨ht, hrest⟩ := List.forall_mem_cons.mp hts
    rw [List.foldl_cons, ih (summand_memberClosed.addMember hfound ht) hrest,
      under_addMember hnormal ht.1 fun u hu => (hfound u hu).1, under_cons, or_assoc]

/-- An atom is a subtype of a union just if it is one of a type that is united. -/
theorem isSubtypeOf_unionOf_iff (ha : a.isAtom = true) (hnormal : a.Normal S)
    (hts : ∀ t ∈ ts, t.Normal S) :
    a.isSubtypeOf (unionOf ts) = true ↔ ∃ t ∈ ts, a.isSubtypeOf t = true := by
  rw [← Under, ← under_flatten ha hnormal hts]
  unfold unionOf
  dsimp only
  split
  · rename_i t hfind
    obtain ⟨notes, rfl⟩ := isAny_eq_true (List.find?_some hfind)
    have hsub := isSubtypeOf_any a notes
    exact iff_of_true hsub ⟨_, List.mem_of_find?_eq_some hfind, hsub⟩
  · rename_i hany
    have hjoined := summand_memberClosed.joinTruths (summand_flatten hts hany)
    have hmembers := summand_memberClosed.foldl_addMember (List.forall_mem_nil _) hjoined
    have hunder := under_foldl_addMember hnormal (List.forall_mem_nil _) hjoined
    rw [under_joinTruths ha hnormal] at hunder
    have hunder' : Under a ((joinTruths (flatten ts)).foldl addMember []) ↔
        Under a (flatten ts) := by
      rw [hunder]
      simp [Under]
    rw [← hunder']
    split
    · rename_i hnil
      rw [hnil, isSubtypeOf_eq_false_of_isNever ha hnormal rfl]
      simp [Under]
    · rename_i hone
      rw [hone, under_cons]
      simp [Under]
    · exact isSubtypeOf_union_iff ha fun t ht => (hmembers t ht).2

/-- The types are subtypes of a type just if their union is. -/
theorem unionOf_isSubtypeOf_iff (hts : ∀ t ∈ ts, t.Normal S) (hc : c.Normal S) :
    (unionOf ts).isSubtypeOf c = true ↔ ∀ t ∈ ts, t.isSubtypeOf c = true := by
  have hunion := normal_unionOf hts
  constructor
  · intro h t ht
    rw [isSubtypeOf_iff_atoms (hts t ht)]
    intro a ha
    obtain ⟨hnormal, hatom⟩ := (hts t ht).atoms a ha
    have hat := (hts t ht).isSubtypeOf_of_mem_atoms ha
    exact isSubtypeOf_trans hnormal hunion hc
      ((isSubtypeOf_unionOf_iff hatom hnormal hts).mpr ⟨t, ht, hat⟩) h
  · intro h
    rw [isSubtypeOf_iff_atoms hunion]
    intro a ha
    obtain ⟨hnormal, hatom⟩ := hunion.atoms a ha
    have haunion := hunion.isSubtypeOf_of_mem_atoms ha
    obtain ⟨t, ht, hat⟩ := (isSubtypeOf_unionOf_iff hatom hnormal hts).mp haunion
    exact isSubtypeOf_trans hnormal (hts t ht) hc hat (h t ht)

end Join

section Build

variable {properties : List (String × DataType)} {front : List DataType} {rest : DataType}

/-- What is a subtype of an object type is one of the type in normal form. -/
theorem isSubtypeOf_ofObject_iff (hatom : c.isAtom = true) (hc : c.Normal S)
    (required : List String) :
    c.isSubtypeOf (ofObject properties rest required) = true ↔
      c.isSubtypeOf (object properties rest required {}) = true := by
  unfold ofObject
  dsimp only
  cases hc with
  | @object properties' rest' required' notes' hprops' hrest' hpossible' =>
    split
    · -- the object type requires something impossible, which no type in normal form does
      rename_i hany
      obtain ⟨name, hname, hnever⟩ := List.any_eq_true.mp hany
      refine iff_of_false nofun ?_
      intro h
      obtain ⟨hrequired, -, hall⟩ := object_isSubtypeOf_object_iff.mp h
      have hpossible := hpossible' name (hrequired name ((NameSet.mem_ofList _ _).mp hname))
      have himpossible := isNever_of_isSubtypeOf (.property hprops' hrest' name) hnever (hall name)
      rw [hpossible] at himpossible
      cases himpossible
    · simp only [object_isSubtypeOf_object_iff, NameSet.mem_ofList]
  | any | literal | primitive | array =>
    split <;>
      simp [isSubtypeOf, someMember, isAny, literalTest, primitiveTest, arrayTest, isUnion, bottom]
  | never | union => cases hatom

theorem isSubtypeOf_of_isNever (h : t.isNever = true) (u : DataType) :
    t.isSubtypeOf u = true := by
  obtain ⟨notes, rfl⟩ := isNever_eq_true h
  rfl

/-- An array type that requires an element has a possible type for it. -/
theorem Normal.isNever_element {minimum : Nat} {notes : Annotations}
    (h : (DataType.array front rest minimum notes).Normal S) {i : Nat} (hi : i < minimum) :
    (DataType.element front rest i).isNever = false := by
  cases h with
  | array _ _ hpresent hpossible =>
    by_cases hfront : i < front.length
    · rw [DataType.element, List.getElem?_eq_getElem hfront]
      exact hpresent _ (List.getElem_mem hfront)
    · rw [element_of_le (Nat.le_of_not_lt hfront)]
      exact hpossible (by omega)

/-- From an impossible element on, an array type has none that are possible. -/
theorem Normal.isNever_element_of_le {minimum : Nat} {notes : Annotations}
    (h : (DataType.array front rest minimum notes).Normal S) {i j : Nat}
    (hi : (DataType.element front rest i).isNever = true) (hij : i ≤ j) :
    rest.isNever = true ∧ (DataType.element front rest j).isNever = true := by
  cases h with
  | array _ _ hpresent _ =>
    have hle : front.length ≤ i := by
      apply Nat.le_of_not_lt
      intro hlt
      rw [DataType.element, List.getElem?_eq_getElem hlt] at hi
      have hpresent := hpresent _ (List.getElem_mem hlt)
      rw [show front[i].isNever = true from hi] at hpresent
      cases hpresent
    rw [element_of_le hle] at hi
    rw [element_of_le (Nat.le_trans hle hij)]
    exact ⟨hi, hi⟩

/-- What is a subtype of an array type is one of the type in normal form. -/
theorem isSubtypeOf_ofArray_iff (hatom : c.isAtom = true) (hc : c.Normal S) (minimum : Nat) :
    c.isSubtypeOf (ofArray front rest minimum) = true ↔
      c.isSubtypeOf (array front rest minimum {}) = true := by
  unfold ofArray
  dsimp only
  cases c with
  | array front' rest' minimum' notes' =>
    have hnever {i : Nat} {u : DataType} (hu : u.isNever = true)
        (h : (element front' rest' i).isSubtypeOf u = true) :
        (element front' rest' i).isNever = true := by
      cases hc with
      | array hfront' hrest' _ _ => exact isNever_of_isSubtypeOf (.element hfront' hrest' i) hu h
    split
    · -- the array type requires something impossible, which no type in normal form does
      rename_i hbottom
      obtain ⟨i, hi, himpossible⟩ := exists_isNever_element hbottom
      refine iff_of_false nofun ?_
      intro h
      obtain ⟨hminimum, -, hall⟩ := array_isSubtypeOf_array_iff.mp h
      have hempty := hnever himpossible (hall i)
      rw [hc.isNever_element (Nat.lt_of_lt_of_le hi hminimum)] at hempty
      cases hempty
    · split
      · rename_i hlt
        have hend := isNever_of_takeWhile_lt rest hlt
        rw [array_isSubtypeOf_array_iff, array_isSubtypeOf_array_iff]
        refine and_congr_right fun _ => ?_
        constructor
        · rintro ⟨hrest, hall⟩
          have hempty : rest'.isNever = true := by
            cases hc with
            | array _ hrest' _ _ => exact isNever_of_isSubtypeOf hrest' rfl hrest
          refine ⟨isSubtypeOf_of_isNever hempty _, ?_⟩
          intro i
          have hi := hall i
          by_cases hkept : i < (front.takeWhile fun t => !t.isNever).length
          · rwa [element_takeWhile hkept] at hi
          · rw [element_of_le (Nat.le_of_not_lt hkept)] at hi
            exact isSubtypeOf_of_isNever (hnever rfl hi) _
        · rintro ⟨-, hall⟩
          have hafter {i : Nat} (hi : (front.takeWhile fun t => !t.isNever).length ≤ i) :=
            hc.isNever_element_of_le (hnever hend (hall _)) hi
          refine ⟨isSubtypeOf_of_isNever (hafter (Nat.le_refl _)).1 _, ?_⟩
          intro i
          by_cases hkept : i < (front.takeWhile fun t => !t.isNever).length
          · rw [element_takeWhile hkept]
            exact hall i
          · exact isSubtypeOf_of_isNever (hafter (Nat.le_of_not_lt hkept)).2 _
      · rfl
  | any | literal | primitive | object =>
    split <;> try split
    all_goals
      simp [isSubtypeOf, someMember, isAny, literalTest, primitiveTest, objectTest, isUnion, bottom]
  | never | union => cases hatom

end Build

end JsonPath.DataType
