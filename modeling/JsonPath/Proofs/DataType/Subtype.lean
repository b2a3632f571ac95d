import JsonPath.Proofs.DataType.Describes

/-!
The subtype test is sound: what a type describes is described by every type that it is told to
be a subtype of. The test may miss subtypes, but it finds every type that describes the absence
of a value.
-/

namespace JsonPath

/-- Whatever is there has only numbers of the set. -/
def Json.Held (S : NumberSet) (v : Option Json) : Prop := ∀ w, v = some w → w.Over S

theorem Json.Over.held {S : NumberSet} {v : Json} (h : v.Over S) : Json.Held S (some v) := by
  intro w hw
  cases hw
  exact h

theorem Json.held_none {S : NumberSet} : Json.Held S none := by
  intro w hw
  cases hw

namespace DataType

variable {S : NumberSet}

theorem someMemberAmong_eq (test : DataType → Bool) (ts : List DataType) :
    someMemberAmong test ts = ts.any (someMember test) := by
  induction ts with
  | nil => rfl
  | cons t rest ih => rw [someMemberAmong, ih, List.any_cons]

theorem allSubtypes_eq (ts : List DataType) (u : DataType) :
    allSubtypes ts u = ts.all fun t => t.isSubtypeOf u := by
  induction ts with
  | nil => rfl
  | cons t rest ih => rw [allSubtypes, ih, List.all_cons]

theorem get?_propertyTests (properties : Fields DataType) (name : String) :
    (propertyTests properties : Fields (DataType → Bool)).get? name =
      (properties.get? name).map isSubtypeOf := by
  induction properties with
  | nil => rfl
  | cons p rest ih =>
    obtain ⟨key, t⟩ := p
    rw [propertyTests, Fields.get?, Fields.get?]
    split
    · rfl
    · exact ih

theorem names_propertyTests (properties : Fields DataType) :
    (propertyTests properties : Fields (DataType → Bool)).names = properties.names := by
  induction properties with
  | nil => rfl
  | cons p rest ih =>
    rw [propertyTests, Fields.names, List.map_cons, ← Fields.names, ih]
    rfl

theorem frontTests_eq (front : List DataType) : frontTests front = front.map isSubtypeOf := by
  induction front with
  | nil => rfl
  | cons t rest ih => rw [frontTests, ih, List.map_cons]

/-- The test for a property, whether it is named or not. -/
theorem getD_propertyTests (properties : Fields DataType) (rest : DataType) (name : String) :
    ((propertyTests properties : Fields (DataType → Bool)).get? name).getD rest.isSubtypeOf =
      (property properties rest name).isSubtypeOf := by
  rw [get?_propertyTests, property]
  cases properties.get? name <;> rfl

theorem getD_frontTests (front : List DataType) (rest : DataType) (i : Nat) :
    (frontTests front)[i]?.getD rest.isSubtypeOf = (element front rest i).isSubtypeOf := by
  rw [frontTests_eq, List.getElem?_map, element]
  cases front[i]? <;> rfl

/-- An object type that passes requires no more, and all its properties pass, named or not. -/
theorem objectTest_eq_true {properties : Fields DataType} {rest u : DataType}
    {required : List String}
    (h : objectTest (propertyTests properties) rest.isSubtypeOf required u = true) :
    ∃ properties' rest' required' notes, u = object properties' rest' required' notes ∧
      (∀ name ∈ required', name ∈ required) ∧
      ∀ name, (property properties rest name).isSubtypeOf (property properties' rest' name) =
        true := by
  cases u with
  | object properties' rest' required' notes =>
    rw [objectTest, Bool.and_eq_true, Bool.and_eq_true, List.all_eq_true] at h
    obtain ⟨⟨hrequired, hrest⟩, hall⟩ := h
    refine ⟨properties', rest', required', notes, rfl, ?_, ?_⟩
    · intro name hname
      simpa using List.all_eq_true.mp hrequired name hname
    · intro name
      by_cases hname : name ∈ (propertyTests properties : Fields (DataType → Bool)).names ++
          Fields.names properties'
      · have htest := hall name hname
        rw [getD_propertyTests] at htest
        exact htest
      · -- neither type has the property by name
        rw [names_propertyTests, List.mem_append, not_or] at hname
        rw [property_of_not_mem hname.1, property_of_not_mem hname.2]
        exact hrest
  | _ => cases h

/-- An array type that passes has no smaller minimum, and all its elements pass. -/
theorem arrayTest_eq_true {front : List DataType} {rest u : DataType} {minimum : Nat}
    (h : arrayTest (frontTests front) rest.isSubtypeOf minimum u = true) :
    ∃ front' rest' minimum' notes, u = array front' rest' minimum' notes ∧
      minimum' ≤ minimum ∧
      ∀ i, (element front rest i).isSubtypeOf (element front' rest' i) = true := by
  cases u with
  | array front' rest' minimum' notes =>
    rw [arrayTest, Bool.and_eq_true, Bool.and_eq_true, List.all_eq_true, decide_eq_true_eq] at h
    obtain ⟨⟨hminimum, hrest⟩, hall⟩ := h
    refine ⟨front', rest', minimum', notes, rfl, hminimum, ?_⟩
    intro i
    by_cases hi : i < max (frontTests front).length front'.length
    · have htest := hall i (List.mem_range.mpr hi)
      rw [getD_frontTests] at htest
      exact htest
    · -- both types describe the element by what is left
      rw [frontTests_eq, List.length_map] at hi
      rw [element_of_le (by omega), element_of_le (by omega)]
      exact hrest
  | _ => cases h

/-- If a member passes a test that tells of a description, the type describes the value. -/
theorem describes_of_someMember {test : DataType → Bool} {v : Option Json}
    (htest : ∀ u : DataType, u.Over S → test u = true → u.Describes v) (u : DataType)
    (hu : u.Over S) (h : someMember test u = true) : u.Describes v := by
  induction u using parts_induction with
  | any notes => exact .any
  | union members notes ih =>
    rw [someMember, someMemberAmong_eq, List.any_eq_true] at h
    obtain ⟨t, ht, hsome⟩ := h
    cases hu with
    | union heach => exact .union ht (ih t ht (heach t ht) hsome)
  | never | literal | primitive | object | array => exact htest _ hu h

theorem describes_of_literalTest {u : DataType} {value v : Json} (hu : u.Over S)
    (hvalue : value.Over S) (hv : v.Over S) (hsame : v.same value = true)
    (h : literalTest value u = true) : u.Describes (some v) := by
  cases u with
  | literal other notes =>
    cases hu with
    | literal _ hover => exact .literal (Json.same_trans hv hvalue hover hsame h)
  | primitive kind notes =>
    rw [literalTest, decide_eq_true_eq] at h
    exact .primitive ((Primitive.of?_eq_of_same hsame).trans h)
  | _ => cases h

theorem describes_of_primitiveTest {u : DataType} {kind : Primitive} {notes : Annotations}
    {v : Option Json} (hv : (primitive kind notes).Describes v)
    (h : primitiveTest kind u = true) : u.Describes v := by
  cases u with
  | primitive other notes =>
    rw [primitiveTest, decide_eq_true_eq] at h
    subst h
    cases hv with
    | primitive hkind => exact .primitive hkind
    | nothing => exact .nothing
  | _ => cases h

/-- What a type describes is described by every type that it is told to be a subtype of. -/
theorem Describes.of_isSubtypeOf {t u : DataType} {v : Option Json} (h : t.Describes v)
    (ht : t.Over S) (hu : u.Over S) (hv : Json.Held S v) (hsub : t.isSubtypeOf u = true) :
    u.Describes v := by
  induction t using parts_induction generalizing u v with
  | any notes =>
    cases u <;> first | exact .any | cases hsub
  | never notes => cases h
  | literal value notes =>
    cases h with
    | @literal _ w _ hsame =>
    cases ht with
    | literal hscalar hover =>
      refine describes_of_someMember ?_ u hu hsub
      intro x hx htest
      exact describes_of_literalTest hx hover (hv w rfl) hsame htest
  | primitive kind notes =>
    simp only [isSubtypeOf] at hsub
    split at hsub
    · -- every truth value is one of the two literals
      rename_i hboolean
      obtain ⟨rfl, -⟩ : kind = .boolean ∧ u.isUnion = true := by simpa using hboolean
      obtain ⟨htrue, hfalse⟩ := Bool.and_eq_true_iff.mp hsub
      cases h with
      | @primitive _ w _ hkind =>
        cases w with
        | bool b =>
          have htest (x : DataType) (hx : x.Over S) (h : literalTest (.bool b) x = true) :
              x.Describes (some (.bool b)) :=
            describes_of_literalTest hx (.bool b) (.bool b) (by simp [Json.same]) h
          cases b
          · exact describes_of_someMember htest u hu hfalse
          · exact describes_of_someMember htest u hu htrue
        | _ => cases hkind
    · refine describes_of_someMember ?_ u hu hsub
      intro x hx htest
      exact describes_of_primitiveTest h htest
  | object properties rest required notes ihprops ihrest =>
    refine describes_of_someMember ?_ u hu hsub
    intro x hx htest
    obtain ⟨properties', rest', required', notes', rfl, hrequired, hall⟩ :=
      objectTest_eq_true htest
    cases h with
    | @object _ _ _ _ members hpresent heach =>
    cases ht with
    | object hprops hrest =>
    cases hx with
    | object hprops' hrest' =>
      cases hv _ rfl with
      | object _ hmembers =>
        constructor
        · intro name hname
          exact hpresent name (hrequired name hname)
        · intro name w hw
          have hmember : w.Over S := hmembers _ (Fields.mem_of_get?_eq_some hw)
          have hsub := hall name
          have hdescribes := heach name w hw
          have hover' := Over.property hprops' hrest' name
          rcases property_eq properties rest name with ⟨p, hp, heq⟩ | heq <;>
            rw [heq] at hsub hdescribes
          · exact ihprops p hp hdescribes (hprops p hp) hover' hmember.held hsub
          · exact ihrest hdescribes hrest hover' hmember.held hsub
  | array front rest minimum notes ihfront ihrest =>
    refine describes_of_someMember ?_ u hu hsub
    intro x hx htest
    obtain ⟨front', rest', minimum', notes', rfl, hminimum, hall⟩ := arrayTest_eq_true htest
    cases h with
    | @array _ _ _ _ items henough heach =>
    cases ht with
    | array hfront hrest =>
    cases hx with
    | array hfront' hrest' =>
      cases hv _ rfl with
      | array hitems =>
        refine .array (Nat.le_trans hminimum henough) ?_
        intro i w hw
        have hitem : w.Over S := hitems _ (List.mem_of_getElem? hw)
        have hsub := hall i
        have hdescribes := heach i w hw
        have hover' := Over.element hfront' hrest' i
        rcases element_eq front rest i with hmem | heq
        · exact ihfront _ hmem hdescribes (hfront _ hmem) hover' hitem.held hsub
        · rw [heq] at hsub hdescribes
          exact ihrest hdescribes hrest hover' hitem.held hsub
  | union members notes ih =>
    cases h with
    | @union _ _ t _ hmem hdescribes =>
    cases ht with
    | union heach =>
      rw [isSubtypeOf, Bool.and_eq_true, Bool.or_eq_true, allSubtypes_eq, List.all_eq_true] at hsub
      obtain ⟨-, hany | hall⟩ := hsub
      · cases u <;> first | exact .any | cases hany
      · exact ih t hmem hdescribes (heach t hmem) hu hv (hall t hmem)

/-- A type is told to allow for the absence of a value just if it describes it. -/
theorem mayBeNothing_iff (t : DataType) : t.mayBeNothing = true ↔ t.Describes none := by
  have hsome : t.mayBeNothing = someMember (primitiveTest .nothing) t := by
    rw [mayBeNothing, ofPrimitive, isSubtypeOf]
    rfl
  rw [hsome]
  clear hsome
  induction t using parts_induction with
  | any notes => exact ⟨fun _ => .any, fun _ => rfl⟩
  | union members notes ih =>
    rw [someMember, someMemberAmong_eq, List.any_eq_true]
    constructor
    · intro h
      obtain ⟨t, ht, hsome⟩ := h
      exact .union ht ((ih t ht).mp hsome)
    · intro h
      cases h with
      | union ht hdescribes => exact ⟨_, ht, (ih _ ht).mpr hdescribes⟩
  | primitive kind notes =>
    rw [someMember, primitiveTest, decide_eq_true_eq]
    · constructor
      · intro h
        subst h
        exact .nothing
      · intro h
        cases h
        rfl
    all_goals intros; contradiction
  | never | literal | object | array =>
    constructor <;> intro h <;> cases h

end DataType

end JsonPath
