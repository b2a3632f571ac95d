import JsonPath.Proofs.DataType.Difference
import JsonPath.Proofs.DataType.Restriction

/-!
Types that are narrowed at a location. When a part of a type becomes a subtype of what it was, and
when a location is made present, the type becomes a subtype of what it was, whatever becomes of it
on the way: objects and arrays that are impossible go, an impossible element ends an array, and an
array gets more elements described.
-/

namespace JsonPath.DataType

variable {S : NumberSet} {t u : DataType} {f : DataType → DataType}

section Build

variable {properties properties' : List (String × DataType)} {front front' : List DataType}
  {rest rest' : DataType} {required required' : List String} {minimum minimum' : Nat}
  {notes : Annotations}

/-- An object type that is built of subtypes and requires as much is a subtype. -/
theorem ofObject_isSubtypeOf (hrequired : ∀ name ∈ required', name ∈ required)
    (hrest : rest.isSubtypeOf rest' = true)
    (hall : ∀ name, (property properties rest name).isSubtypeOf (property properties' rest' name) =
      true) :
    (ofObject properties rest required).isSubtypeOf (object properties' rest' required' notes) =
      true := by
  unfold ofObject
  dsimp only
  split
  · rfl
  · rw [object_isSubtypeOf_object_iff]
    exact ⟨fun name hname => (NameSet.mem_ofList _ _).mpr (hrequired name hname), hrest, hall⟩

/-- An array type that is built of subtypes and has no smaller minimum is a subtype. -/
theorem ofArray_isSubtypeOf (hminimum : minimum' ≤ minimum)
    (hrest : rest.isSubtypeOf rest' = true)
    (hall : ∀ i, (element front rest i).isSubtypeOf (element front' rest' i) = true) :
    (ofArray front rest minimum).isSubtypeOf (array front' rest' minimum' notes) = true := by
  unfold ofArray
  dsimp only
  split
  · rfl
  · split
    · rw [array_isSubtypeOf_array_iff]
      refine ⟨hminimum, rfl, ?_⟩
      intro i
      by_cases hkept : i < (front.takeWhile fun t => !t.isNever).length
      · rw [element_takeWhile hkept]
        exact hall i
      · rw [element_of_le (Nat.le_of_not_lt hkept)]
        rfl
    · rw [array_isSubtypeOf_array_iff]
      exact ⟨hminimum, hrest, hall⟩

end Build

section Members

/-- The union of subtypes of the members of a union is a subtype of the union. -/
theorem unionOf_map_isSubtypeOf {ms : List DataType} {notes : Annotations}
    (ht : (union ms notes).Normal S) (hf : ∀ m ∈ ms, (f m).Normal S)
    (h : ∀ m ∈ ms, (f m).isSubtypeOf m = true) :
    (unionOf (ms.map f)).isSubtypeOf (union ms notes) = true := by
  rw [unionOf_isSubtypeOf_iff (List.forall_mem_map.mpr hf) ht, List.forall_mem_map]
  intro m hm
  have hmember := (union_isSubtypeOf_iff ht).mp (isSubtypeOf_refl ht) m hm
  exact isSubtypeOf_trans (hf m hm) (ht.members m hm) ht (h m hm) hmember

theorem mapAnnotated_isSubtypeOf
    (hf : ∀ u : DataType, u.isUnion = false → u.Normal S → (f u).Normal S)
    (h : ∀ u : DataType, u.isUnion = false → u.Normal S → (f u).isSubtypeOf u = true)
    (ht : t.Normal S) : (mapAnnotated f t).isSubtypeOf t = true := by
  induction t using parts_induction with
  | union ms notes ih =>
    rw [mapAnnotated, mapAnnotatedEach_eq, isSubtypeOf_mergeNotes_left]
    refine unionOf_map_isSubtypeOf ht ?_ ?_
    · intro m hm
      exact (normal_closed S).mapAnnotated hf m (ht.members m hm)
    · intro m hm
      exact ih m hm (ht.members m hm)
  | any | never | literal | primitive | object | array => exact h _ rfl ht

end Members

section Replacement

variable {properties : Fields DataType} {front wide : List DataType} {rest changed : DataType}
  {required required' : List String} {minimum minimum' : Nat} {notes : Annotations}

theorem ofObject_insert_isSubtypeOf {name : String}
    (h : (object properties rest required notes).Normal S)
    (hrequired : ∀ name ∈ required, name ∈ required')
    (hchanged : changed.isSubtypeOf (property properties rest name) = true) :
    (ofObject (properties.insert name changed) rest required').isSubtypeOf
      (object properties rest required notes) = true := by
  refine ofObject_isSubtypeOf hrequired (isSubtypeOf_refl ((normal_closed S).others h)) ?_
  intro other
  rw [property_insert]
  split
  · rename_i hname
    subst hname
    exact hchanged
  · exact isSubtypeOf_refl ((normal_closed S).property h other)

theorem ofArray_set_isSubtypeOf {i : Nat} (h : (array front rest minimum notes).Normal S)
    (hwide : widen? front rest i = some wide) (hminimum : minimum ≤ minimum')
    (hchanged : changed.isSubtypeOf (element front rest i) = true) :
    (ofArray (wide.set i changed) rest minimum').isSubtypeOf (array front rest minimum notes) =
      true := by
  refine ofArray_isSubtypeOf hminimum (isSubtypeOf_refl ((normal_closed S).further h)) ?_
  intro j
  rw [element_widen? hwide]
  split
  · rename_i hij
    subst hij
    exact hchanged
  · exact isSubtypeOf_refl ((normal_closed S).element h j)

/-- What is left of an array type may be united with something narrower. -/
theorem ofArray_unionOf_isSubtypeOf (h : (array front rest minimum notes).Normal S)
    (hnormal : changed.Normal S) (hchanged : changed.isSubtypeOf rest = true) :
    (ofArray front (unionOf [rest, changed]) minimum).isSubtypeOf
      (array front rest minimum notes) = true := by
  have hrest := (normal_closed S).further h
  have hunion : (unionOf [rest, changed]).isSubtypeOf rest = true :=
    (ordered_normal S).unionOf_pair_least hrest hnormal hrest (isSubtypeOf_refl hrest) hchanged
  refine ofArray_isSubtypeOf (Nat.le_refl _) hunion ?_
  intro i
  by_cases hi : i < front.length
  · rw [element, element, List.getElem?_eq_getElem hi]
    exact isSubtypeOf_refl ((normal_closed S).front h _ (List.getElem_mem hi))
  · rw [element_of_le (Nat.le_of_not_lt hi), element_of_le (Nat.le_of_not_lt hi)]
    exact hunion

end Replacement

section Locations

/-- A type of which something that is at a location is made narrower is narrower. -/
theorem changeAt_isSubtypeOf (hf : ∀ u : DataType, u.Normal S → (f u).Normal S)
    (h : ∀ u : DataType, u.Normal S → (f u).isSubtypeOf u = true) (l : Location)
    (ht : t.Normal S) : (changeAt f l t).isSubtypeOf t = true := by
  induction l generalizing t with
  | nil => exact h t ht
  | cons step tail ih =>
    rw [changeAt]
    refine mapAnnotated_isSubtypeOf ?_ ?_ ht
    · intro u hunion hu
      have hnormal := (normal_closed S).changeAt hf (step :: tail) u hu
      rwa [changeAt, mapAnnotated_of_isUnion hunion] at hnormal
    · intro u _ hu
      cases u with
      | object properties rest required notes =>
        cases step with
        | index => exact isSubtypeOf_refl hu
        | name name =>
          have hchanged := ih ((normal_closed S).property hu name)
          exact isSubtypeOf_withNotes_left.trans
            (ofObject_insert_isSubtypeOf hu (fun _ => id) hchanged)
      | array front rest minimum notes =>
        cases step with
        | name => exact isSubtypeOf_refl hu
        | index i =>
          have helement := (normal_closed S).element hu i
          have hchanged := ih helement
          dsimp only
          split
          · rename_i hwide
            exact isSubtypeOf_withNotes_left.trans
              (ofArray_set_isSubtypeOf hu hwide (Nat.le_refl _) hchanged)
          · -- so far out the element is described by what is left
            rename_i hwide
            rw [widen?_eq_none_iff] at hwide
            have hle : front.length ≤ i := by omega
            have hfar : element front rest i = rest := element_of_le hle rest
            have hnormal := (normal_closed S).changeAt hf tail _ helement
            rw [hfar] at hchanged hnormal ⊢
            exact isSubtypeOf_withNotes_left.trans
              (ofArray_unionOf_isSubtypeOf hu hnormal hchanged)
      | any | never | literal | primitive | union => exact isSubtypeOf_refl hu

/-- A type of which a location is made present is narrower. -/
theorem presentAt_isSubtypeOf (l : Location) (ht : t.Normal S) :
    (presentAt l t).isSubtypeOf t = true := by
  induction l generalizing t with
  | nil => exact isSubtypeOf_refl ht
  | cons step tail ih =>
    rw [presentAt]
    refine mapAnnotated_isSubtypeOf ?_ ?_ ht
    · intro u hunion hu
      have hnormal := (normal_closed S).presentAt (step :: tail) u hu
      rwa [presentAt, mapAnnotated_of_isUnion hunion] at hnormal
    · intro u _ hu
      cases u with
      | object properties rest required notes =>
        cases step with
        | index => rfl
        | name name =>
          have hpresent := ih ((normal_closed S).property hu name)
          exact isSubtypeOf_withNotes_left.trans
            (ofObject_insert_isSubtypeOf hu (fun _ => List.mem_append_left _) hpresent)
      | array front rest minimum notes =>
        cases step with
        | name => rfl
        | index i =>
          have hpresent := ih ((normal_closed S).element hu i)
          dsimp only
          split
          · rename_i hwide
            exact isSubtypeOf_withNotes_left.trans
              (ofArray_set_isSubtypeOf hu hwide (Nat.le_max_left _ _) hpresent)
          · split
            · rfl
            · exact isSubtypeOf_refl hu
      | any => exact isSubtypeOf_refl hu
      | never | literal | primitive | union => rfl

end Locations

end JsonPath.DataType
