import JsonPath.Proofs.DataType.Step

/-!
Types with what is at a location changed or made present. A type that is changed at a location
still describes a value if the change keeps what the value has there. It need not keep anything
for values that have nothing there.
-/

namespace JsonPath.DataType

variable {S : NumberSet} {P : DataType → Prop} {f : DataType → DataType} {t u : DataType}
  {v w : Json}

section Members

theorem mapAnnotated_of_isUnion (h : t.isUnion = false) : mapAnnotated f t = f t := by
  cases t <;> first | rfl | cases h

theorem over_mapAnnotated
    (hf : ∀ u : DataType, u.isUnion = false → u.Over S → (f u).Over S) (t : DataType)
    (ht : t.Over S) : (mapAnnotated f t).Over S :=
  (over_closed S).mapAnnotated hf t ht

theorem describes_mapAnnotated {v : Option Json}
    (hover : ∀ u : DataType, u.isUnion = false → u.Over S → (f u).Over S)
    (hf : ∀ u : DataType, u.isUnion = false → u.Over S → u.Describes v → (f u).Describes v)
    (hv : Json.Held S v) (t : DataType) (ht : t.Over S) (h : t.Describes v) :
    (mapAnnotated f t).Describes v := by
  induction t using parts_induction with
  | union ms notes ih =>
    cases h with
    | @union _ _ m _ hm hdescribes =>
      rw [mapAnnotated, mapAnnotatedEach_eq, describes_mergeNotes]
      refine describes_unionOf ?_ hv (List.mem_map_of_mem hm)
        (ih m hm (over_unionClosed.members ht m hm) hdescribes)
      intro t' ht'
      obtain ⟨m', hm', rfl⟩ := List.mem_map.mp ht'
      exact over_mapAnnotated hover m' (over_unionClosed.members ht m' hm')
  | any | never | literal | primitive | object | array => exact hf _ rfl ht h

end Members

section Parts

/-- The types of the parts of an object type with one property replaced. -/
theorem property_insert (properties : Fields DataType) (rest t : DataType) (name other : String) :
    property (properties.insert name t) rest other =
      if name = other then t else property properties rest other := by
  rw [property, Fields.get?_insert]
  split
  · rfl
  · rfl

/-- The elements described by copies of what is left are described as before. -/
theorem element_widen? {front wide : List DataType} {rest : DataType} {i : Nat}
    (h : widen? front rest i = some wide) (t : DataType) (j : Nat) :
    element (wide.set i t) rest j = if i = j then t else element front rest j := by
  unfold widen? at h
  split at h
  · cases h
  · cases h
    unfold element
    rw [List.getElem?_set]
    split
    · rw [if_pos (by simp; omega)]
      rfl
    · by_cases hj : j < front.length
      · rw [List.getElem?_append_left hj]
      · rw [List.getElem?_append_right (by omega), List.getElem?_replicate,
          List.getElem?_eq_none (Nat.le_of_not_lt hj)]
        split <;> rfl

end Parts

section Locations

theorem over_changeAt (hf : ∀ u : DataType, u.Over S → (f u).Over S) (l : Location)
    (t : DataType) (ht : t.Over S) : (changeAt f l t).Over S :=
  (over_closed S).changeAt hf l t ht

/-- If the change keeps what a value has at the location, if there is anything, then the changed
type keeps the value. -/
theorem describes_changeAt (hf : ∀ u : DataType, u.Over S → (f u).Over S) (l : Location)
    (t : DataType) (ht : t.Over S) (hv : v.Over S) (h : t.Describes (some v))
    (hkeep : ∀ w, v.at? l = some w → ∀ u : DataType, u.Over S → u.Describes (some w) →
      (f u).Describes (some w)) : (changeAt f l t).Describes (some v) := by
  induction l generalizing t v with
  | nil => exact hkeep v rfl t ht h
  | cons step tail ih =>
    have hbelow (child : Json) (hchild : v.child? step = some child) (u : DataType)
        (hu : u.Over S) (hdescribes : u.Describes (some child)) :
        (changeAt f tail u).Describes (some child) := by
      refine ih u hu (hv.child? hchild) hdescribes ?_
      intro w hw
      apply hkeep w
      rw [Json.at?, hchild]
      exact hw
    rw [changeAt]
    refine describes_mapAnnotated ?_ ?_ hv.held t ht h
    · intro u hunion hu
      have hover := over_changeAt hf (step :: tail) u hu
      rw [changeAt, mapAnnotated_of_isUnion hunion] at hover
      exact hover
    · intro u hunion hu hdescribes
      cases hdescribes with
      | @object properties rest _ _ members hpresent heach =>
        cases step with
        | index => exact .object hpresent heach
        | name name =>
          cases hu with
          | object hprops hrest =>
          refine describes_withNotes.mpr (describes_ofObject (.object hpresent ?_))
          intro other w hw
          rw [property_insert]
          split
          · rename_i hname
            subst hname
            exact hbelow w hw _ (.property hprops hrest name) (heach name w hw)
          · exact heach other w hw
      | @array front rest _ _ items henough heach =>
        cases step with
        | name => exact .array henough heach
        | index i =>
          cases hu with
          | array hfront hrest =>
          dsimp only
          split
          · rename_i hwide
            refine describes_withNotes.mpr (describes_ofArray (.array henough ?_))
            intro j w hw
            rw [element_widen? hwide]
            split
            · rename_i hi
              subst hi
              exact hbelow w hw _ (.element hfront hrest i) (heach i w hw)
            · exact heach j w hw
          · have hchanged := over_changeAt hf tail _ (Over.element hfront hrest i)
            refine describes_withNotes.mpr (describes_ofArray (.array henough ?_))
            intro j w hw
            have hdescribes := heach j w hw
            have hstep : Json.child? (.index j) (.array items) = some w := hw
            have hitem := (hv.child? hstep).held
            by_cases hj : j < front.length
            · rw [element, List.getElem?_eq_getElem hj] at hdescribes ⊢
              exact hdescribes
            · rw [element_of_le (Nat.le_of_not_lt hj)] at hdescribes ⊢
              exact describes_unionOf_pair hrest hchanged hitem (.inl hdescribes)
      | any => exact .any
      | literal hsame => exact .literal hsame
      | primitive hkind => exact .primitive hkind
      | union => cases hunion

theorem over_presentAt (l : Location) (t : DataType) (ht : t.Over S) : (presentAt l t).Over S :=
  (over_closed S).presentAt l t ht

/-- Values that have something at a location stay when the location is made present. -/
theorem describes_presentAt (l : Location) (t : DataType) (ht : t.Over S) (hv : v.Over S)
    (h : t.Describes (some v)) (hw : v.at? l = some w) : (presentAt l t).Describes (some v) := by
  induction l generalizing t v with
  | nil => exact h
  | cons step tail ih =>
    obtain ⟨child, hchild, htail⟩ := Option.bind_eq_some_iff.mp hw
    have hbelow (u : DataType) (hu : u.Over S) (hdescribes : u.Describes (some child)) :
        (presentAt tail u).Describes (some child) :=
      ih u hu (hv.child? hchild) hdescribes htail
    rw [presentAt]
    refine describes_mapAnnotated ?_ ?_ hv.held t ht h
    · intro u hunion hu
      have hover := over_presentAt (step :: tail) u hu
      rw [presentAt, mapAnnotated_of_isUnion hunion] at hover
      exact hover
    · intro u hunion hu hdescribes
      cases hdescribes with
      | @object properties rest required _ members hpresent heach =>
        cases step with
        | index => cases hchild
        | name name =>
          cases hu with
          | object hprops hrest =>
          refine describes_withNotes.mpr (describes_ofObject (.object ?_ ?_))
          · intro other hother
            rcases List.mem_append.mp hother with hother | hother
            · exact hpresent other hother
            · rw [List.mem_singleton.mp hother]
              exact ⟨child, hchild⟩
          · intro other w hw
            rw [property_insert]
            split
            · rename_i hname
              subst hname
              obtain rfl := Option.some.inj (hchild.symm.trans hw)
              exact hbelow _ (.property hprops hrest name) (heach name _ hw)
            · exact heach other w hw
      | @array front rest _ _ items henough heach =>
        cases step with
        | name => cases hchild
        | index i =>
          cases hu with
          | array hfront hrest =>
          have hdescribes := hbelow _ (.element hfront hrest i) (heach i child hchild)
          dsimp only
          split
          · rename_i hwide
            refine describes_withNotes.mpr (describes_ofArray (.array ?_ ?_))
            · have hi := (List.getElem?_eq_some_iff.mp hchild).1
              exact Nat.max_le.mpr ⟨henough, hi⟩
            · intro j w hw
              rw [element_widen? hwide]
              split
              · rename_i hi
                subst hi
                obtain rfl := Option.some.inj (hchild.symm.trans hw)
                exact hdescribes
              · exact heach j w hw
          · rw [hdescribes.isNever]
            exact .array henough heach
      | any => exact .any
      | literal hsame =>
        cases hu with
        | literal hscalar =>
          rw [Json.child?_of_isScalar (Json.isScalar_of_same hsame hscalar)] at hchild
          cases hchild
      | primitive hkind =>
        rw [Json.child?_of_isScalar (Primitive.isScalar_of_eq_some hkind)] at hchild
        cases hchild
      | union => cases hunion

end Locations

end JsonPath.DataType
