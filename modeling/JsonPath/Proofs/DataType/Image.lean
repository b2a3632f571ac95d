import JsonPath.Proofs.DataType.Inhabited
import JsonPath.Proofs.DataType.Step

/-!
The types found at locations are images. What is found at a location inside a type describes what
the location leads to from the values of the type, and nothing else: a value of what is found is put
into a value of the type, whose other parts are possible because the type is in normal form. On the
way a type may come to speak of the absence of a value, but never of the absence of something
inside.
-/

namespace JsonPath

section Children

variable {S : NumberSet} {w : Json}

/-- A value is one step inside some other value. -/
theorem Json.exists_child (step : Step) (hw : w.Over S) :
    ∃ v : Json, v.Over S ∧ v.child? step = some w := by
  cases step with
  | index i =>
    refine ⟨.array (List.replicate i .null ++ [w]), .array ?_, ?_⟩
    · refine List.forall_mem_append.mpr ⟨?_, List.forall_mem_singleton.mpr hw⟩
      intro item hitem
      rw [List.eq_of_mem_replicate hitem]
      exact .null
    · simp [Json.child?]
  | name name =>
    refine ⟨.object [(name, w)], .object ?_ (List.forall_mem_singleton.mpr hw), ?_⟩
    · exact List.nodup_cons.mpr ⟨List.not_mem_nil, List.nodup_nil⟩
    · exact if_pos rfl

end Children

namespace DataType

variable {S : NumberSet} {t : DataType} {step : Step} {x : Option Json}

section Forward

theorem describes_memberAt_none (hunion : t.isUnion = false) (h : t.Describes none) :
    (memberAt step t).Describes none := by
  cases h with
  | any => exact .any
  | nothing => exact .nothing
  | union => cases hunion

/-- One step inside the absence of a value is the absence of one. -/
theorem describes_atStep_bind {v : Option Json} (step : Step) (ht : t.Over S)
    (hv : Json.Held S v) (h : t.Describes v) :
    (t.atStep step).Describes (v.bind fun w => w.child? step) := by
  cases v with
  | some v => exact describes_atStep step ht (hv v rfl) h
  | none =>
    refine describes_mapMembers over_unionClosed (fun _ _ => (over_closed S).memberAt step) ?_
      Json.held_none t ht h
    exact fun u hunion _ => describes_memberAt_none hunion

theorem describes_atLocation {v : Option Json} (l : Location) (ht : t.Over S)
    (hv : Json.Held S v) (h : t.Describes v) :
    (t.atLocation l).Describes (v.bind fun w => w.at? l) := by
  induction l generalizing t v with
  | nil => cases v <;> exact h
  | cons step tail ih =>
    rw [Json.bind_at?_cons]
    exact ih ((over_closed S).atStep step ht) (hv.bind_child? step)
      (describes_atStep_bind step ht hv h)

end Forward

/-- From some value of the type, or from the absence of one, one comes to `x`. -/
def Reaches (S : NumberSet) (t : DataType) (find : Json → Option Json) (x : Option Json) : Prop :=
  ∃ v, Json.Held S v ∧ t.Describes v ∧ v.bind find = x

theorem Reaches.value {find : Json → Option Json} {v : Json} (hv : v.Over S)
    (h : t.Describes (some v)) (hfind : find v = x) : Reaches S t find x :=
  ⟨some v, hv.held, h, hfind⟩

section Parts

variable {properties : List (String × DataType)} {front : List DataType} {rest : DataType}
  {required : List String} {minimum : Nat} {notes : Annotations} {w : Json}

/-- A required member has a value. -/
theorem exists_member (hS : ∃ n, S.Mem n) (ht : (object properties rest required notes).Normal S)
    (hnothing : (object properties rest required notes).occurs isNothing = false) {name : String}
    (hname : name ∈ required) :
    ∃ v : Json, v.Over S ∧ (property properties rest name).Describes (some v) := by
  cases ht with
  | object hprops hrest hpossible =>
    exact (Normal.property hprops hrest name).exists_describes hS (occurs_property hnothing name)
      (hpossible name hname)

/-- A possible element has a value. -/
theorem exists_item (hS : ∃ n, S.Mem n) (ht : (array front rest minimum notes).Normal S)
    (hnothing : (array front rest minimum notes).occurs isNothing = false) {i : Nat}
    (hi : (element front rest i).isNever = false) :
    ∃ v : Json, v.Over S ∧ (element front rest i).Describes (some v) := by
  cases ht with
  | array hfront hrest =>
    exact (Normal.element hfront hrest i).exists_describes hS (occurs_element hnothing i) hi

/-- A value of the type of a member is that member of some object. -/
theorem reaches_member (hS : ∃ n, S.Mem n) (ht : (object properties rest required notes).Normal S)
    (hnothing : (object properties rest required notes).occurs isNothing = false) {name : String}
    (hw : w.Over S) (h : (property properties rest name).Describes (some w)) :
    Reaches S (object properties rest required notes) (Json.child? (.name name)) (some w) := by
  have hall : ∀ other ∈ name :: required, ∃ v : Json, v.Over S ∧
      (property properties rest other).Describes (some v) ∧ (other = name → v = w) := by
    intro other hother
    by_cases heq : other = name
    · subst heq
      exact ⟨w, hw, h, fun _ => rfl⟩
    · obtain ⟨v, hv, hdescribes⟩ := exists_member hS ht hnothing (List.mem_of_ne_of_mem heq hother)
      exact ⟨v, hv, hdescribes, fun h => absurd h heq⟩
  obtain ⟨members, hover, hdescribes, hnames, hvalues⟩ :=
    exists_object (fun _ => List.mem_cons_of_mem name) hall
  obtain ⟨v, hv⟩ := Fields.mem_names_iff.mp ((hnames name).mpr List.mem_cons_self)
  rw [hvalues name v hv rfl] at hv
  exact .value hover hdescribes hv

/-- A member that is not required is missing in some object. -/
theorem reaches_no_member (hS : ∃ n, S.Mem n)
    (ht : (object properties rest required notes).Normal S)
    (hnothing : (object properties rest required notes).occurs isNothing = false) {name : String}
    (hname : name ∉ required) :
    Reaches S (object properties rest required notes) (Json.child? (.name name)) none := by
  have hall : ∀ other ∈ required, ∃ v : Json, v.Over S ∧
      (property properties rest other).Describes (some v) ∧ other ≠ name := by
    intro other hother
    obtain ⟨v, hv, hdescribes⟩ := exists_member hS ht hnothing hother
    exact ⟨v, hv, hdescribes, ne_of_mem_of_not_mem hother hname⟩
  obtain ⟨members, hover, hdescribes, -, hvalues⟩ := exists_object (fun _ => id) hall
  refine .value hover hdescribes (Option.eq_none_iff_forall_not_mem.mpr ?_)
  intro v hv
  exact hvalues name v hv rfl

/-- A value of the type of an element is that element of some array. -/
theorem reaches_item (hS : ∃ n, S.Mem n) (ht : (array front rest minimum notes).Normal S)
    (hnothing : (array front rest minimum notes).occurs isNothing = false) {i : Nat}
    (hw : w.Over S) (h : (element front rest i).Describes (some w)) :
    Reaches S (array front rest minimum notes) (Json.child? (.index i)) (some w) := by
  -- an element before a possible one is possible, even if it is not required
  have hbefore (j : Nat) (hj : j < max minimum (i + 1)) :
      (element front rest j).isNever = false := by
    by_cases hminimum : j < minimum
    · exact ht.isNever_element hminimum
    · refine eq_false_of_ne_true fun hnever => ?_
      have hlater := (ht.isNever_element_of_le hnever (by omega : j ≤ i)).2
      rw [h.isNever] at hlater
      cases hlater
  have hall : ∀ j < max minimum (i + 1), ∃ v : Json, v.Over S ∧
      (element front rest j).Describes (some v) ∧ (j = i → v = w) := by
    intro j hj
    by_cases heq : j = i
    · subst heq
      exact ⟨w, hw, h, fun _ => rfl⟩
    · obtain ⟨v, hv, hdescribes⟩ := exists_item hS ht hnothing (hbefore j hj)
      exact ⟨v, hv, hdescribes, fun h => absurd h heq⟩
  obtain ⟨items, hover, hdescribes, hlength, hvalues⟩ := exists_array (Nat.le_max_left _ _) hall
  have hi : i < items.length := by omega
  have hitem := List.getElem?_eq_getElem hi
  rw [hvalues i _ hitem rfl] at hitem
  exact .value hover hdescribes hitem

/-- An element that is not required is missing in some array. -/
theorem reaches_no_item (hS : ∃ n, S.Mem n) (ht : (array front rest minimum notes).Normal S)
    (hnothing : (array front rest minimum notes).occurs isNothing = false) {i : Nat}
    (hi : minimum ≤ i) :
    Reaches S (array front rest minimum notes) (Json.child? (.index i)) none := by
  have hall : ∀ j < minimum, ∃ v : Json, v.Over S ∧
      (element front rest j).Describes (some v) ∧ True := by
    intro j hj
    obtain ⟨v, hv, hdescribes⟩ := exists_item hS ht hnothing (ht.isNever_element hj)
    exact ⟨v, hv, hdescribes, trivial⟩
  obtain ⟨items, hover, hdescribes, hlength, -⟩ := exists_array (Nat.le_refl _) hall
  exact .value hover hdescribes (List.getElem?_eq_none (by omega))

end Parts

section Backward

theorem describes_nothing_iff : nothing.Describes x ↔ x = none := by
  constructor
  · intro h
    cases h with
    | nothing => rfl
    | @primitive _ v _ hkind => cases v <;> cases hkind
  · rintro rfl
    exact .nothing

/-- Where a part may be missing, either the part is found or its absence. -/
theorem describes_unionOf_nothing_iff (ht : t.Normal S) (hx : Json.Held S x) :
    (unionOf [t, nothing]).Describes x ↔ t.Describes x ∨ x = none := by
  rw [(standsFor_ofValue? hx).describes_unionOf_pair_iff ht (u := nothing) .primitive,
    describes_nothing_iff]

/-- In a type with values that have nothing at a step, the absence of a value is reached. -/
theorem reaches_none (hS : ∃ n, S.Mem n) (ht : t.Normal S)
    (hnothing : t.occurs isNothing = false) (hnever : t.isNever = false)
    (hchild : ∀ v : Json, t.Describes (some v) → v.child? step = none) :
    Reaches S t (Json.child? step) none := by
  obtain ⟨v, hv, hdescribes⟩ := ht.exists_describes hS hnothing hnever
  exact .value hv hdescribes (hchild v hdescribes)

/-- Everything that is found one step inside a type is reached from its values. -/
theorem reaches_memberAt (hS : ∃ n, S.Mem n) (ht : t.Normal S) (hunion : t.isUnion = false)
    (hnothing : LacksInside isNothing t) (hany : x = none → LacksInside isAny t)
    (hx : Json.Held S x) (h : (memberAt step t).Describes x) :
    Reaches S t (Json.child? step) x := by
  cases t with
  | never => cases h
  | union => cases hunion
  | any =>
    cases x with
    | none => exact ⟨none, Json.held_none, .any, rfl⟩
    | some w =>
      obtain ⟨v, hv, hchild⟩ := Json.exists_child step (hx w rfl)
      exact .value hv .any hchild
  | literal =>
    obtain rfl := describes_nothing_iff.mp h
    cases ht with
    | literal hscalar hnumbers =>
      exact .value hnumbers (.literal (Json.same_refl hnumbers))
        (Json.child?_of_isScalar hscalar step)
  | primitive kind =>
    obtain rfl := describes_nothing_iff.mp h
    by_cases hkind : kind = .nothing
    · subst hkind
      exact ⟨none, Json.held_none, .nothing, rfl⟩
    · refine reaches_none hS ht (decide_eq_false hkind) rfl ?_
      intro v hv
      cases hv with
      | primitive hkind => exact Json.child?_of_isScalar (Primitive.isScalar_of_eq_some hkind) step
  | object properties rest required notes =>
    have hlacks := lacksInside_object_iff.mp hnothing
    cases step with
    | index =>
      obtain rfl := describes_nothing_iff.mp h
      refine reaches_none hS ht hlacks rfl ?_
      intro v hv
      cases hv
      rfl
    | name name =>
      have hproperty : (property properties rest name).Normal S :=
        (normal_closed S).property ht name
      simp only [memberAt] at h
      have hfound : (property properties rest name).Describes x ∨ x = none ∧ name ∉ required := by
        split at h
        · exact .inl h
        · rename_i hrequired
          rw [describes_unionOf_nothing_iff hproperty hx] at h
          exact h.imp_right fun hnone => ⟨hnone, by simpa using hrequired⟩
      rcases hfound with hfound | ⟨rfl, hname⟩
      · cases x with
        | some w => exact reaches_member hS ht hlacks (hx w rfl) hfound
        | none =>
          refine absurd hfound (not_describes_none (occurs_property hlacks name) ?_)
          exact occurs_property (lacksInside_object_iff.mp (hany rfl)) name
      · exact reaches_no_member hS ht hlacks hname
  | array front rest minimum notes =>
    have hlacks := lacksInside_array_iff.mp hnothing
    cases step with
    | name =>
      obtain rfl := describes_nothing_iff.mp h
      refine reaches_none hS ht hlacks rfl ?_
      intro v hv
      cases hv
      rfl
    | index i =>
      have helement : (element front rest i).Normal S := (normal_closed S).element ht i
      simp only [memberAt] at h
      have hfound : (element front rest i).Describes x ∨ x = none ∧ minimum ≤ i := by
        split at h
        · exact .inl h
        · rename_i hminimum
          rw [describes_unionOf_nothing_iff helement hx] at h
          exact h.imp_right fun hnone => ⟨hnone, Nat.le_of_not_lt hminimum⟩
      rcases hfound with hfound | ⟨rfl, hi⟩
      · cases x with
        | some w => exact reaches_item hS ht hlacks (hx w rfl) hfound
        | none =>
          refine absurd hfound (not_describes_none (occurs_element hlacks i) ?_)
          exact occurs_element (lacksInside_array_iff.mp (hany rfl)) i
      · exact reaches_no_item hS ht hlacks hi

theorem reaches_atStep (hS : ∃ n, S.Mem n) (ht : t.Normal S) (hnothing : LacksInside isNothing t)
    (hany : x = none → LacksInside isAny t) (hx : Json.Held S x)
    (h : (t.atStep step).Describes x) : Reaches S t (Json.child? step) x := by
  unfold atStep at h
  induction t using parts_induction with
  | union ms notes ih =>
    have hfound : ∀ u ∈ ms.map (mapMembers (memberAt step)), u.Normal S := by
      refine List.forall_mem_map.mpr fun m hm => ?_
      exact (normal_closed S).atStep step (ht.members m hm)
    rw [mapMembers, mapEach_eq, (standsFor_ofValue? hx).describes_unionOf_iff hfound] at h
    obtain ⟨u, hu, h⟩ := h
    obtain ⟨m, hm, rfl⟩ := List.mem_map.mp hu
    obtain ⟨v, hv, hdescribes, hchild⟩ := ih m hm (ht.members m hm)
      (lacksInside_union_iff.mp hnothing m hm)
      (fun hnone => lacksInside_union_iff.mp (hany hnone) m hm) h
    exact ⟨v, hv, .union hm hdescribes, hchild⟩
  | any | never | literal | primitive | object | array =>
    exact reaches_memberAt hS ht rfl hnothing hany hx h

/-- Everything that is found at a location inside a type is reached from its values. -/
theorem reaches_atLocation (hS : ∃ n, S.Mem n) (l : Location) (ht : t.Normal S)
    (hnothing : LacksInside isNothing t) (hany : x = none → LacksInside isAny t)
    (hx : Json.Held S x) (h : (t.atLocation l).Describes x) :
    Reaches S t (fun w => w.at? l) x := by
  induction l generalizing t with
  | nil => exact ⟨x, hx, h, by cases x <;> rfl⟩
  | cons step tail ih =>
    obtain ⟨v, hv, hdescribes, hfound⟩ := ih ((normal_closed S).atStep step ht)
      (lacksInside_atStep step hnothing) (fun hnone => lacksInside_atStep step (hany hnone)) h
    have hanyStep : v = none → LacksInside isAny t := by
      rintro rfl
      exact hany hfound.symm
    obtain ⟨u, hu, hdescribes, hchild⟩ := reaches_atStep hS ht hnothing hanyStep hv hdescribes
    refine ⟨u, hu, hdescribes, ?_⟩
    rw [Json.bind_at?_cons]
    exact (congrArg (fun v => v.bind fun w => w.at? tail) hchild).trans hfound

end Backward

/-- The second type describes what a location leads to from the values of the first. Every value
that it describes is found there if the first type nowhere speaks of the absence of a value, and
the absence of a value is if, moreover, no part of the first type describes everything. -/
structure IsImage (S : NumberSet) (t found : DataType) (l : Location) : Prop where
  describes : ∀ v, Json.Held S v → t.Describes v → found.Describes (v.bind fun w => w.at? l)
  reached : t.occurs isNothing = false → ∀ w : Json, w.Over S → found.Describes (some w) →
    ∃ v : Json, v.Over S.orZero ∧ t.Describes (some v) ∧ v.at? l = some w
  missing : t.occurs isNothing = false → t.occurs isAny = false → found.Describes none →
    ∃ v : Json, v.Over S.orZero ∧ t.Describes (some v) ∧ v.at? l = none

/-- The type found at a location is the image of a type under looking up the location. -/
theorem isImage_atLocation (ht : t.Built S) (l : Location) : IsImage S t (t.atLocation l) l where
  describes v hv h := describes_atLocation l ht.normal.over hv h
  reached hnothing w hw h := by
    have hle : ∀ n, S.Mem n → S.orZero.Mem n := fun _ => .inl
    obtain ⟨v, hv, hdescribes, hfound⟩ := reaches_atLocation S.exists_mem_orZero l
      (ht.normal.mono hle) (lacksInside_of_occurs_eq_false hnothing) (fun hnone => by cases hnone)
      (hw.mono hle).held h
    cases v with
    | none => cases hfound
    | some v => exact ⟨v, hv v rfl, hdescribes, hfound⟩
  missing hnothing hany h := by
    obtain ⟨v, hv, hdescribes, hfound⟩ := reaches_atLocation S.exists_mem_orZero l
      (ht.normal.mono fun _ => .inl) (lacksInside_of_occurs_eq_false hnothing)
      (fun _ => lacksInside_of_occurs_eq_false hany) Json.held_none h
    cases v with
    | none => exact absurd hdescribes (not_describes_none hnothing hany)
    | some v => exact ⟨v, hv v rfl, hdescribes, hfound⟩

/-- Texts, and objects with `sizes`, a text that a number and then truth values may follow. -/
def sized : DataType :=
  unionOf [ofObject [("sizes", ofArray [ofPrimitive .string, ofPrimitive .number]
    (ofPrimitive .boolean) 1)] bottom ["sizes"], ofPrimitive .string]

/-- The location of the number. -/
def secondSize : Location := [.name "sizes", .index 1]

theorem isImage_atLocation_sizes :
    sized.Built .whole ∧ IsImage .whole sized (sized.atLocation secondSize) secondSize ∧
      (∃ v : Json, v.Over NumberSet.whole.orZero ∧ sized.Describes (some v) ∧
        v.at? secondSize = some (.natural 3)) ∧
      ∃ v : Json, v.Over NumberSet.whole.orZero ∧ sized.Describes (some v) ∧
        v.at? secondSize = none := by
  have hsizes : ∀ t ∈ [ofPrimitive .string, ofPrimitive .number], t.Built .whole :=
    forall_mem_pair (.primitive _) (.primitive _)
  have hbuilt : sized.Built .whole :=
    .unionOf (forall_mem_pair (.ofObject _ (List.forall_mem_singleton.mpr
      (.ofArray 1 hsizes (.primitive _))) .bottom) (.primitive _))
  have hnothing : sized.occurs isNothing = false := by decide
  have hnumber : (Json.natural 3).Over .whole := .number ⟨3, by decide, rfl⟩
  have hnormal := (normal_closed .whole).atLocation secondSize hbuilt.normal
  have himage := isImage_atLocation hbuilt secondSize
  refine ⟨hbuilt, himage, himage.reached hnothing _ hnumber ?_,
    himage.missing hnothing (by decide) ?_⟩
  · exact ((standsFor_ofJson hnumber).describes_iff _ hnormal).mp (by decide)
  · exact (mayBeNothing_iff _).mp (by decide +kernel)

end DataType

end JsonPath
