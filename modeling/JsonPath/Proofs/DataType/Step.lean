import JsonPath.Proofs.DataType.Algebra
import JsonPath.Proofs.DataType.Closed
import JsonPath.Proofs.Evaluation.Trace
import JsonPath.Proofs.Json.Locations
import JsonPath.Typing

/-!
Types of what is inside. The type one step inside a type describes what is found one step inside
its values, and the descendants of a type describe everything that is strictly inside, however
deep, since a child has less depth than its parent.
-/

namespace JsonPath

namespace Json

variable {S : NumberSet} {v w : Json}

theorem Over.child? {step : Step} (hv : v.Over S) (h : v.child? step = some w) : w.Over S := by
  cases hv with
  | array hitems =>
    cases step with
    | index => exact hitems w (List.mem_of_getElem? h)
    | name => cases h
  | object _ hmembers =>
    cases step with
    | index => cases h
    | name => exact hmembers _ (Fields.mem_of_get?_eq_some h)
  | null | bool | number | string => cases h

theorem child?_of_isScalar (h : v.IsScalar) (step : Step) : v.child? step = none := by
  cases v with
  | array | object => exact h.elim
  | null | bool | number | string => rfl

theorem Over.at? {l : Location} (hv : v.Over S) (h : v.at? l = some w) : w.Over S := by
  induction l generalizing v with
  | nil =>
    cases h
    exact hv
  | cons step tail ih =>
    obtain ⟨child, hchild, htail⟩ := Option.bind_eq_some_iff.mp h
    exact ih (hv.child? hchild) htail

/-- To follow a location is to follow its first step and then the others. -/
theorem bind_at?_cons (v : Option Json) (step : Step) (l : Location) :
    (v.bind fun w => w.at? (step :: l)) =
      (v.bind fun w => w.child? step).bind fun w => w.at? l := by
  cases v <;> rfl

theorem Held.bind_child? {v : Option Json} (hv : Held S v) (step : Step) :
    Held S (v.bind fun w => w.child? step) := by
  intro w hw
  obtain ⟨u, hu, hchild⟩ := Option.bind_eq_some_iff.mp hw
  exact (hv u hu).child? hchild

/-- Each child is found at the step that goes with it. -/
theorem Over.child?_of_mem_children {below : Step × Json} (hv : v.Over S)
    (h : below ∈ v.children) : v.child? below.1 = some below.2 :=
  hv.wellFormed.mem_children_iff.mp h

theorem Over.reaches (hv : v.Over S) (h : v.Reaches w) : w.Over S := by
  induction h with
  | here => exact hv
  | child below mem _ ih => exact ih (hv.child? (hv.child?_of_mem_children mem))

end Json

theorem Primitive.isScalar_of_eq_some {v : Json} {kind : Primitive}
    (h : Primitive.of? v = some kind) : v.IsScalar := by
  cases v with
  | array | object => cases h
  | null | bool | number | string => trivial

namespace DataType

variable {S : NumberSet} {P : DataType → Prop} {f : DataType → DataType} {t u : DataType}

section Members

theorem over_mapMembers (hP : UnionClosed P)
    (hf : ∀ u : DataType, u.isUnion = false → P u → (f u).Over S) (t : DataType) (ht : P t) :
    (mapMembers f t).Over S := by
  induction t using parts_induction with
  | union ms notes ih =>
    rw [mapMembers, mapEach_eq]
    apply over_unionOf
    intro t' ht'
    obtain ⟨m, hm, rfl⟩ := List.mem_map.mp ht'
    exact ih m hm (hP.members ht m hm)
  | any | never | literal | primitive | object | array => exact hf _ rfl ht

/-- What `f` makes of the member that describes a value decides what its union describes. -/
theorem describes_mapMembers {v w : Option Json} (hP : UnionClosed P)
    (hover : ∀ u : DataType, u.isUnion = false → P u → (f u).Over S)
    (hf : ∀ u : DataType, u.isUnion = false → P u → u.Describes v → (f u).Describes w)
    (hw : Json.Held S w) (t : DataType) (ht : P t) (h : t.Describes v) :
    (mapMembers f t).Describes w := by
  induction t using parts_induction with
  | union ms notes ih =>
    cases h with
    | @union _ _ m _ hm hdescribes =>
      rw [mapMembers, mapEach_eq]
      refine describes_unionOf ?_ hw (List.mem_map_of_mem hm)
        (ih m hm (hP.members ht m hm) hdescribes)
      intro t' ht'
      obtain ⟨m', hm', rfl⟩ := List.mem_map.mp ht'
      exact over_mapMembers hP hover m' (hP.members ht m' hm')
  | any | never | literal | primitive | object | array => exact hf _ rfl ht h

end Members

section Steps

variable {v w : Json} {step : Step}

/-- A type describes one step inside what a value has there. -/
theorem describes_memberAt (hunion : t.isUnion = false) (ht : t.Over S) (hv : v.Over S)
    (h : t.Describes (some v)) : (memberAt step t).Describes (v.child? step) := by
  cases h with
  | any => exact .any
  | literal hsame =>
    cases ht with
    | literal hscalar =>
      rw [Json.child?_of_isScalar (Json.isScalar_of_same hsame hscalar)]
      exact .nothing
  | primitive hkind =>
    rw [Json.child?_of_isScalar (Primitive.isScalar_of_eq_some hkind)]
    exact .nothing
  | @object properties rest required _ members hpresent heach =>
    cases step with
    | index => exact .nothing
    | name name =>
      cases ht with
      | object hprops hrest =>
      have hproperty := Over.property hprops hrest name
      simp only [memberAt, Json.child?]
      cases hchild : Fields.get? members name with
      | some w =>
        have hdescribes := heach name w hchild
        split
        · exact hdescribes
        · have hstep : Json.child? (.name name) (.object members) = some w := hchild
          have hw : Json.Held S (some w) := (hv.child? hstep).held
          exact describes_unionOf_pair hproperty .primitive hw (.inl hdescribes)
      | none =>
        split
        · rename_i hrequired
          obtain ⟨w, hw⟩ := hpresent name (by simpa using hrequired)
          rw [hchild] at hw
          cases hw
        · exact describes_unionOf_pair hproperty .primitive Json.held_none (.inr .nothing)
  | @array front rest minimum _ items henough heach =>
    cases step with
    | name => exact .nothing
    | index i =>
      cases ht with
      | array hfront hrest =>
      have helement := Over.element hfront hrest i
      simp only [memberAt, Json.child?]
      cases hchild : items[i]? with
      | some w =>
        have hdescribes := heach i w hchild
        split
        · exact hdescribes
        · have hstep : Json.child? (.index i) (.array items) = some w := hchild
          have hw : Json.Held S (some w) := (hv.child? hstep).held
          exact describes_unionOf_pair helement .primitive hw (.inl hdescribes)
      | none =>
        split
        · rename_i hlt
          have hle := List.getElem?_eq_none_iff.mp hchild
          omega
        · exact describes_unionOf_pair helement .primitive Json.held_none (.inr .nothing)
  | union => cases hunion

theorem describes_atStep (step : Step) (ht : t.Over S) (hv : v.Over S) (h : t.Describes (some v)) :
    (t.atStep step).Describes (v.child? step) := by
  refine describes_mapMembers over_unionClosed (fun _ _ => (over_closed S).memberAt step) ?_ ?_ t
    ht h
  · intro u hunion hu hdescribes
    exact describes_memberAt hunion hu hv hdescribes
  · intro w hw
    exact hv.child? hw

/-- Only the absence of a value is taken from a type. -/
theorem describes_present (ht : t.Over S) (hv : v.Over S) (h : t.Describes (some v)) :
    t.present.Describes (some v) := by
  refine (leaves_subtract t ht .primitive).2 _ hv.held h ?_
  intro hnothing
  cases hnothing with
  | primitive hkind => cases v <;> cases hkind

end Steps

section Children

variable {v w : Json} {step : Step}

/-- The types of all members of an object, named or not. -/
theorem forall_mem_values {properties : List (String × DataType)} {rest : DataType}
    (hprops : ∀ p ∈ properties, P p.2) (hrest : P rest) :
    ∀ u ∈ Fields.values properties ++ [rest], P u := by
  refine List.forall_mem_append.mpr ⟨?_, List.forall_mem_singleton.mpr hrest⟩
  intro u hu
  obtain ⟨p, hp, rfl⟩ := List.mem_map.mp hu
  exact hprops p hp

theorem property_mem_values (properties : Fields DataType) (rest : DataType) (name : String) :
    property properties rest name ∈ properties.values ++ [rest] := by
  rcases property_eq properties rest name with ⟨p, hp, heq⟩ | heq <;> rw [heq]
  · exact List.mem_append_left _ (List.mem_map.mpr ⟨p, hp, rfl⟩)
  · exact List.mem_append_right _ List.mem_cons_self

theorem element_mem (front : List DataType) (rest : DataType) (i : Nat) :
    element front rest i ∈ front ++ [rest] := by
  rcases element_eq front rest i with hmem | heq
  · exact List.mem_append_left _ hmem
  · rw [heq]
    exact List.mem_append_right _ List.mem_cons_self

/-- The children of a type describe what its values have one step inside. -/
theorem describes_memberChildren (hunion : t.isUnion = false) (ht : t.Over S) (hv : v.Over S)
    (hw : v.child? step = some w) (h : t.Describes (some v)) :
    (memberChildren t).Describes (some w) := by
  have hheld := (hv.child? hw).held
  cases h with
  | any => exact .any
  | literal hsame =>
    cases ht with
    | literal hscalar =>
      rw [Json.child?_of_isScalar (Json.isScalar_of_same hsame hscalar)] at hw
      cases hw
  | primitive hkind =>
    rw [Json.child?_of_isScalar (Primitive.isScalar_of_eq_some hkind)] at hw
    cases hw
  | @object properties rest required _ members hpresent heach =>
    cases step with
    | index => cases hw
    | name name =>
      cases ht with
      | object hprops hrest =>
      exact describes_unionOf (forall_mem_values hprops hrest) hheld
        (property_mem_values properties rest name) (heach name w hw)
  | @array front rest minimum _ items henough heach =>
    cases step with
    | name => cases hw
    | index i =>
      cases ht with
      | array hfront hrest =>
      exact describes_unionOf
        (List.forall_mem_append.mpr ⟨hfront, List.forall_mem_singleton.mpr hrest⟩) hheld
        (element_mem front rest i) (heach i w hw)
  | union => cases hunion

theorem describes_children (ht : t.Over S) (hv : v.Over S) (hw : v.child? step = some w)
    (h : t.Describes (some v)) : t.children.Describes (some w) := by
  refine describes_mapMembers over_unionClosed (fun _ _ => (over_closed S).memberChildren) ?_
    (hv.child? hw).held t ht h
  intro u hunion hu hdescribes
  exact describes_memberChildren hunion hu hv hw hdescribes

/-- The elements of a type describe the items of its arrays. -/
theorem describes_elements {items : List Json} (ht : t.Over S) (hv : (Json.array items).Over S)
    (hw : w ∈ items) (h : t.Describes (some (.array items))) :
    t.elements.Describes (some w) := by
  obtain ⟨i, hi, rfl⟩ := List.getElem_of_mem hw
  have hchild : (Json.array items).child? (.index i) = some items[i] :=
    List.getElem?_eq_getElem hi
  refine describes_mapMembers over_unionClosed ?_ ?_ (hv.child? hchild).held t ht h
  · intro u _ hu
    cases u with
    | any => exact .any
    | array => exact (over_closed S).memberChildren hu
    | never | literal | primitive | object | union => exact .never
  · intro u hunion hu hdescribes
    cases hany : u.isAny with
    | true =>
      obtain ⟨notes, rfl⟩ := isAny_eq_true hany
      exact .any
    | false =>
      obtain ⟨front, rest, minimum, notes, rfl⟩ := hdescribes.eq_array hu hunion hany
      exact describes_memberChildren hunion hu hv hchild hdescribes

end Children

section Descendants

variable {v w : Json} {n : Nat}

theorem depthEach_le {ts : List DataType} : depthEach ts ≤ n ↔ ∀ t ∈ ts, t.depth ≤ n := by
  induction ts with
  | nil => simp [depthEach]
  | cons t rest ih => rw [depthEach, Nat.max_le, ih, List.forall_mem_cons]

theorem depthProperties_le {properties : List (String × DataType)} :
    depthProperties properties ≤ n ↔ ∀ p ∈ properties, p.2.depth ≤ n := by
  induction properties with
  | nil => simp [depthProperties]
  | cons p rest ih =>
    obtain ⟨name, t⟩ := p
    rw [depthProperties, Nat.max_le, ih, List.forall_mem_cons]

theorem depth_mergeNotes (t u : DataType) : (t.mergeNotes u).depth = t.depth := by
  unfold mergeNotes
  split
  · rfl
  · cases t <;> rfl

/-- The depth of a union is that of its deepest member. -/
theorem depth_unionClosed (n : Nat) : UnionClosed fun t => t.depth ≤ n where
  members h := depthEach_le.mp h
  union h := depthEach_le.mpr h
  boolean := Nat.zero_le n
  bottom := Nat.zero_le n
  mergeNotes h := by
    rw [depth_mergeNotes]
    exact h

theorem UnionClosed.and {Q : DataType → Prop} (hP : UnionClosed P) (hQ : UnionClosed Q) :
    UnionClosed fun t => P t ∧ Q t where
  members h t ht := ⟨hP.members h.1 t ht, hQ.members h.2 t ht⟩
  union h := ⟨hP.union fun t ht => (h t ht).1, hQ.union fun t ht => (h t ht).2⟩
  boolean := ⟨hP.boolean, hQ.boolean⟩
  bottom := ⟨hP.bottom, hQ.bottom⟩
  mergeNotes h := ⟨hP.mergeNotes h.1, hQ.mergeNotes h.2⟩

/-- A child has less depth than its parent. -/
theorem depth_memberChildren_le (h : t.depth ≤ n + 1) : (memberChildren t).depth ≤ n := by
  cases t with
  | object properties rest required notes =>
    rw [depth] at h
    have hmax : max (depthProperties properties) rest.depth ≤ n := by omega
    obtain ⟨hprops, hrest⟩ := Nat.max_le.mp hmax
    apply (depth_unionClosed n).unionOf
    exact forall_mem_values (P := fun t => t.depth ≤ n) (depthProperties_le.mp hprops) hrest
  | array front rest minimum notes =>
    rw [depth] at h
    have hmax : max (depthEach front) rest.depth ≤ n := by omega
    obtain ⟨hfront, hrest⟩ := Nat.max_le.mp hmax
    exact (depth_unionClosed n).unionOf
      (List.forall_mem_append.mpr ⟨depthEach_le.mp hfront, List.forall_mem_singleton.mpr hrest⟩)
  | any | never | literal | primitive | union => exact Nat.zero_le n

theorem over_bottomLevel : (if u.isAny then top else bottom).Over S := by
  split
  · exact .any
  · exact .never

theorem over_level (hu : u.Over S) (hf : ∀ t : DataType, t.Over S → (f t).Over S) :
    (if u.isAny then top
      else
        let inside := memberChildren u
        if inside.isNever then inside else unionOf [inside, f inside]).Over S := by
  have hinside := (over_closed S).memberChildren hu
  split
  · exact .any
  · dsimp only
    split
    · exact hinside
    · exact over_unionOf_pair hinside (hf _ hinside)

/-- As many levels as a type is deep are enough to describe everything inside its values. -/
theorem describes_descendantsWithin {child : Json} (ht : t.Over S) (hdepth : t.depth ≤ n)
    (hv : v.Over S) (h : t.Describes (some v)) (hchild : v.child? step = some child)
    (hw : child.Reaches w) : (descendantsWithin n t).Describes (some w) := by
  induction n generalizing t v child step with
  | zero =>
    have hclosed := (over_unionClosed (S := S)).and (depth_unionClosed 0)
    have hheld := ((hv.child? hchild).reaches hw).held
    refine describes_mapMembers hclosed (fun _ _ _ => over_bottomLevel) ?_ hheld t ⟨ht, hdepth⟩ h
    intro u hunion hu hdescribes
    have hinside := describes_memberChildren hunion hu.1 hv hchild hdescribes
    cases u with
    | any => exact .any
    | object | array =>
      have hpositive := hu.2
      rw [depth] at hpositive
      omega
    | never | literal | primitive | union => cases hinside
  | succ n ih =>
    have hclosed := (over_unionClosed (S := S)).and (depth_unionClosed (n + 1))
    have hchildOver := hv.child? hchild
    have hheld := (hchildOver.reaches hw).held
    refine describes_mapMembers hclosed
      (fun _ _ hu => over_level hu.1 fun _ => (over_closed S).descendantsWithin n) ?_ hheld t
      ⟨ht, hdepth⟩ h
    intro u hunion hu hdescribes
    have hinside := describes_memberChildren hunion hu.1 hv hchild hdescribes
    split
    · exact .any
    · dsimp only
      split
      · rename_i hnever
        rw [hinside.isNever] at hnever
        cases hnever
      · have hover := (over_closed S).memberChildren hu.1
        refine describes_unionOf_pair hover ((over_closed S).descendantsWithin n hover) hheld ?_
        cases hw with
        | here => exact .inl hinside
        | child below hmem hrest =>
          have hbelow := hchildOver.child?_of_mem_children hmem
          exact .inr (ih hover (depth_memberChildren_le hu.2) hchildOver hinside hbelow hrest)

/-- What a value reaches is the value itself or one of the descendants of its type. -/
theorem describes_reaches (ht : t.Over S) (hv : v.Over S) (h : t.Describes (some v))
    (hw : v.Reaches w) : (unionOf [t, t.descendants]).Describes (some w) := by
  refine describes_unionOf_pair ht ((over_closed S).descendants ht) (hv.reaches hw).held ?_
  cases hw with
  | here => exact .inl h
  | child below hmem hrest =>
    have hbelow := hv.child?_of_mem_children hmem
    exact .inr (describes_descendantsWithin ht (Nat.le_refl _) hv h hbelow hrest)

end Descendants

end DataType

end JsonPath
