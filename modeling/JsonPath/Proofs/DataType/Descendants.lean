import JsonPath.Proofs.DataType.Distinct
import JsonPath.Proofs.DataType.Image
import Mathlib.Data.Fintype.EquivFin

/-!
The types of all that is inside values. The children of a type describe what is one step inside its
values, and its descendants what is any number of steps inside, and nothing else. A value of a
child is put into a value of the type, as a property that is described, as a member of any other
name, or as an element, behind elements that are possible because the type is in normal form. The
descendants are given by a recursion on the children, which ends because a child has less depth
than its parent, also after the children have been united.
-/

namespace JsonPath

namespace Json

variable {v w u : Json}

/-- The second value is a member or an element of the first. -/
def IsChild (v w : Json) : Prop := ∃ step, v.child? step = some w

/-- The second value is strictly inside the first, at any depth. -/
def IsDescendant (v w : Json) : Prop := ∃ l ≠ [], v.at? l = some w

theorem IsChild.isDescendant (h : v.IsChild w) : v.IsDescendant w := by
  obtain ⟨step, hstep⟩ := h
  exact ⟨[step], List.cons_ne_nil _ _, Option.bind_eq_some_iff.mpr ⟨w, hstep, rfl⟩⟩

theorem IsChild.trans_isDescendant (h : v.IsChild u) (hw : u.IsDescendant w) :
    v.IsDescendant w := by
  obtain ⟨step, hstep⟩ := h
  obtain ⟨l, -, hl⟩ := hw
  exact ⟨step :: l, List.cons_ne_nil _ _, Option.bind_eq_some_iff.mpr ⟨u, hstep, hl⟩⟩

theorem reaches_of_at? {l : Location} (h : v.at? l = some w) : v.Reaches w := by
  induction l generalizing v with
  | nil =>
    cases h
    exact .here _
  | cons step tail ih =>
    obtain ⟨child, hchild, htail⟩ := Option.bind_eq_some_iff.mp h
    exact .child _ (mem_children_of_child? hchild) (ih htail)

end Json

namespace DataType

variable {S : NumberSet} {P : DataType → Prop} {f : DataType → DataType} {t u : DataType}
  {x : Option Json} {w : Json} {n : Nat}

section Members

theorem mapMembers_of_isUnion (h : t.isUnion = false) : mapMembers f t = f t := by
  cases t <;> first | rfl | cases h

/-- What a type is made into member by member describes comes from one of its members. -/
theorem exists_of_describes_mapMembers
    (hP : ∀ {ms notes}, P (.union ms notes) → ∀ m ∈ ms, P m)
    (hf : ∀ u : DataType, P u → (mapMembers f u).Normal S) (hx : Json.Held S x) (ht : P t)
    (h : (mapMembers f t).Describes x) :
    ∃ u : DataType, u.isUnion = false ∧ P u ∧ (f u).Describes x ∧
      ∀ v, u.Describes v → t.Describes v := by
  induction t using parts_induction with
  | union ms notes ih =>
    have hms : ∀ u ∈ ms.map (mapMembers f), u.Normal S :=
      List.forall_mem_map.mpr fun m hm => hf m (hP ht m hm)
    rw [mapMembers, mapEach_eq, (standsFor_ofValue? hx).describes_unionOf_iff hms] at h
    obtain ⟨u, hu, h⟩ := h
    obtain ⟨m, hm, rfl⟩ := List.mem_map.mp hu
    obtain ⟨u, hunion, hu, hdescribes, hsub⟩ := ih m hm (hP ht m hm) h
    exact ⟨u, hunion, hu, hdescribes, fun v hv => .union hm (hsub v hv)⟩
  | any | never | literal | primitive | object | array =>
    exact ⟨_, rfl, ht, h, fun _ => id⟩

end Members

section Populated

/-- A type in normal form without repeated names that does not speak of the absence of a value, so
that each of its parts has values to be found in it. -/
structure Populated (S : NumberSet) (t : DataType) : Prop where
  normal : t.Normal S
  distinct : t.Distinct
  present : t.occurs isNothing = false

theorem Populated.members {ms : List DataType} {notes : Annotations}
    (h : Populated S (.union ms notes)) (m : DataType) (hm : m ∈ ms) : m.Populated S where
  normal := h.normal.members m hm
  distinct := distinct_unionClosed.members h.distinct m hm
  present := occurs_union_eq_false_iff.mp h.present m hm

theorem Populated.memberChildren (h : t.Populated S) : (memberChildren t).Populated S where
  normal := (normal_closed S).memberChildren h.normal
  distinct := distinct_explored.memberChildren h.distinct
  present := by
    have hpresent := h.present
    cases t with
    | any | never | literal | primitive | union => rfl
    | object properties rest required notes =>
      obtain ⟨hprops, hrest⟩ := occurs_object_eq_false_iff.mp hpresent
      exact (occurs_unionClosed isNothing_unmade).unionOf (forall_mem_values
        (P := fun t => t.occurs isNothing = false) hprops hrest)
    | array front rest minimum notes =>
      obtain ⟨hfront, hrest⟩ := occurs_array_eq_false_iff.mp hpresent
      exact (occurs_unionClosed isNothing_unmade).unionOf
        (List.forall_mem_append.mpr ⟨hfront, List.forall_mem_singleton.mpr hrest⟩)

end Populated

section Children

theorem Reaches.exists_isChild {step : Step} (h : Reaches S t (Json.child? step) (some w)) :
    ∃ v : Json, v.Over S ∧ t.Describes (some v) ∧ v.IsChild w := by
  obtain ⟨v, hv, hdescribes, hchild⟩ := h
  cases v with
  | none => cases hchild
  | some v => exact ⟨v, hv v rfl, hdescribes, step, hchild⟩

theorem property_eq_of_mem {properties : Fields DataType} {p : String × DataType}
    (hnodup : properties.names.Nodup) (hp : p ∈ properties) (rest : DataType) :
    property properties rest p.1 = p.2 := by
  rw [property, Fields.get?_eq_some_of_mem hnodup hp]
  rfl

/-- A type that is described for members or for all further ones is that of a member. -/
theorem exists_property_eq {properties : Fields DataType} {rest : DataType}
    (hnodup : properties.names.Nodup) (hu : u ∈ properties.values ++ [rest]) :
    ∃ name, property properties rest name = u := by
  rcases List.mem_append.mp hu with hu | hu
  · obtain ⟨p, hp, rfl⟩ := List.mem_map.mp hu
    exact ⟨p.1, property_eq_of_mem hnodup hp rest⟩
  · obtain ⟨name, hname⟩ := Infinite.exists_notMem_finset properties.names.toFinset
    rw [List.mem_toFinset] at hname
    rw [List.mem_singleton.mp hu]
    exact ⟨name, property_of_not_mem hname rest⟩

theorem exists_element_eq {front : List DataType} {rest : DataType} (hu : u ∈ front ++ [rest]) :
    ∃ i, element front rest i = u := by
  rcases List.mem_append.mp hu with hu | hu
  · obtain ⟨i, hi⟩ := List.mem_iff_getElem?.mp hu
    refine ⟨i, ?_⟩
    rw [element, hi]
    rfl
  · rw [List.mem_singleton.mp hu]
    exact ⟨front.length, element_of_le (Nat.le_refl _) rest⟩

/-- Everything that is described as a child is a child of some value. -/
theorem Populated.exists_isChild (ht : t.Populated S) (hS : ∃ n, S.Mem n) (hw : w.Over S)
    (h : (DataType.memberChildren t).Describes (some w)) :
    ∃ v : Json, v.Over S ∧ t.Describes (some v) ∧ v.IsChild w := by
  have hstands := standsFor_ofJson hw
  cases t with
  | never | literal | primitive | union => cases h
  | any =>
    obtain ⟨v, hv, hchild⟩ := Json.exists_child (.index 0) hw
    exact ⟨v, hv, .any, _, hchild⟩
  | object properties rest required notes =>
    cases ht.distinct with
    | object hnodup _ _ =>
    have hnormal : ∀ u ∈ Fields.values properties ++ [rest], u.Normal S :=
      forall_mem_values ((normal_closed S).properties ht.normal)
        ((normal_closed S).others ht.normal)
    rw [DataType.memberChildren, hstands.describes_unionOf_iff hnormal] at h
    obtain ⟨u, hu, h⟩ := h
    obtain ⟨name, rfl⟩ := exists_property_eq hnodup hu
    exact (reaches_member hS ht.normal ht.present hw h).exists_isChild
  | array front rest minimum notes =>
    have hnormal : ∀ u ∈ front ++ [rest], u.Normal S :=
      List.forall_mem_append.mpr ⟨(normal_closed S).front ht.normal,
        List.forall_mem_singleton.mpr ((normal_closed S).further ht.normal)⟩
    rw [DataType.memberChildren, hstands.describes_unionOf_iff hnormal] at h
    obtain ⟨u, hu, h⟩ := h
    obtain ⟨i, rfl⟩ := exists_element_eq hu
    exact (reaches_item hS ht.normal ht.present hw h).exists_isChild

theorem Populated.exists_isChild_of_children (ht : t.Populated S) (hS : ∃ n, S.Mem n)
    (hw : w.Over S) (h : t.children.Describes (some w)) :
    ∃ v : Json, v.Over S ∧ t.Describes (some v) ∧ v.IsChild w := by
  obtain ⟨u, -, hu, hdescribes, hsub⟩ := exists_of_describes_mapMembers Populated.members
    (fun _ hu => (normal_closed S).children hu.normal) hw.held ht h
  obtain ⟨v, hv, hv', hchild⟩ := hu.exists_isChild hS hw hdescribes
  exact ⟨v, hv, hsub _ hv', hchild⟩

end Children

section Descendants

/-- Everything that is described as a descendant within some levels is strictly inside some
value. -/
theorem Populated.exists_isDescendant (ht : t.Populated S) (hS : ∃ n, S.Mem n) (hw : w.Over S)
    (h : (DataType.descendantsWithin n t).Describes (some w)) :
    ∃ v : Json, v.Over S ∧ t.Describes (some v) ∧ v.IsDescendant w := by
  have hthrough {u : DataType} (hu : u.Populated S)
      (h : (DataType.memberChildren u).Describes (some w)) :
      ∃ v : Json, v.Over S ∧ u.Describes (some v) ∧ v.IsDescendant w := by
    obtain ⟨v, hv, hdescribes, hchild⟩ := hu.exists_isChild hS hw h
    exact ⟨v, hv, hdescribes, hchild.isDescendant⟩
  induction n generalizing t with
  | zero =>
    obtain ⟨u, -, hu, hdescribes, hsub⟩ := exists_of_describes_mapMembers Populated.members
      (fun _ hu => (normal_closed S).descendantsWithin 0 hu.normal) hw.held ht h
    cases u with
    | any =>
      obtain ⟨v, hv, hv', hinside⟩ := hthrough hu .any
      exact ⟨v, hv, hsub _ hv', hinside⟩
    | never | literal | primitive | object | array | union => cases hdescribes
  | succ n ih =>
    obtain ⟨u, -, hu, hdescribes, hsub⟩ := exists_of_describes_mapMembers Populated.members
      (fun _ hu => (normal_closed S).descendantsWithin (n + 1) hu.normal) hw.held ht h
    suffices hfound : ∃ v : Json, v.Over S ∧ u.Describes (some v) ∧ v.IsDescendant w by
      obtain ⟨v, hv, hv', hinside⟩ := hfound
      exact ⟨v, hv, hsub _ hv', hinside⟩
    have hchildren := hu.memberChildren
    split at hdescribes
    · rename_i hany
      obtain ⟨notes, rfl⟩ := isAny_eq_true hany
      exact hthrough hu .any
    · dsimp only at hdescribes
      split at hdescribes
      · exact hthrough hu hdescribes
      · rw [(standsFor_ofJson hw).describes_unionOf_pair_iff hchildren.normal
          ((normal_closed S).descendantsWithin n hchildren.normal)] at hdescribes
        rcases hdescribes with hdescribes | hdescribes
        · exact hthrough hu hdescribes
        · obtain ⟨u', hu', hdescribes', hinside⟩ := ih hchildren hdescribes
          obtain ⟨v, hv, hv', hchild⟩ := hu.exists_isChild hS hu' hdescribes'
          exact ⟨v, hv, hv', hchild.trans_isDescendant hinside⟩

end Descendants

section Termination

/-- The recursion that gives the descendants of a type, as far as it goes: of everything all, of a
union those of its members, and of other types the children and what is inside these, if there are
any. -/
inductive DescendantsAre : DataType → DataType → Prop
  | any {notes : Annotations} : DescendantsAre (.any notes) top
  | union {ms : List DataType} {notes : Annotations} (g : DataType → DataType)
      (each : ∀ m ∈ ms, DescendantsAre m (g m)) :
      DescendantsAre (.union ms notes) (unionOf (ms.map g))
  | childless {t : DataType} (any : t.isAny = false) (union : t.isUnion = false)
      (never : (memberChildren t).isNever = true) : DescendantsAre t (memberChildren t)
  | deeper {t below : DataType} (any : t.isAny = false) (union : t.isUnion = false)
      (never : (memberChildren t).isNever = false)
      (inside : DescendantsAre (memberChildren t) below) :
      DescendantsAre t (unionOf [memberChildren t, below])

/-- The recursion does not go deeper than the type describes the inside of its values. -/
theorem descendantsAre_descendantsWithin (h : t.depth ≤ n) :
    DescendantsAre t (descendantsWithin n t) := by
  induction n generalizing t with
  | zero =>
    induction t using parts_induction with
    | any => exact .any
    | union ms notes ih =>
      rw [descendantsWithin, mapMembers, mapEach_eq]
      exact .union _ fun m hm => ih m hm (depthEach_le.mp h m hm)
    | never | literal | primitive => exact .childless rfl rfl rfl
    | object | array =>
      rw [depth] at h
      omega
  | succ n ih =>
    have hlevel (u : DataType) (hany : u.isAny = false) (hunion : u.isUnion = false)
        (hu : u.depth ≤ n + 1) : DescendantsAre u (descendantsWithin (n + 1) u) := by
      have hinside := ih (depth_memberChildren_le hu)
      rw [descendantsWithin, mapMembers_of_isUnion hunion, hany, if_neg Bool.false_ne_true]
      dsimp only
      split
      · rename_i hnever
        exact .childless hany hunion hnever
      · rename_i hnever
        exact .deeper hany hunion (eq_false_of_ne_true hnever) hinside
    induction t using parts_induction with
    | any => exact .any
    | union ms notes ih' =>
      rw [descendantsWithin, mapMembers, mapEach_eq]
      exact .union _ fun m hm => ih' m hm (depthEach_le.mp h m hm)
    | never | literal | primitive | object | array => exact hlevel _ rfl rfl h

theorem DescendantsAre.eq {a b : DataType} (ha : DescendantsAre t a) (hb : DescendantsAre t b) :
    a = b := by
  induction ha generalizing b with
  | any =>
    cases hb with
    | any => rfl
    | childless hany => cases hany
    | deeper hany => cases hany
  | @union ms notes g _ ih =>
    generalize ht : DataType.union ms notes = t at hb
    cases hb with
    | any => cases ht
    | union g' hg' =>
      cases ht
      exact congrArg unionOf (List.map_congr_left fun m hm => ih m hm (hg' m hm))
    | childless _ hunion => subst ht; cases hunion
    | deeper _ hunion => subst ht; cases hunion
  | childless hany hunion hnever =>
    cases hb with
    | any => cases hany
    | union => cases hunion
    | childless => rfl
    | deeper _ _ hnever' => rw [hnever] at hnever'; cases hnever'
  | deeper hany hunion hnever _ ih =>
    cases hb with
    | any => cases hany
    | union => cases hunion
    | childless _ _ hnever' => rw [hnever] at hnever'; cases hnever'
    | deeper _ _ _ hinside => rw [ih hinside]

/-- The recursion ends on every type, with the descendants of the type. -/
theorem descendantsAre_iff : DescendantsAre t u ↔ u = t.descendants := by
  have hends := descendantsAre_descendantsWithin (Nat.le_refl t.depth)
  constructor
  · exact fun h => h.eq hends
  · rintro rfl
    exact hends

end Termination

section Interior

/-- The second type describes what lies inside the values of the first in the given sense. Every
value that it describes does lie in one of them if the first type nowhere speaks of the absence of
a value. -/
structure IsInterior (S : NumberSet) (t found : DataType) (inside : Json → Json → Prop) : Prop where
  describes : ∀ v w : Json, v.Over S → t.Describes (some v) → inside v w → found.Describes (some w)
  reached : t.occurs isNothing = false → ∀ w : Json, w.Over S → found.Describes (some w) →
    ∃ v : Json, v.Over S.orZero ∧ t.Describes (some v) ∧ inside v w

/-- A built type without repeated names is populated if it does not speak of the absence of a
value, and stays so if there are more numbers. -/
theorem Built.populated (ht : t.Built S) (hdistinct : t.Distinct)
    (hnothing : t.occurs isNothing = false) : t.Populated S.orZero :=
  ⟨ht.normal.mono fun _ => .inl, hdistinct, hnothing⟩

/-- The children and the descendants of a type are just the values that its values have inside, and
the recursion that gives the descendants ends. -/
theorem isInterior_children_descendants (ht : t.Built S) (hdistinct : t.Distinct) :
    IsInterior S t t.children Json.IsChild ∧ IsInterior S t t.descendants Json.IsDescendant ∧
      ∀ u, DescendantsAre t u ↔ u = t.descendants := by
  have hover := ht.normal.over
  have hle : ∀ n, S.Mem n → S.orZero.Mem n := fun _ => .inl
  refine ⟨⟨?_, ?_⟩, ⟨?_, ?_⟩, fun u => descendantsAre_iff⟩
  · rintro v w hv h ⟨step, hstep⟩
    exact describes_children hover hv hstep h
  · intro hnothing w hw h
    exact (ht.populated hdistinct hnothing).exists_isChild_of_children S.exists_mem_orZero
      (hw.mono hle) h
  · rintro v w hv h ⟨l, hl, hw⟩
    obtain ⟨step, tail, rfl⟩ := List.exists_cons_of_ne_nil hl
    obtain ⟨child, hchild, htail⟩ := Option.bind_eq_some_iff.mp hw
    exact describes_descendantsWithin hover (Nat.le_refl _) hv h hchild
      (Json.reaches_of_at? htail)
  · intro hnothing w hw h
    exact (ht.populated hdistinct hnothing).exists_isDescendant S.exists_mem_orZero
      (hw.mono hle) h

/-- Objects with lists of numbers, or of lists of truth values behind a first text, under `lists`,
and with texts under all other names. -/
def listed : DataType :=
  ofObject [("lists", unionOf [arrayOf (ofPrimitive .number),
    ofArray [ofPrimitive .string] (arrayOf (ofPrimitive .boolean)) 1])] (ofPrimitive .string) []

theorem isInterior_listed :
    listed.Built .whole ∧ listed.Distinct ∧
      IsInterior .whole listed listed.children Json.IsChild ∧
      IsInterior .whole listed listed.descendants Json.IsDescendant ∧
      (∃ v : Json, v.Over NumberSet.whole.orZero ∧ listed.Describes (some v) ∧
        v.IsChild (.string "x")) ∧
      ∃ v : Json, v.Over NumberSet.whole.orZero ∧ listed.Describes (some v) ∧
        v.IsDescendant (.bool true) := by
  have hnumbers : (arrayOf (ofPrimitive .number)).Built .whole :=
    .ofArray 0 (List.forall_mem_nil _) (.primitive _)
  have htruths : (arrayOf (ofPrimitive .boolean)).Built .whole :=
    .ofArray 0 (List.forall_mem_nil _) (.primitive _)
  have hmixed : (ofArray [ofPrimitive .string] (arrayOf (ofPrimitive .boolean)) 1).Built .whole :=
    .ofArray 1 (List.forall_mem_singleton.mpr (.primitive _)) htruths
  have hbuilt : listed.Built .whole :=
    .ofObject _ (List.forall_mem_singleton.mpr (.unionOf (forall_mem_pair hnumbers hmixed)))
      (.primitive _)
  have htruths' : (arrayOf (ofPrimitive .boolean)).Distinct :=
    distinct_ofArray 0 (List.forall_mem_nil _) .primitive
  have hdistinct : listed.Distinct :=
    distinct_ofObject _ (List.nodup_singleton _) (List.forall_mem_singleton.mpr
      (distinct_unionClosed.unionOf (forall_mem_pair
        (distinct_ofArray 0 (List.forall_mem_nil _) .primitive)
        (distinct_ofArray 1 (List.forall_mem_singleton.mpr .primitive) htruths')))) .primitive
  have hnothing : listed.occurs isNothing = false := by decide
  have hchildrenNormal := (normal_closed .whole).children hbuilt.normal
  have hdescendantsNormal := (normal_closed .whole).descendants hbuilt.normal
  obtain ⟨hchildren, hdescendants, -⟩ := isInterior_children_descendants hbuilt hdistinct
  refine ⟨hbuilt, hdistinct, hchildren, hdescendants,
    hchildren.reached hnothing _ (.string "x") ?_, hdescendants.reached hnothing _ (.bool true) ?_⟩
  · exact hchildrenNormal.describes_of_ofJson (.string "x") (by decide)
  · exact hdescendantsNormal.describes_of_ofJson (.bool true) (by decide +kernel)

end Interior

end DataType

end JsonPath
