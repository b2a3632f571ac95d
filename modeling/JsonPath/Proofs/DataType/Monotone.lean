import JsonPath.Proofs.DataType.Descendants
import JsonPath.Proofs.DataType.Difference

/-!
What is found inside a type grows with the type. This holds of one step, of the children and of the
descendants, for types in normal form and the subtype test. One step inside is looked at member by
member, and it is enough to compare atoms: an atom that is a subtype of another has its shape,
unless the other is everything. The descendants are the least type that has the children of the
type and its own children, and so grow as the children do.
-/

namespace JsonPath.DataType

variable {S : NumberSet} {f : DataType → DataType} {a b d t u w : DataType} {ts : List DataType}

section Atoms

/-- The values of the type have nothing inside. -/
def isFlat : DataType → Bool
  | literal _ _ | primitive _ _ => true
  | _ => false

theorem isFlat_of_isSubtypeOf (hatom : a.isAtom = true) (hb : b.isFlat = true)
    (h : a.isSubtypeOf b = true) : a.isFlat = true := by
  cases a with
  | literal | primitive => rfl
  | any | object | array =>
    cases b with
    | literal | primitive => cases h
    | any | never | object | array | union => cases hb
  | never | union => cases hatom

/-- The type is in normal form and describes no property twice. -/
def Tidy (S : NumberSet) (t : DataType) : Prop := t.Normal S ∧ t.Distinct

theorem tidy_explored (S : NumberSet) : Explored (Tidy S) :=
  (normal_closed S).toExplored.and distinct_explored

theorem Distinct.atoms (h : t.Distinct) : ∀ a ∈ t.atoms, a.Distinct := by
  have hparts {u : DataType} (hu : u.Distinct) : ∀ a ∈ u.parts, a.Distinct := by
    have htruth (b : Bool) : (ofBool b).Distinct := .literal trivial
    cases u with
    | never => exact List.forall_mem_nil _
    | primitive kind notes =>
      cases kind with
      | boolean => exact forall_mem_pair (htruth true) (htruth false)
      | number | string | null | nothing => exact List.forall_mem_singleton.mpr hu
    | any | literal | object | array | union => exact List.forall_mem_singleton.mpr hu
  cases t with
  | union ms notes =>
    rw [DataType.atoms, List.forall_mem_flatMap]
    exact fun m hm => hparts (distinct_unionClosed.members h m hm)
  | any | never | literal | primitive | object | array => exact hparts h

theorem Tidy.atoms (h : t.Tidy S) : ∀ a ∈ t.atoms, a.Tidy S ∧ a.isAtom = true := by
  intro a ha
  obtain ⟨hnormal, hatom⟩ := h.1.atoms a ha
  exact ⟨⟨hnormal, h.2.atoms a ha⟩, hatom⟩

end Atoms

/-- The function gives what is found inside the values of types other than unions, and more of it
for larger types. -/
structure Inward (S : NumberSet) (f : DataType → DataType) : Prop where
  normal : ∀ t : DataType, t.Normal S → (f t).Normal S
  any : ∀ notes, (f (.any notes)).isAny = true
  never : ∀ notes, (f (.never notes)).isNever = true
  flat : ∃ inside, ∀ t : DataType, t.isFlat = true → f t = inside
  object : ∀ {properties properties' rest rest' required required' notes notes'},
    (DataType.object properties rest required notes).Normal S →
    (DataType.object properties' rest' required' notes').Normal S →
    (Fields.names properties).Nodup →
    (DataType.object properties rest required notes).isSubtypeOf
      (.object properties' rest' required' notes') = true →
    (f (.object properties rest required notes)).isSubtypeOf
      (f (.object properties' rest' required' notes')) = true
  array : ∀ {front front' rest rest' minimum minimum' notes notes'},
    (DataType.array front rest minimum notes).Normal S →
    (DataType.array front' rest' minimum' notes').Normal S →
    (DataType.array front rest minimum notes).isSubtypeOf
      (.array front' rest' minimum' notes') = true →
    (f (.array front rest minimum notes)).isSubtypeOf
      (f (.array front' rest' minimum' notes')) = true

namespace Inward

theorem mapMembers_normal (hf : Inward S f) (ht : t.Normal S) : (mapMembers f t).Normal S :=
  (normal_closed S).mapMembers (fun u _ => hf.normal u) t ht

/-- Atoms have no more inside than the atoms that they are subtypes of. -/
theorem mono_of_isAtom (hf : Inward S f) (ha : a.Tidy S) (hatom : a.isAtom = true)
    (hb : b.Normal S) (hatom' : b.isAtom = true) (h : a.isSubtypeOf b = true) :
    (f a).isSubtypeOf (f b) = true := by
  have hflat (hflat : b.isFlat = true) : (f a).isSubtypeOf (f b) = true := by
    obtain ⟨inside, hinside⟩ := hf.flat
    rw [hinside a (isFlat_of_isSubtypeOf hatom hflat h), ← hinside b hflat]
    exact isSubtypeOf_refl (hf.normal b hb)
  cases b with
  | any notes =>
    obtain ⟨notes', hany⟩ := isAny_eq_true (hf.any notes)
    rw [hany]
    exact isSubtypeOf_any _ _
  | literal | primitive => exact hflat rfl
  | object =>
    obtain ⟨properties, rest, required, notes, rfl⟩ := eq_object_of_isSubtypeOf hatom h
    cases ha.2 with
    | object hnodup _ _ => exact hf.object ha.1 hb hnodup h
  | array =>
    obtain ⟨front, rest, minimum, notes, rfl⟩ := eq_array_of_isSubtypeOf hatom h
    exact hf.array ha.1 hb h
  | never | union => cases hatom'

theorem isSubtypeOf_iff_parts (hf : Inward S f) (hunion : t.isUnion = false) :
    (f t).isSubtypeOf w = true ↔ ∀ a ∈ t.parts, (f a).isSubtypeOf w = true := by
  cases t with
  | never notes => exact iff_of_true (isSubtypeOf_of_isNever (hf.never notes) w) nofun
  | primitive kind notes =>
    cases kind with
    | boolean =>
      obtain ⟨inside, hinside⟩ := hf.flat
      have htruth (b : Bool) : f (ofBool b) = inside := hinside _ rfl
      have hboolean : f (.primitive .boolean notes) = inside := hinside _ rfl
      simp [parts, htruth, hboolean]
    | number | string | null | nothing => simp [parts]
  | union => cases hunion
  | any | literal | object | array => simp [parts]

/-- A type is above all that is found inside another just if it is above what is found inside its
atoms. -/
theorem mapMembers_isSubtypeOf_iff (hf : Inward S f) (ht : t.Normal S) (hw : w.Normal S) :
    (mapMembers f t).isSubtypeOf w = true ↔ ∀ a ∈ t.atoms, (f a).isSubtypeOf w = true := by
  cases ht with
  | @union ms notes heach hplain hnonempty =>
    have hnormal : ∀ u ∈ ms.map (mapMembers f), u.Normal S :=
      List.forall_mem_map.mpr fun m hm => hf.mapMembers_normal (heach m hm)
    rw [mapMembers, mapEach_eq, unionOf_isSubtypeOf_iff hnormal hw, List.forall_mem_map, atoms,
      List.forall_mem_flatMap]
    refine forall₂_congr fun m hm => ?_
    have hunion := isUnion_eq_false_of_isPlain (hplain m hm)
    rw [mapMembers_of_isUnion hunion]
    exact hf.isSubtypeOf_iff_parts hunion
  | any | never | literal | primitive | object | array => exact hf.isSubtypeOf_iff_parts rfl

theorem isSubtypeOf_mapMembers (hf : Inward S f) (ha : a.Tidy S) (hatom : a.isAtom = true)
    (ht : t.Normal S) (h : a.isSubtypeOf t = true) :
    (f a).isSubtypeOf (mapMembers f t) = true := by
  obtain ⟨b, hb, hab⟩ := (isSubtypeOf_iff_exists_atom hatom ha.1 ht).mp h
  obtain ⟨hbnormal, hbatom⟩ := ht.atoms b hb
  have hnormal := hf.mapMembers_normal ht
  have hinside := (hf.mapMembers_isSubtypeOf_iff ht hnormal).mp (isSubtypeOf_refl hnormal) b hb
  exact isSubtypeOf_trans (hf.normal a ha.1) (hf.normal b hbnormal) hnormal
    (hf.mono_of_isAtom ha hatom hbnormal hbatom hab) hinside

theorem mono (hf : Inward S f) (ht : t.Tidy S) (hu : u.Normal S) (h : t.isSubtypeOf u = true) :
    (mapMembers f t).isSubtypeOf (mapMembers f u) = true := by
  rw [hf.mapMembers_isSubtypeOf_iff ht.1 (hf.mapMembers_normal hu)]
  intro a ha
  obtain ⟨htidy, hatom⟩ := ht.atoms a ha
  exact hf.isSubtypeOf_mapMembers htidy hatom hu ((isSubtypeOf_iff_atoms ht.1).mp h a ha)

/-- A union has no more inside than the types that it is made of. -/
theorem unionOf_least (hf : Inward S f) (hts : ∀ t ∈ ts, t.Tidy S) (hw : w.Normal S)
    (h : ∀ t ∈ ts, (mapMembers f t).isSubtypeOf w = true) :
    (mapMembers f (unionOf ts)).isSubtypeOf w = true := by
  have hunion : (unionOf ts).Tidy S := (tidy_explored S).union hts
  rw [hf.mapMembers_isSubtypeOf_iff hunion.1 hw]
  intro a ha
  obtain ⟨htidy, hatom⟩ := hunion.atoms a ha
  -- the atom is one of the union, and so a subtype of one of the types
  obtain ⟨t, ht, hat⟩ := (isSubtypeOf_unionOf_iff hatom htidy.1 fun t ht => (hts t ht).1).mp
    (hunion.1.isSubtypeOf_of_mem_atoms ha)
  have hinside := hf.isSubtypeOf_mapMembers htidy hatom (hts t ht).1 hat
  exact isSubtypeOf_trans (hf.normal a htidy.1) (hf.mapMembers_normal (hts t ht).1) hw hinside
    (h t ht)

end Inward

section Steps

/-- Members and elements that may be missing grow with their types, and where they need not be
missing any more they are fewer. -/
theorem optional_mono {p q : Prop} [Decidable p] [Decidable q] (hpq : q → p) (ht : t.Normal S)
    (hu : u.Normal S) (h : t.isSubtypeOf u = true) :
    (if p then t else unionOf [t, nothing]).isSubtypeOf
      (if q then u else unionOf [u, nothing]) = true := by
  have hnothing : nothing.Normal S := .primitive
  have hunion : (unionOf [u, nothing]).Normal S := normal_unionOf (forall_mem_pair hu hnothing)
  have hleft : t.isSubtypeOf (unionOf [u, nothing]) = true :=
    isSubtypeOf_trans ht hu hunion h ((ordered_normal S).left_unionOf hu hnothing)
  by_cases hq : q
  · rw [if_pos hq, if_pos (hpq hq)]
    exact h
  · rw [if_neg hq]
    split
    · exact hleft
    · exact (ordered_normal S).unionOf_pair_least ht hnothing hunion hleft
        ((ordered_normal S).right_unionOf hu hnothing)

theorem inward_memberAt (S : NumberSet) (step : Step) : Inward S (memberAt step) where
  normal _ := (normal_closed S).memberAt step
  any _ := rfl
  never _ := rfl
  flat := ⟨nothing, fun t ht => by cases t <;> first | rfl | cases ht⟩
  object hleft hright _ h := by
    rw [object_isSubtypeOf_object_iff] at h
    obtain ⟨hrequired, -, heach⟩ := h
    cases step with
    | index => rfl
    | name name =>
      refine optional_mono ?_ ((normal_closed S).property hleft name)
        ((normal_closed S).property hright name) (heach name)
      rw [List.contains_iff_mem, List.contains_iff_mem]
      exact hrequired name
  array hleft hright h := by
    rw [array_isSubtypeOf_array_iff] at h
    obtain ⟨hminimum, -, heach⟩ := h
    cases step with
    | name => rfl
    | index i =>
      exact optional_mono (fun hi => Nat.lt_of_lt_of_le hi hminimum)
        ((normal_closed S).element hleft i) ((normal_closed S).element hright i) (heach i)

theorem unionOf_mono_of_forall_exists {us : List DataType} (hts : ∀ t ∈ ts, t.Normal S)
    (hus : ∀ u ∈ us, u.Normal S) (h : ∀ t ∈ ts, ∃ u ∈ us, t.isSubtypeOf u = true) :
    (unionOf ts).isSubtypeOf (unionOf us) = true := by
  rw [unionOf_isSubtypeOf_iff hts (normal_unionOf hus)]
  intro t ht
  obtain ⟨u, hu, hsub⟩ := h t ht
  exact isSubtypeOf_trans (hts t ht) (hus u hu) (normal_unionOf hus) hsub
    ((ordered_normal S).member_unionOf us hus u hu)

theorem inward_memberChildren (S : NumberSet) : Inward S memberChildren where
  normal _ := (normal_closed S).memberChildren
  any _ := rfl
  never _ := rfl
  flat := ⟨bottom, fun t ht => by cases t <;> first | rfl | cases ht⟩
  object {properties properties' rest rest' _ _ _ _} hleft hright hnodup h := by
    obtain ⟨-, -, heach⟩ := object_isSubtypeOf_object_iff.mp h
    refine unionOf_mono_of_forall_exists
      (forall_mem_values ((normal_closed S).properties hleft) ((normal_closed S).others hleft))
      (forall_mem_values ((normal_closed S).properties hright) ((normal_closed S).others hright)) ?_
    intro t ht
    obtain ⟨name, rfl⟩ := exists_property_eq hnodup ht
    exact ⟨_, property_mem_values properties' rest' name, heach name⟩
  array {front front' rest rest' _ _ _ _} hleft hright h := by
    obtain ⟨-, -, heach⟩ := array_isSubtypeOf_array_iff.mp h
    refine unionOf_mono_of_forall_exists
      (List.forall_mem_append.mpr ⟨(normal_closed S).front hleft,
        List.forall_mem_singleton.mpr ((normal_closed S).further hleft)⟩)
      (List.forall_mem_append.mpr ⟨(normal_closed S).front hright,
        List.forall_mem_singleton.mpr ((normal_closed S).further hright)⟩) ?_
    intro t ht
    obtain ⟨i, rfl⟩ := exists_element_eq ht
    exact ⟨_, element_mem front' rest' i, heach i⟩

theorem children_of_isUnion (h : t.isUnion = false) : t.children = memberChildren t :=
  mapMembers_of_isUnion h

theorem children_union (ms : List DataType) (notes : Annotations) :
    children (.union ms notes) = unionOf (ms.map children) := by
  rw [children, mapMembers, mapEach_eq]
  rfl

end Steps

section Descendants

variable {ms : List DataType} {g : DataType → DataType}

namespace DescendantsAre

theorem tidy (h : DescendantsAre t d) (ht : t.Tidy S) : d.Tidy S := by
  rw [descendantsAre_iff.mp h]
  exact (tidy_explored S).descendants ht

theorem tidy_map (h : ∀ m ∈ ms, DescendantsAre m (g m)) (hms : ∀ m ∈ ms, m.Tidy S) :
    ∀ u ∈ ms.map g, u.Tidy S :=
  List.forall_mem_map.mpr fun m hm => (h m hm).tidy (hms m hm)

/-- The children are descendants. -/
theorem children_isSubtypeOf (h : DescendantsAre t d) (ht : t.Tidy S) :
    t.children.isSubtypeOf d = true := by
  induction h with
  | any => rfl
  | @union ms notes g heach ih =>
    have hms := (tidy_explored S).members ht
    rw [children_union]
    refine unionOf_mono_of_forall_exists (S := S) ?_ (fun u hu => (tidy_map heach hms u hu).1) ?_
    · exact List.forall_mem_map.mpr fun m hm => (normal_closed S).children (hms m hm).1
    · exact List.forall_mem_map.mpr fun m hm => ⟨g m, List.mem_map_of_mem hm, ih m hm (hms m hm)⟩
  | @childless t _ hunion =>
    rw [children_of_isUnion hunion]
    exact isSubtypeOf_refl ((normal_closed S).memberChildren ht.1)
  | @deeper t below _ hunion _ hinside _ =>
    have hmember : (memberChildren t).Tidy S := (tidy_explored S).memberChildren ht
    rw [children_of_isUnion hunion]
    exact (ordered_normal S).left_unionOf hmember.1 (hinside.tidy hmember).1

/-- The children of descendants are descendants. -/
theorem children_closed (h : DescendantsAre t d) (ht : t.Tidy S) :
    d.children.isSubtypeOf d = true := by
  induction h with
  | any => rfl
  | @union ms notes g heach ih =>
    have hms := (tidy_explored S).members ht
    have hg := tidy_map heach hms
    have hall : (unionOf (ms.map g)).Normal S := normal_unionOf fun u hu => (hg u hu).1
    refine (inward_memberChildren S).unionOf_least hg hall (List.forall_mem_map.mpr ?_)
    intro m hm
    have hdescendants := (heach m hm).tidy (hms m hm)
    exact isSubtypeOf_trans ((normal_closed S).children hdescendants.1) hdescendants.1 hall
      (ih m hm (hms m hm)) ((ordered_normal S).member_unionOf _ (fun u hu => (hg u hu).1) _
        (List.mem_map_of_mem hm))
  | @childless t _ _ hnever =>
    obtain ⟨notes, hbottom⟩ := isNever_eq_true hnever
    rw [hbottom]
    rfl
  | @deeper t below _ _ _ hinside ih =>
    have hmember : (memberChildren t).Tidy S := (tidy_explored S).memberChildren ht
    have hbelow := hinside.tidy hmember
    have hall := normal_unionOf (forall_mem_pair hmember.1 hbelow.1)
    have hright := (ordered_normal S).right_unionOf hmember.1 hbelow.1
    have hthrough {u : DataType} (hu : u.Tidy S) (h : u.children.isSubtypeOf below = true) :
        u.children.isSubtypeOf (unionOf [memberChildren t, below]) = true :=
      isSubtypeOf_trans ((normal_closed S).children hu.1) hbelow.1 hall h hright
    exact (inward_memberChildren S).unionOf_least (forall_mem_pair hmember hbelow) hall
      (forall_mem_pair (hthrough hmember (hinside.children_isSubtypeOf hmember))
        (hthrough hbelow (ih hmember)))

/-- A type that has the children of a type and its own children has all descendants. -/
theorem least (h : DescendantsAre t d) (ht : t.Tidy S) (hw : w.Normal S)
    (hchildren : t.children.isSubtypeOf w = true) (hclosed : w.children.isSubtypeOf w = true) :
    d.isSubtypeOf w = true := by
  induction h with
  | any => exact hchildren
  | @union ms notes g heach ih =>
    have hms := (tidy_explored S).members ht
    have hinside : ∀ u ∈ ms.map children, u.Normal S :=
      List.forall_mem_map.mpr fun m hm => (normal_closed S).children (hms m hm).1
    rw [children_union, unionOf_isSubtypeOf_iff hinside hw, List.forall_mem_map] at hchildren
    rw [unionOf_isSubtypeOf_iff (fun u hu => (tidy_map heach hms u hu).1) hw, List.forall_mem_map]
    exact fun m hm => ih m hm (hms m hm) (hchildren m hm)
  | @childless t _ hunion =>
    rw [children_of_isUnion hunion] at hchildren
    exact hchildren
  | @deeper t below _ hunion _ hinside ih =>
    have hmember : (memberChildren t).Tidy S := (tidy_explored S).memberChildren ht
    rw [children_of_isUnion hunion] at hchildren
    have hdeeper := isSubtypeOf_trans ((normal_closed S).children hmember.1)
      ((normal_closed S).children hw) hw ((inward_memberChildren S).mono hmember hw hchildren)
      hclosed
    exact (ordered_normal S).unionOf_pair_least hmember.1 (hinside.tidy hmember).1 hw hchildren
      (ih hmember hdeeper)

end DescendantsAre

end Descendants

/-- The first of two tidy types is a subtype of the second. -/
structure Refines (S : NumberSet) (t u : DataType) : Prop where
  left : t.Tidy S
  right : u.Tidy S
  below : t.isSubtypeOf u = true

theorem exists_of_forall₂ {α β : Type} {R : α → β → Prop} {as : List α} {bs : List β}
    (h : List.Forall₂ R as bs) : ∀ a ∈ as, ∃ b ∈ bs, R a b := by
  induction h with
  | nil => exact List.forall_mem_nil _
  | @cons a b as bs hab _ ih =>
    refine List.forall_mem_cons.mpr ⟨⟨b, List.mem_cons_self, hab⟩, ?_⟩
    intro x hx
    obtain ⟨y, hy, hxy⟩ := ih x hx
    exact ⟨y, List.mem_cons_of_mem _ hy, hxy⟩

namespace Refines

theorem refl (ht : t.Tidy S) : Refines S t t := ⟨ht, ht, isSubtypeOf_refl ht.1⟩

theorem atStep (h : Refines S t u) (step : Step) : Refines S (t.atStep step) (u.atStep step) :=
  ⟨(tidy_explored S).atStep step h.left, (tidy_explored S).atStep step h.right,
    (inward_memberAt S step).mono h.left h.right.1 h.below⟩

theorem subtract (h : Refines S t u) (hw : w.Normal S) :
    Refines S (t.subtract w) (u.subtract w) :=
  ⟨⟨normal_subtract h.left.1, h.left.2.subtract w⟩, ⟨normal_subtract h.right.1,
    h.right.2.subtract w⟩, subtract_mono h.left.1 h.right.1 hw h.below⟩

theorem children (h : Refines S t u) : Refines S t.children u.children :=
  ⟨(tidy_explored S).children h.left, (tidy_explored S).children h.right,
    (inward_memberChildren S).mono h.left h.right.1 h.below⟩

theorem descendants (h : Refines S t u) : Refines S t.descendants u.descendants := by
  have hleft : DescendantsAre t t.descendants := descendantsAre_iff.mpr rfl
  have hright : DescendantsAre u u.descendants := descendantsAre_iff.mpr rfl
  have hdescendants := hright.tidy h.right
  have hchildren : t.children.isSubtypeOf u.descendants = true :=
    isSubtypeOf_trans h.children.left.1 h.children.right.1 hdescendants.1 h.children.below
      (hright.children_isSubtypeOf h.right)
  exact ⟨hleft.tidy h.left, hdescendants, hleft.least h.left hdescendants.1 hchildren
    (hright.children_closed h.right)⟩

theorem unionOf {us : List DataType} (h : List.Forall₂ (Refines S) ts us) :
    Refines S (unionOf ts) (unionOf us) := by
  have hts : ∀ t ∈ ts, ∃ u ∈ us, Refines S t u := exists_of_forall₂ h
  have hus : ∀ u ∈ us, ∃ t ∈ ts, Refines S t u := exists_of_forall₂ h.flip
  have hleft : ∀ t ∈ ts, t.Tidy S := fun t ht => (hts t ht).elim fun _ h => h.2.left
  have hright : ∀ u ∈ us, u.Tidy S := fun u hu => (hus u hu).elim fun _ h => h.2.right
  refine ⟨(tidy_explored S).union hleft, (tidy_explored S).union hright, ?_⟩
  refine unionOf_mono_of_forall_exists (fun t ht => (hleft t ht).1) (fun u hu => (hright u hu).1) ?_
  intro t ht
  obtain ⟨u, hu, hrefines⟩ := hts t ht
  exact ⟨u, hu, hrefines.below⟩

theorem pair {t' u' : DataType} (h : Refines S t u) (h' : Refines S t' u') :
    Refines S (DataType.unionOf [t, t']) (DataType.unionOf [u, u']) :=
  unionOf (.cons h (.cons h' .nil))

end Refines

end JsonPath.DataType
