import JsonPath.Proofs.DataType.Bare

/-!
Notes do not influence what is found at a location inside a type, nor the type that is changed or
made present there, nor the types of all that is inside. A change may be any operation that does
not heed notes itself.
-/

namespace JsonPath.DataType

variable {f g : DataType → DataType}

section Members

theorem heedless_mapMembers (h : Heedless f g) : Heedless (mapMembers f) (mapMembers g) := by
  intro t
  induction t using parts_induction with
  | any | never | literal | primitive | object | array => exact h _
  | union ms notes ih =>
    rw [bare, mapMembers, mapMembers, mapEach_eq, mapEach_eq, bare_unionOf, bareEach_eq,
      List.map_map, List.map_map]
    exact congrArg unionOf (List.map_congr_left ih)

theorem heedless_mapAnnotated (h : Heedless f g) :
    Heedless (mapAnnotated f) (mapAnnotated g) := by
  intro t
  induction t using parts_induction with
  | any | never | literal | primitive | object | array => exact h _
  | union ms notes ih =>
    have hms : unionOf (mapAnnotatedEach g (bareEach ms)) =
        (unionOf (mapAnnotatedEach f ms)).bare := by
      rw [mapAnnotatedEach_eq, mapAnnotatedEach_eq, bare_unionOf, bareEach_eq, List.map_map,
        List.map_map]
      exact congrArg unionOf (List.map_congr_left ih)
    rw [mapAnnotated, bare_mergeNotes, ← hms]
    exact mergeNotes_bare _ (union ms notes)

end Members

section Found

theorem heedless_memberAt (step : Step) : Heedless (memberAt step) (memberAt step) := by
  intro t
  cases t with
  | object properties rest required notes =>
    cases step with
    | index i => rfl
    | name name =>
      simp only [bare, memberAt, bareProperties_eq, property_map_bare]
      split
      · rfl
      · exact (bare_unionOf [property properties rest name, nothing]).symm
  | array front rest minimum notes =>
    cases step with
    | name name => rfl
    | index i =>
      simp only [bare, memberAt, bareEach_eq, element_map_bare]
      split
      · rfl
      · exact (bare_unionOf [element front rest i, nothing]).symm
  | any | never | literal | primitive | union => rfl

@[simp] theorem bare_atStep (t : DataType) (step : Step) :
    (t.atStep step).bare = t.bare.atStep step :=
  (heedless_mapMembers (heedless_memberAt step) t).symm

@[simp] theorem bare_atLocation (t : DataType) (l : Location) :
    (t.atLocation l).bare = t.bare.atLocation l := by
  induction l generalizing t with
  | nil => rfl
  | cons step l ih =>
    have hstep := congrArg (atLocation · l) (bare_atStep t step)
    exact (ih (t.atStep step)).trans hstep

end Found

section Changed

theorem insert_map_bare (properties : Fields DataType) (name : String) (t : DataType) :
    Fields.insert (properties.map fun p => (p.1, p.2.bare)) name t.bare =
      (Fields.insert properties name t).map fun p => (p.1, p.2.bare) := by
  induction properties with
  | nil => rfl
  | cons p rest ih =>
    rw [List.map_cons, Fields.insert, Fields.insert]
    split
    · rfl
    · rw [ih, List.map_cons]

theorem widen?_map_bare (front : List DataType) (rest : DataType) (i : Nat) :
    widen? (front.map bare) rest.bare i = (widen? front rest i).map (List.map bare) := by
  simp only [widen?, List.length_map]
  split
  · rfl
  · rw [Option.map_some, List.map_append, List.map_replicate]

theorem heedless_changeAt (h : Heedless f g) (l : Location) :
    Heedless (changeAt f l) (changeAt g l) := by
  induction l with
  | nil => exact h
  | cons step tail ih =>
    refine heedless_mapAnnotated fun t => ?_
    cases t with
    | object properties rest required notes =>
      cases step with
      | index i => rfl
      | name name =>
        simp only [bare, bareProperties_eq, property_map_bare, ih _, insert_map_bare,
          ← bare_ofObject, bare_withNotes, withNotes_bare]
    | array front rest minimum notes =>
      cases step with
      | name name => rfl
      | index i =>
        simp only [bare, bareEach_eq, element_map_bare, ih _, widen?_map_bare]
        cases widen? front rest i with
        | some wide =>
          dsimp only [Option.map_some]
          rw [← List.map_set, ← bare_ofArray, withNotes_bare, bare_withNotes]
        | none =>
          dsimp only [Option.map_none]
          have hwider := bare_unionOf [rest, changeAt f tail (element front rest i)]
          rw [List.map_cons, List.map_cons, List.map_nil] at hwider
          rw [← hwider, ← bare_ofArray, withNotes_bare, bare_withNotes]
    | any | never | literal | primitive | union => cases step <;> rfl

theorem heedless_presentAt (l : Location) : Heedless (presentAt l) (presentAt l) := by
  induction l with
  | nil => exact fun _ => rfl
  | cons step tail ih =>
    refine heedless_mapAnnotated fun t => ?_
    cases t with
    | object properties rest required notes =>
      cases step with
      | index i => rfl
      | name name =>
        simp only [bare, bareProperties_eq, property_map_bare, ih _, insert_map_bare,
          ← bare_ofObject, bare_withNotes, withNotes_bare]
    | array front rest minimum notes =>
      cases step with
      | name name => rfl
      | index i =>
        simp only [bare, bareEach_eq, element_map_bare, ih _, widen?_map_bare, isNever_bare]
        cases widen? front rest i with
        | some wide =>
          dsimp only [Option.map_some]
          rw [← List.map_set, ← bare_ofArray, withNotes_bare, bare_withNotes]
        | none =>
          dsimp only [Option.map_none]
          split
          · rfl
          · rw [bare, bareEach_eq]
    | any | never | literal | primitive | union => cases step <;> rfl

@[simp] theorem bare_presentAt (l : Location) (t : DataType) :
    (presentAt l t).bare = presentAt l t.bare :=
  (heedless_presentAt l t).symm

end Changed

section Inside

theorem heedless_memberChildren : Heedless memberChildren memberChildren := by
  intro t
  cases t with
  | object properties rest required notes =>
    simp only [bare, memberChildren, bareProperties_eq, bare_unionOf, Fields.values, List.map_map,
      List.map_append, List.map_cons, List.map_nil]
    rfl
  | array front rest minimum notes =>
    simp only [bare, memberChildren, bareEach_eq, bare_unionOf, List.map_append, List.map_cons,
      List.map_nil]
  | any | never | literal | primitive | union => rfl

@[simp] theorem bare_children (t : DataType) : t.children.bare = t.bare.children :=
  (heedless_mapMembers heedless_memberChildren t).symm

@[simp] theorem depth_bare (t : DataType) : t.bare.depth = t.depth := by
  have heach {ts : List DataType} (ih : ∀ t ∈ ts, t.bare.depth = t.depth) :
      depthEach (bareEach ts) = depthEach ts := by
    induction ts with
    | nil => rfl
    | cons t rest ihrest =>
      rw [bareEach, depthEach, depthEach, ih t List.mem_cons_self,
        ihrest fun t ht => ih t (List.mem_cons_of_mem _ ht)]
  have hproperties {properties : List (String × DataType)}
      (ih : ∀ p ∈ properties, p.2.bare.depth = p.2.depth) :
      depthProperties (bareProperties properties) = depthProperties properties := by
    induction properties with
    | nil => rfl
    | cons p rest ihrest =>
      rw [bareProperties, depthProperties, depthProperties, ih p List.mem_cons_self,
        ihrest fun p hp => ih p (List.mem_cons_of_mem _ hp)]
  induction t using parts_induction with
  | any | never | literal | primitive => rfl
  | object properties rest required notes ihproperties ihrest =>
    rw [bare, depth, depth, hproperties ihproperties, ihrest]
  | array front rest minimum notes ihfront ihrest => rw [bare, depth, depth, heach ihfront, ihrest]
  | union ms notes ih => rw [bare, depth, depth, heach ih]

theorem heedless_descendantsWithin (levels : Nat) :
    Heedless (descendantsWithin levels) (descendantsWithin levels) := by
  induction levels with
  | zero =>
    refine heedless_mapMembers fun t => ?_
    rw [isAny_bare]
    split <;> rfl
  | succ levels ih =>
    refine heedless_mapMembers fun t => ?_
    simp only [isAny_bare, heedless_memberChildren t, isNever_bare, ih _]
    split
    · rfl
    · split
      · rfl
      · exact (bare_unionOf [memberChildren t, descendantsWithin levels (memberChildren t)]).symm

@[simp] theorem bare_descendants (t : DataType) : t.descendants.bare = t.bare.descendants := by
  rw [descendants, descendants, depth_bare, heedless_descendantsWithin t.depth t]

end Inside

end JsonPath.DataType
