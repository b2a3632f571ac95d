import JsonPath.Proofs.DataType.Algebra
import JsonPath.Proofs.DataType.Closed

/-!
What occurs in types. A type without parts may stand in another at any depth, or only strictly
inside, in the types of elements and members. Unions and intersections are made of what occurs in
the types they are formed from.
-/

namespace JsonPath.DataType

/-- The type describes the absence of a value and nothing else. -/
def isNothing : DataType → Bool
  | primitive kind _ => kind = .nothing
  | _ => false

mutual

/-- A type without parts that passes the test occurs in the type, at any depth. -/
def occurs (test : DataType → Bool) : DataType → Bool
  | object properties rest _ _ => occursInProperties test properties || rest.occurs test
  | array front rest _ _ => occursAmong test front || rest.occurs test
  | union members _ => occursAmong test members
  | t => test t

def occursInProperties (test : DataType → Bool) : List (String × DataType) → Bool
  | [] => false
  | (_, t) :: rest => t.occurs test || occursInProperties test rest

def occursAmong (test : DataType → Bool) : List DataType → Bool
  | [] => false
  | t :: rest => t.occurs test || occursAmong test rest

end

mutual

/-- The types of the elements and members of values. -/
def inside : DataType → List DataType
  | object properties rest _ _ => Fields.values properties ++ [rest]
  | array front rest _ _ => front ++ [rest]
  | union members _ => insideEach members
  | _ => []

def insideEach : List DataType → List DataType
  | [] => []
  | t :: rest => t.inside ++ insideEach rest

end

/-- Nothing that passes the test occurs in the types of elements and members. -/
def LacksInside (test : DataType → Bool) (t : DataType) : Prop :=
  ∀ u ∈ t.inside, u.occurs test = false

/-- To unite types does not bring in types that pass the test, and annotations make no difference
to it. -/
structure Unmade (test : DataType → Bool) : Prop where
  boolean : test (ofPrimitive .boolean) = false
  bottom : test bottom = false
  withNotes : ∀ t notes, test (t.withNotes notes) = test t

theorem isNothing_unmade : Unmade isNothing where
  boolean := rfl
  bottom := rfl
  withNotes t _ := by cases t <;> rfl

variable {test : DataType → Bool} {a b t u : DataType} {ts : List DataType}

section Parts

variable {properties : List (String × DataType)} {front : List DataType} {rest : DataType}
  {required : List String} {minimum : Nat} {notes : Annotations}

theorem occursInProperties_eq :
    occursInProperties test properties = properties.any fun p => p.2.occurs test := by
  induction properties with
  | nil => rfl
  | cons p rest ih =>
    rw [List.any_cons, ← ih]
    rfl

theorem occursAmong_eq : occursAmong test ts = ts.any (occurs test) := by
  induction ts with
  | nil => rfl
  | cons t rest ih =>
    rw [List.any_cons, ← ih]
    rfl

theorem insideEach_eq (ts : List DataType) : insideEach ts = ts.flatMap inside := by
  induction ts with
  | nil => rfl
  | cons t rest ih =>
    rw [List.flatMap_cons, ← ih]
    rfl

theorem occurs_object_eq_false_iff :
    (object properties rest required notes).occurs test = false ↔
      (∀ p ∈ properties, p.2.occurs test = false) ∧ rest.occurs test = false := by
  change (occursInProperties test properties || rest.occurs test) = false ↔ _
  rw [Bool.or_eq_false_iff, occursInProperties_eq, List.any_eq_false]
  simp only [Bool.not_eq_true]

theorem occurs_array_eq_false_iff :
    (array front rest minimum notes).occurs test = false ↔
      (∀ t ∈ front, t.occurs test = false) ∧ rest.occurs test = false := by
  change (occursAmong test front || rest.occurs test) = false ↔ _
  rw [Bool.or_eq_false_iff, occursAmong_eq, List.any_eq_false]
  simp only [Bool.not_eq_true]

theorem occurs_union_eq_false_iff :
    (union ts notes).occurs test = false ↔ ∀ t ∈ ts, t.occurs test = false := by
  change occursAmong test ts = false ↔ _
  rw [occursAmong_eq, List.any_eq_false]
  simp only [Bool.not_eq_true]

theorem occurs_property (h : (object properties rest required notes).occurs test = false)
    (name : String) : (property properties rest name).occurs test = false := by
  obtain ⟨hprops, hrest⟩ := occurs_object_eq_false_iff.mp h
  rcases property_eq properties rest name with ⟨p, hp, heq⟩ | heq <;> rw [heq]
  · exact hprops p hp
  · exact hrest

theorem occurs_element (h : (array front rest minimum notes).occurs test = false) (i : Nat) :
    (element front rest i).occurs test = false := by
  obtain ⟨hfront, hrest⟩ := occurs_array_eq_false_iff.mp h
  rcases element_eq front rest i with hmem | heq
  · exact hfront _ hmem
  · rw [heq]
    exact hrest

theorem lacksInside_object_iff : LacksInside test (object properties rest required notes) ↔
    (object properties rest required notes).occurs test = false := by
  change (∀ u ∈ Fields.values properties ++ [rest], u.occurs test = false) ↔ _
  rw [List.forall_mem_append, List.forall_mem_singleton, Fields.values, List.forall_mem_map,
    occurs_object_eq_false_iff]

theorem lacksInside_array_iff : LacksInside test (array front rest minimum notes) ↔
    (array front rest minimum notes).occurs test = false := by
  change (∀ u ∈ front ++ [rest], u.occurs test = false) ↔ _
  rw [List.forall_mem_append, List.forall_mem_singleton, occurs_array_eq_false_iff]

theorem lacksInside_union_iff :
    LacksInside test (union ts notes) ↔ ∀ t ∈ ts, LacksInside test t := by
  change (∀ u ∈ insideEach ts, u.occurs test = false) ↔ ∀ t ∈ ts, ∀ u ∈ t.inside, _
  simp only [insideEach_eq, List.mem_flatMap, forall_exists_index, and_imp]
  exact ⟨fun h t ht u hu => h u t ht hu, fun h u t ht hu => h t ht u hu⟩

/-- What does not occur at all does not occur inside. -/
theorem lacksInside_of_occurs_eq_false (h : t.occurs test = false) : LacksInside test t := by
  induction t using parts_induction with
  | object => exact lacksInside_object_iff.mpr h
  | array => exact lacksInside_array_iff.mpr h
  | union members notes ih =>
    exact lacksInside_union_iff.mpr fun m hm => ih m hm (occurs_union_eq_false_iff.mp h m hm)
  | any | never | literal | primitive => exact List.forall_mem_nil _

/-- A type that describes the absence of a value says so by itself or by describing everything. -/
theorem not_describes_none (hnothing : t.occurs isNothing = false) (hany : t.occurs isAny = false) :
    ¬ t.Describes none := by
  intro h
  generalize hx : (none : Option Json) = x at h
  induction h with
  | any => cases hany
  | nothing => cases hnothing
  | union hmem _ ih =>
    exact ih (occurs_union_eq_false_iff.mp hnothing _ hmem)
      (occurs_union_eq_false_iff.mp hany _ hmem) hx
  | literal | primitive | object | array => cases hx

end Parts

section Build

theorem occurs_withNotes (h : Unmade test) (notes : Annotations) :
    (t.withNotes notes).occurs test = t.occurs test := by
  cases t with
  | object | array | union => rfl
  | any | never | literal | primitive => exact h.withNotes _ notes

theorem occurs_mergeNotes (h : Unmade test) : (t.mergeNotes u).occurs test = t.occurs test := by
  unfold mergeNotes
  split
  · rfl
  · exact occurs_withNotes h _

theorem occurs_unionClosed (h : Unmade test) : UnionClosed fun t => t.occurs test = false where
  members := occurs_union_eq_false_iff.mp
  union := occurs_union_eq_false_iff.mpr
  boolean := h.boolean
  bottom := h.bottom
  mergeNotes ht := (occurs_mergeNotes h).trans ht

theorem inside_withNotes (notes : Annotations) : (t.withNotes notes).inside = t.inside := by
  cases t <;> rfl

theorem lacksInside_unionClosed (test : DataType → Bool) : UnionClosed (LacksInside test) where
  members := lacksInside_union_iff.mp
  union := lacksInside_union_iff.mpr
  boolean := List.forall_mem_nil _
  bottom := List.forall_mem_nil _
  mergeNotes ht := by
    unfold mergeNotes
    split
    · exact ht
    · intro u hu
      rw [inside_withNotes] at hu
      exact ht u hu

theorem occurs_ofObject (h : Unmade test) {properties : Fields DataType} {rest : DataType}
    (required : List String) (hprops : ∀ p ∈ properties, p.2.occurs test = false)
    (hrest : rest.occurs test = false) :
    (ofObject properties rest required).occurs test = false := by
  unfold ofObject
  dsimp only
  split
  · exact h.bottom
  · exact occurs_object_eq_false_iff.mpr ⟨hprops, hrest⟩

theorem occurs_ofArray (h : Unmade test) {front : List DataType} {rest : DataType} (minimum : Nat)
    (hfront : ∀ t ∈ front, t.occurs test = false) (hrest : rest.occurs test = false) :
    (ofArray front rest minimum).occurs test = false := by
  unfold ofArray
  dsimp only
  split
  · exact h.bottom
  · split
    · refine occurs_array_eq_false_iff.mpr ⟨?_, h.bottom⟩
      intro t ht
      exact hfront t ((List.takeWhile_sublist _).subset ht)
    · exact occurs_array_eq_false_iff.mpr ⟨hfront, hrest⟩

end Build

section Intersection

/-- The intersections of the type with others have in them only what occurs in one of both. -/
def MeetsLack (test : DataType → Bool) (a : DataType) : Prop :=
  ∀ b : DataType, b.occurs test = false → (a.intersect b).occurs test = false

theorem occurs_lesser?_getD (h : Unmade test) (ha : a.occurs test = false)
    (hb : b.occurs test = false) (ht : t.occurs test = false) :
    ((lesser? a b).getD t).occurs test = false := by
  unfold lesser?
  split
  · exact (occurs_mergeNotes h).trans ha
  · split
    · exact (occurs_mergeNotes h).trans hb
    · exact ht

theorem occurs_unionOf_map (h : Unmade test) {f : DataType → DataType}
    (hf : ∀ t ∈ ts, (f t).occurs test = false) : (unionOf (ts.map f)).occurs test = false :=
  (occurs_unionClosed h).unionOf (List.forall_mem_map.mpr hf)

theorem occurs_meetMembers (h : Unmade test) {meet : DataType → DataType}
    (ha : a.occurs test = false)
    (hmeet : ∀ b : DataType, b.occurs test = false → (meet b).occurs test = false)
    (hb : b.occurs test = false) : (meetMembers a meet b).occurs test = false := by
  induction b using parts_induction with
  | union ms notes ih =>
    rw [meetMembers, meetEach_eq]
    refine occurs_lesser?_getD h ha hb (occurs_unionOf_map h ?_)
    intro m hm
    exact ih m hm (occurs_union_eq_false_iff.mp hb m hm)
  | any | never | literal | primitive | object | array =>
    exact occurs_lesser?_getD h ha hb (hmeet _ hb)

theorem occurs_objectMeet (h : Unmade test) {self : DataType}
    {properties : List (String × DataType)} {rest : DataType} (required : List String)
    (hprops : ∀ p ∈ properties, MeetsLack test p.2) (hrest : MeetsLack test rest)
    (hb : b.occurs test = false) :
    (objectMeet self (propertyMeets properties) rest.intersect required b).occurs test = false := by
  cases b with
  | object properties' rest' required' notes' =>
    simp only [objectMeet, getD_propertyMeets]
    rw [occurs_mergeNotes h, occurs_mergeNotes h]
    apply occurs_ofObject h
    · rw [List.forall_mem_map]
      intro name _
      have hboth := occurs_property hb name
      rcases property_eq properties rest name with ⟨p, hp, heq⟩ | heq <;> rw [heq]
      · exact hprops p hp _ hboth
      · exact hrest _ hboth
    · exact hrest _ (occurs_object_eq_false_iff.mp hb).2
  | any | never | literal | primitive | array | union => exact h.bottom

theorem occurs_arrayMeet (h : Unmade test) {self : DataType} {front : List DataType}
    {rest : DataType} (minimum : Nat) (hfront : ∀ t ∈ front, MeetsLack test t)
    (hrest : MeetsLack test rest) (hb : b.occurs test = false) :
    (arrayMeet self (frontMeets front) rest.intersect minimum b).occurs test = false := by
  cases b with
  | array front' rest' minimum' notes' =>
    simp only [arrayMeet, getD_frontMeets]
    rw [occurs_mergeNotes h, occurs_mergeNotes h]
    apply occurs_ofArray h
    · rw [List.forall_mem_map]
      intro i _
      have hboth := occurs_element hb i
      rcases element_eq front rest i with hmem | heq
      · exact hfront _ hmem _ hboth
      · rw [heq]
        exact hrest _ hboth
    · exact hrest _ (occurs_array_eq_false_iff.mp hb).2
  | any | never | literal | primitive | object | union => exact h.bottom

/-- What does not occur in two types does not occur in their intersection. -/
theorem occurs_intersect (h : Unmade test) (ha : a.occurs test = false) : MeetsLack test a := by
  induction a using parts_induction with
  | any | never | literal | primitive =>
    intro b hb
    exact occurs_meetMembers h ha (fun _ _ => h.bottom) hb
  | object properties rest required notes ihprops ihrest =>
    obtain ⟨hprops, hrest⟩ := occurs_object_eq_false_iff.mp ha
    intro b hb
    refine occurs_meetMembers h ha (fun b hb => ?_) hb
    exact occurs_objectMeet h required (fun p hp => ihprops p hp (hprops p hp)) (ihrest hrest) hb
  | array front rest minimum notes ihfront ihrest =>
    obtain ⟨hfront, hrest⟩ := occurs_array_eq_false_iff.mp ha
    intro b hb
    refine occurs_meetMembers h ha (fun b hb => ?_) hb
    exact occurs_arrayMeet h minimum (fun t ht => ihfront t ht (hfront t ht)) (ihrest hrest) hb
  | union ms notes ih =>
    intro b hb
    simp only [intersect, intersectEach_eq]
    refine occurs_lesser?_getD h ha hb (occurs_unionOf_map h ?_)
    intro m hm
    exact ih m hm (occurs_union_eq_false_iff.mp ha m hm) b hb

end Intersection

section Steps

/-- What a type has one step inside is taken from the types inside. -/
theorem lacksInside_memberAt (step : Step) (ht : LacksInside test t) :
    LacksInside test (memberAt step t) := by
  have hnothing : LacksInside test nothing := List.forall_mem_nil _
  have hpair {u : DataType} (hu : u.occurs test = false) :
      LacksInside test (unionOf [u, nothing]) :=
    (lacksInside_unionClosed test).unionOf (List.forall_mem_cons.mpr
      ⟨lacksInside_of_occurs_eq_false hu, List.forall_mem_singleton.mpr hnothing⟩)
  cases t with
  | any | never => exact List.forall_mem_nil _
  | object properties rest required notes =>
    cases step with
    | index => exact hnothing
    | name name =>
      have hproperty := occurs_property (lacksInside_object_iff.mp ht) name
      simp only [memberAt]
      split
      · exact lacksInside_of_occurs_eq_false hproperty
      · exact hpair hproperty
  | array front rest minimum notes =>
    cases step with
    | name => exact hnothing
    | index i =>
      have helement := occurs_element (lacksInside_array_iff.mp ht) i
      simp only [memberAt]
      split
      · exact lacksInside_of_occurs_eq_false helement
      · exact hpair helement
  | literal | primitive | union => exact hnothing

theorem lacksInside_atStep (step : Step) (ht : LacksInside test t) :
    LacksInside test (t.atStep step) := by
  unfold atStep
  induction t using parts_induction with
  | union ms notes ih =>
    rw [mapMembers, mapEach_eq]
    refine (lacksInside_unionClosed test).unionOf (List.forall_mem_map.mpr ?_)
    intro m hm
    exact ih m hm (lacksInside_union_iff.mp ht m hm)
  | any | never | literal | primitive | object | array => exact lacksInside_memberAt step ht

end Steps

end JsonPath.DataType
