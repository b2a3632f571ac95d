import Mathlib.Logic.Basic
import JsonPath.Proofs.DataType.Algebra
import JsonPath.Proofs.DataType.Closed
import JsonPath.Proofs.DataType.Distinct

/-!
Notes never influence types. The type without its notes, and without those anywhere inside of it,
is what is left when they are erased. Each operation on types gives, for types without notes, the
type without notes of what it gives for the types themselves. Nothing is asked of the types, which
may be built in any way.
-/

namespace JsonPath.DataType

mutual

/-- The type without notes, neither of its own nor inside of it. -/
def bare : DataType → DataType
  | any _ => any {}
  | never _ => never {}
  | literal value _ => literal value {}
  | primitive kind _ => primitive kind {}
  | object properties rest required _ => object (bareProperties properties) rest.bare required {}
  | array front rest minimum _ => array (bareEach front) rest.bare minimum {}
  | union members _ => union (bareEach members) {}

def bareProperties : List (String × DataType) → List (String × DataType)
  | [] => []
  | (name, t) :: rest => (name, t.bare) :: bareProperties rest

def bareEach : List DataType → List DataType
  | [] => []
  | t :: rest => t.bare :: bareEach rest

end

/-- The second operation gives for a type without notes what the first gives for the type, without
notes. -/
def Heedless (f g : DataType → DataType) : Prop := ∀ u : DataType, g u.bare = (f u).bare

section Parts

variable (properties : Fields DataType) (rest : DataType) (front : List DataType)

@[simp] theorem bareEach_eq : bareEach front = front.map bare := by
  induction front with
  | nil => rfl
  | cons t rest ih => rw [bareEach, ih, List.map_cons]

@[simp] theorem bareProperties_eq :
    bareProperties properties = properties.map fun p => (p.1, p.2.bare) := by
  induction properties with
  | nil => rfl
  | cons p rest ih => rw [bareProperties, ih, List.map_cons]

theorem names_map_bare :
    Fields.names (properties.map fun p => (p.1, p.2.bare)) = properties.names := by
  rw [Fields.names, List.map_map]
  rfl

theorem get?_map_bare (name : String) :
    Fields.get? (properties.map fun p => (p.1, p.2.bare)) name =
      (properties.get? name).map bare := by
  induction properties with
  | nil => rfl
  | cons p rest ih =>
    rw [List.map_cons, Fields.get?, Fields.get?, ih]
    split <;> rfl

theorem property_map_bare (name : String) :
    property (properties.map fun p => (p.1, p.2.bare)) rest.bare name =
      (property properties rest name).bare := by
  rw [property, property, get?_map_bare]
  cases properties.get? name <;> rfl

theorem element_map_bare (i : Nat) :
    element (front.map bare) rest.bare i = (element front rest i).bare := by
  rw [element, element, List.getElem?_map]
  cases front[i]? <;> rfl

end Parts

@[simp] theorem bare_withNotes (t : DataType) (notes : Annotations) :
    (t.withNotes notes).bare = t.bare := by
  cases t <;> simp [withNotes, bare]

@[simp] theorem withNotes_bare (t : DataType) : t.bare.withNotes {} = t.bare := by
  cases t <;> rfl

@[simp] theorem bare_mergeNotes (t u : DataType) : (t.mergeNotes u).bare = t.bare := by
  unfold mergeNotes
  split
  · rfl
  · exact bare_withNotes t _

@[simp] theorem mergeNotes_bare (t u : DataType) : t.mergeNotes u.bare = t := by
  have h : u.bare.notes.isEmpty = true := by cases u <;> rfl
  exact if_pos h

@[simp] theorem isAny_bare (t : DataType) : t.bare.isAny = t.isAny := by
  cases t <;> rfl

@[simp] theorem isNever_bare (t : DataType) : t.bare.isNever = t.isNever := by
  cases t <;> rfl

@[simp] theorem isUnion_bare (t : DataType) : t.bare.isUnion = t.isUnion := by
  cases t <;> rfl

@[simp] theorem isSingleton_bare (t : DataType) : t.bare.isSingleton = t.isSingleton := by
  cases t with
  | primitive kind notes => cases kind <;> rfl
  | _ => rfl

section Relations

/-- A test that notes do not matter to finds a member of a union with or without them. -/
theorem someMember_bare {test : DataType → Bool} (htest : ∀ u : DataType, test u.bare = test u)
    (t : DataType) : someMember test t.bare = someMember test t := by
  induction t using parts_induction with
  | any | never | literal | primitive | object | array =>
    first
    | rfl
    | exact htest _
  | union ms notes ih =>
    rw [bare, someMember, someMember, someMemberAmong_eq, someMemberAmong_eq, bareEach_eq,
      List.any_map, Bool.eq_iff_iff, List.any_eq_true, List.any_eq_true]
    refine exists_congr fun m => and_congr_right fun hm => ?_
    rw [Function.comp_apply, ih m hm]

theorem objectTest_bare {tests : Fields (DataType → Bool)} {restTest : DataType → Bool}
    {required : List String}
    (htests : ∀ name u,
      (tests.get? name).getD restTest (bare u) = (tests.get? name).getD restTest u)
    (hrest : ∀ u : DataType, restTest u.bare = restTest u) (t : DataType) :
    objectTest tests restTest required t.bare = objectTest tests restTest required t := by
  cases t with
  | object properties rest required' notes =>
    simp only [bare, objectTest, bareProperties_eq, names_map_bare, property_map_bare, hrest,
      htests]
  | _ => rfl

theorem arrayTest_bare {tests : List (DataType → Bool)} {restTest : DataType → Bool}
    {minimum : Nat}
    (htests : ∀ (i : Nat) u, tests[i]?.getD restTest (bare u) = tests[i]?.getD restTest u)
    (hrest : ∀ u : DataType, restTest u.bare = restTest u) (t : DataType) :
    arrayTest tests restTest minimum t.bare = arrayTest tests restTest minimum t := by
  cases t with
  | array front rest minimum' notes =>
    simp only [bare, arrayTest, bareEach_eq, List.length_map, element_map_bare, hrest, htests]
  | _ => rfl

theorem literalTest_bare (value : Json) (t : DataType) :
    literalTest value t.bare = literalTest value t := by
  cases t <;> rfl

theorem primitiveTest_bare (kind : Primitive) (t : DataType) :
    primitiveTest kind t.bare = primitiveTest kind t := by
  cases t <;> rfl

/-- The notes of the greater type do not matter. -/
@[simp] theorem isSubtypeOf_bare_right (t u : DataType) :
    t.isSubtypeOf u.bare = t.isSubtypeOf u := by
  induction t using parts_induction generalizing u with
  | any => exact isAny_bare u
  | never => rfl
  | literal value => exact someMember_bare (literalTest_bare value) u
  | primitive kind =>
    simp only [isSubtypeOf, isUnion_bare, someMember_bare (literalTest_bare _),
      someMember_bare (primitiveTest_bare kind)]
  | object properties rest required notes ihproperties ihrest =>
    refine someMember_bare (objectTest_bare (fun name u => ?_) ihrest) u
    rw [getD_propertyTests]
    rcases property_eq properties rest name with ⟨p, hp, heq⟩ | heq <;> rw [heq]
    · exact ihproperties p hp u
    · exact ihrest u
  | array front rest minimum notes ihfront ihrest =>
    refine someMember_bare (arrayTest_bare (fun i u => ?_) ihrest) u
    rw [getD_frontTests]
    rcases element_eq front rest i with hmem | heq
    · exact ihfront _ hmem u
    · rw [heq, ihrest u]
  | union ms notes ih =>
    simp only [isSubtypeOf, isNever_bare, isAny_bare, allSubtypes_eq]
    congr 2
    rw [Bool.eq_iff_iff, List.all_eq_true, List.all_eq_true]
    refine forall₂_congr fun m hm => ?_
    rw [ih m hm]

theorem propertyTests_eq (properties : List (String × DataType)) :
    propertyTests properties = properties.map fun p => (p.1, p.2.isSubtypeOf) := by
  induction properties with
  | nil => rfl
  | cons p rest ih => rw [propertyTests, ih, List.map_cons]

/-- Nor do those of the lesser one. -/
@[simp] theorem isSubtypeOf_bare_left (t u : DataType) :
    t.bare.isSubtypeOf u = t.isSubtypeOf u := by
  induction t using parts_induction generalizing u with
  | any | never | literal | primitive => rfl
  | object properties rest required notes ihproperties ihrest =>
    have hproperties : propertyTests (bareProperties properties) = propertyTests properties := by
      rw [propertyTests_eq, propertyTests_eq, bareProperties_eq, List.map_map]
      exact List.map_congr_left fun p hp => Prod.ext rfl (funext (ihproperties p hp))
    rw [bare, isSubtypeOf, isSubtypeOf, hproperties, funext ihrest]
  | array front rest minimum notes ihfront ihrest =>
    have hfront : frontTests (bareEach front) = frontTests front := by
      rw [frontTests_eq, frontTests_eq, bareEach_eq, List.map_map]
      exact List.map_congr_left fun m hm => funext (ihfront m hm)
    rw [bare, isSubtypeOf, isSubtypeOf, hfront, funext ihrest]
  | union ms notes ih =>
    simp only [bare, isSubtypeOf, allSubtypes_eq, bareEach_eq, List.all_map]
    congr 2
    rw [Bool.eq_iff_iff, List.all_eq_true, List.all_eq_true]
    refine forall₂_congr fun m hm => ?_
    rw [Function.comp_apply, ih m hm]

@[simp] theorem mayBeNothing_bare (t : DataType) : t.bare.mayBeNothing = t.mayBeNothing :=
  isSubtypeOf_bare_right _ t

/-- Types are equal just if they are without their notes. -/
@[simp] theorem same_bare (t u : DataType) : t.bare.same u.bare = t.same u := by
  induction t using parts_induction generalizing u with
  | any | never | literal | primitive => cases u <;> simp [bare, same]
  | object properties rest required notes ihproperties ihrest =>
    cases u with
    | object others rest' required' notes' =>
      have hproperties : sameProperties (bareProperties properties) (bareProperties others) =
          sameProperties properties others := by
        rw [Bool.eq_iff_iff, sameProperties_iff, sameProperties_iff]
        simp only [bareProperties_eq, List.forall_mem_map, get?_map_bare, Option.map_eq_some_iff,
          exists_exists_and_eq_and]
        refine forall₂_congr fun p hp => exists_congr fun v => and_congr_right fun _ => ?_
        rw [ihproperties p hp v]
      rw [bare, bare, same, same, hproperties, ihrest]
      simp only [bareProperties_eq, List.length_map]
    | _ => simp [bare, same]
  | array front rest minimum notes ihfront ihrest =>
    cases u with
    | array front' rest' minimum' notes' =>
      have hfront : sameFront (bareEach front) (bareEach front') = sameFront front front' := by
        clear ihrest
        induction front generalizing front' with
        | nil => cases front' <;> simp [bareEach, sameFront]
        | cons t ts ih =>
          cases front' with
          | nil => simp [bareEach, sameFront]
          | cons u us =>
            rw [bareEach, bareEach, sameFront, sameFront, ihfront t List.mem_cons_self u,
              ih (fun t ht => ihfront t (List.mem_cons_of_mem _ ht)) us]
      rw [bare, bare, same, same, hfront, ihrest]
    | _ => simp [bare, same]
  | union ms notes ih =>
    cases u with
    | union others notes' =>
      have hmembers : sameMembers (bareEach ms) (bareEach others) = sameMembers ms others := by
        rw [Bool.eq_iff_iff, sameMembers_iff, sameMembers_iff, bareEach_eq, List.forall_mem_map]
        simp only [bareEach_eq, List.mem_map, exists_exists_and_eq_and]
        refine forall₂_congr fun m hm => exists_congr fun v => and_congr_right fun _ => ?_
        rw [ih m hm v]
      rw [bare, bare, same, same, hmembers]
      simp only [bareEach_eq, List.length_map]
    | _ => simp [bare, same]

end Relations

section Build

@[simp] theorem bare_ofObject (properties : Fields DataType) (rest : DataType)
    (required : List String) :
    (ofObject properties rest required).bare =
      ofObject (properties.map fun p => (p.1, p.2.bare)) rest.bare required := by
  simp only [ofObject, property_map_bare, isNever_bare]
  split
  · rfl
  · rw [bare, bareProperties_eq]

@[simp] theorem bare_ofArray (front : List DataType) (rest : DataType) (minimum : Nat) :
    (ofArray front rest minimum).bare = ofArray (front.map bare) rest.bare minimum := by
  have hnever : isNever ∘ bare = isNever := funext isNever_bare
  have hkept : (fun t : DataType => !t.isNever) ∘ bare = fun t => !t.isNever :=
    funext fun t => congrArg not (isNever_bare t)
  simp only [ofArray, ← List.map_take, List.any_map, hnever, isNever_bare, List.takeWhile_map,
    hkept, List.length_map]
  split
  · rfl
  · split <;> simp [bare, bottom]

@[simp] theorem flatten_map_bare (ts : List DataType) :
    flatten (ts.map bare) = (flatten ts).map bare := by
  induction ts with
  | nil => rfl
  | cons t rest ih => cases t <;> simp [flatten, bare, ih]

theorem isTruth_bare (b : Bool) (t : DataType) : t.bare.isTruth b = t.isTruth b := by
  cases t with
  | literal v notes => cases v <;> rfl
  | _ => rfl

theorem joinTruths_map_bare (ts : List DataType) :
    joinTruths (ts.map bare) = (joinTruths ts).map bare := by
  have htruth (b : Bool) : isTruth b ∘ bare = isTruth b := funext (isTruth_bare b)
  simp only [joinTruths, List.any_map, htruth]
  split
  · rw [List.map_append, List.filter_map]
    congr 2
    exact List.filter_congr fun t _ => by simp [isTruth_bare]
  · rfl

theorem absorb?_map_bare (t : DataType) (ts : List DataType) :
    absorb? t.bare (ts.map bare) = (absorb? t ts).map (List.map bare) := by
  induction ts with
  | nil => rfl
  | cons s rest ih =>
    rw [List.map_cons, absorb?, absorb?, isSubtypeOf_bare_left, isSubtypeOf_bare_right]
    split
    · -- What is absorbed leaves its notes only.
      rw [mergeNotes_bare, ite_self, Option.map_some, List.map_cons, apply_ite bare,
        bare_mergeNotes, ite_self]
    · rw [ih, Option.map_map, Option.map_map]
      rfl

theorem addMember_map_bare (ts : List DataType) (t : DataType) :
    addMember (ts.map bare) t.bare = (addMember ts t).map bare := by
  rw [addMember, addMember, absorb?_map_bare]
  cases absorb? t ts with
  | some absorbed => rfl
  | none =>
    dsimp only [Option.map_none]
    rw [List.map_append, List.filter_map]
    congr 2
    exact List.filter_congr fun s _ => by simp

@[simp] theorem bare_unionOf (ts : List DataType) :
    (unionOf ts).bare = unionOf (ts.map bare) := by
  have hany : isAny ∘ bare = isAny := funext isAny_bare
  have hmembers (us found : List DataType) : (us.map bare).foldl addMember (found.map bare) =
      (us.foldl addMember found).map bare := by
    induction us generalizing found with
    | nil => rfl
    | cons u us ih => rw [List.map_cons, List.foldl_cons, addMember_map_bare, ih, List.foldl_cons]
  simp only [unionOf, flatten_map_bare, List.find?_map, hany, joinTruths_map_bare]
  cases (flatten ts).find? isAny with
  | some t => rfl
  | none =>
    dsimp only [Option.map_none]
    have hfound := hmembers (joinTruths (flatten ts)) []
    rw [List.map_nil] at hfound
    rw [hfound]
    rcases (joinTruths (flatten ts)).foldl addMember [] with _ | ⟨t, _ | ⟨u, rest⟩⟩
    · rfl
    · rfl
    · simp [bare]

end Build

section Intersection

variable {self : DataType}

theorem lesser?_bare (t u : DataType) : lesser? t.bare u.bare = (lesser? t u).map bare := by
  simp only [lesser?, isSubtypeOf_bare_left, isSubtypeOf_bare_right, mergeNotes_bare]
  split
  · rw [Option.map_some, bare_mergeNotes]
  · split
    · rw [Option.map_some, bare_mergeNotes]
    · rfl

theorem getD_lesser?_bare (t u v : DataType) :
    (lesser? t.bare u.bare).getD v.bare = ((lesser? t u).getD v).bare := by
  rw [lesser?_bare]
  cases lesser? t u <;> rfl

theorem heedless_meetMembers {meet meet' : DataType → DataType} (t : DataType)
    (h : Heedless meet meet') : Heedless (meetMembers t meet) (meetMembers t.bare meet') := by
  intro u
  induction u using parts_induction with
  | any | never | literal | primitive | object | array =>
    refine Eq.trans ?_ (getD_lesser?_bare t _ _)
    rw [← h _]
    rfl
  | union ms notes ih =>
    refine Eq.trans ?_ (getD_lesser?_bare t _ _)
    have hms : (ms.map bare).map (meetMembers t.bare meet') =
        (ms.map (meetMembers t meet)).map bare := by
      rw [List.map_map, List.map_map]
      exact List.map_congr_left ih
    rw [bare_unionOf, meetEach_eq, ← hms, ← meetEach_eq, ← bareEach_eq]
    rfl

theorem heedless_objectMeet {meets meets' : Fields (DataType → DataType)}
    {restMeet restMeet' : DataType → DataType} {required : List String}
    (hnames : meets'.names = meets.names)
    (hmeets : ∀ name, Heedless ((meets.get? name).getD restMeet)
      ((meets'.get? name).getD restMeet'))
    (hrest : Heedless restMeet restMeet') :
    Heedless (objectMeet self meets restMeet required)
      (objectMeet self.bare meets' restMeet' required) := by
  intro u
  cases u with
  | object properties rest required' notes =>
    have hbare : (object properties rest required' notes).bare =
      object (properties.map fun p => (p.1, p.2.bare)) rest.bare required' {} := by
      rw [bare, bareProperties_eq]
    rw [hbare, objectMeet, objectMeet, ← hbare]
    simp only [bare_mergeNotes, bare_ofObject, mergeNotes_bare, List.map_map, names_map_bare,
      property_map_bare, hnames, hrest rest, hmeets _ _]
    rfl
  | _ => rfl

theorem heedless_arrayMeet {meets meets' : List (DataType → DataType)}
    {restMeet restMeet' : DataType → DataType} {minimum : Nat}
    (hlength : meets'.length = meets.length)
    (hmeets : ∀ i : Nat, Heedless (meets[i]?.getD restMeet) (meets'[i]?.getD restMeet'))
    (hrest : Heedless restMeet restMeet') :
    Heedless (arrayMeet self meets restMeet minimum)
      (arrayMeet self.bare meets' restMeet' minimum) := by
  intro u
  cases u with
  | array front rest minimum' notes =>
    have hbare : (array front rest minimum' notes).bare =
      array (front.map bare) rest.bare minimum' {} := by
      rw [bare, bareEach_eq]
    rw [hbare, arrayMeet, arrayMeet, ← hbare]
    simp only [bare_mergeNotes, bare_ofArray, mergeNotes_bare, List.map_map, List.length_map,
      element_map_bare, hlength, hrest rest, hmeets _ _]
    rfl
  | _ => rfl

theorem propertyMeets_bareProperties (properties : Fields DataType) (rest : DataType)
    (name : String) :
    ((propertyMeets (bareProperties properties)).get? name).getD rest.bare.intersect =
      (property properties rest name).bare.intersect := by
  rw [getD_propertyMeets, bareProperties_eq, property_map_bare]

theorem frontMeets_bareEach (front : List DataType) (rest : DataType) (i : Nat) :
    (frontMeets (bareEach front))[i]?.getD rest.bare.intersect =
      (element front rest i).bare.intersect := by
  rw [getD_frontMeets, bareEach_eq, element_map_bare]

theorem heedless_intersect (t : DataType) : Heedless t.intersect t.bare.intersect := by
  induction t using parts_induction with
  | any | never | literal | primitive => exact heedless_meetMembers _ fun _ => rfl
  | object properties rest required notes ihproperties ihrest =>
    refine heedless_meetMembers _ (heedless_objectMeet ?_ (fun name => ?_) ihrest)
    · rw [names_propertyMeets, names_propertyMeets, bareProperties_eq, names_map_bare]
    · rw [getD_propertyMeets, propertyMeets_bareProperties]
      rcases property_eq properties rest name with ⟨p, hp, heq⟩ | heq <;> rw [heq]
      · exact ihproperties p hp
      · exact ihrest
  | array front rest minimum notes ihfront ihrest =>
    refine heedless_meetMembers _ (heedless_arrayMeet ?_ (fun i => ?_) ihrest)
    · simp only [frontMeets_eq, bareEach_eq, List.length_map]
    · rw [getD_frontMeets, frontMeets_bareEach]
      rcases element_eq front rest i with hmem | heq
      · exact ihfront _ hmem
      · rwa [heq]
  | union ms notes ih =>
    intro u
    refine Eq.trans ?_ (getD_lesser?_bare (union ms notes) u _)
    have hms : (ms.map bare).map (fun t => t.intersect u.bare) =
        (ms.map fun t => t.intersect u).map bare := by
      rw [List.map_map, List.map_map]
      exact List.map_congr_left fun m hm => ih m hm u
    rw [bare_unionOf, intersectEach_eq, ← hms, ← intersectEach_eq, ← bareEach_eq]
    rfl

@[simp] theorem bare_intersect (t u : DataType) : (t.intersect u).bare = t.bare.intersect u.bare :=
  (heedless_intersect t u).symm

end Intersection

section Difference

theorem bare_unlessSubtype (t u : DataType) :
    (unlessSubtype t u).bare = unlessSubtype t.bare u.bare := by
  simp only [unlessSubtype, isSubtypeOf_bare_left, isSubtypeOf_bare_right]
  split <;> rfl

@[simp] theorem bare_subtract (t u : DataType) : (t.subtract u).bare = t.bare.subtract u.bare := by
  induction t using parts_induction with
  | any | never | literal | object | array => exact bare_unlessSubtype _ u
  | primitive kind notes =>
    cases kind with
    | boolean =>
      have hself : (primitive .boolean notes).bare.isSubtypeOf u.bare =
          (primitive .boolean notes).isSubtypeOf u := by
        rw [isSubtypeOf_bare_left, isSubtypeOf_bare_right]
      have htruth (b : Bool) :
          unlessSubtype (ofBool b) u.bare = (unlessSubtype (ofBool b) u).bare :=
        (bare_unlessSubtype (ofBool b) u).symm
      rw [bare] at hself ⊢
      simp only [subtract, hself, htruth, isNever_bare]
      split
      · rfl
      · split
        · rw [bare_mergeNotes, bare_unionOf]
          exact mergeNotes_bare _ (primitive .boolean notes)
        · rfl
    | number | string | null | nothing => exact bare_unlessSubtype _ u
  | union ms notes ih =>
    have hself : (union ms notes).bare.isSubtypeOf u.bare = (union ms notes).isSubtypeOf u := by
      rw [isSubtypeOf_bare_left, isSubtypeOf_bare_right]
    have hms : unionOf (subtractEach (bareEach ms) u.bare) =
        (unionOf (subtractEach ms u)).bare := by
      rw [bare_unionOf, subtractEach_eq, subtractEach_eq, bareEach_eq, List.map_map, List.map_map]
      exact congrArg unionOf (List.map_congr_left fun m hm => (ih m hm).symm)
    rw [bare] at hself ⊢
    simp only [subtract, hself, hms, isNever_bare]
    split
    · rfl
    · split
      · rfl
      · rw [bare_mergeNotes]
        exact mergeNotes_bare _ (union ms notes)

end Difference

end JsonPath.DataType
