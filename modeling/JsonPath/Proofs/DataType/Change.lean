import JsonPath.Proofs.DataType.Distinct
import JsonPath.Proofs.DataType.Location
import JsonPath.Proofs.DataType.Membership

/-!
What is changed at a location and then looked up there. Objects and arrays that require every
step of the location have nothing else to tell of what is found there, so that it is what the
change has made of what was there before. If the change leaves nothing possible, then the parts
that require it are impossible as well, up to the whole type, and nothing is found in that.
-/

namespace JsonPath.DataType

variable {S : NumberSet} {f : DataType → DataType} {t u : DataType} {l : Location}

section Factories

variable {properties : Fields DataType} {front : List DataType} {rest : DataType}
  {required : List String} {minimum : Nat}

/-- Objects that require what is impossible are impossible. -/
theorem ofObject_eq_bottom {name : String} (hname : name ∈ required)
    (h : (property properties rest name).isNever = true) :
    ofObject properties rest required = bottom := by
  unfold ofObject
  dsimp only
  rw [if_pos]
  exact List.any_eq_true.mpr ⟨name, (NameSet.mem_ofList _ _).mpr hname, h⟩

theorem ofArray_eq_bottom {i : Nat} (hi : i < minimum)
    (h : (element front rest i).isNever = true) : ofArray front rest minimum = bottom := by
  unfold ofArray
  dsimp only
  rw [if_pos]
  by_cases hfront : i < front.length
  · have hfirst : (front.take minimum).any isNever = true := by
      rw [element, List.getElem?_eq_getElem hfront] at h
      exact List.any_eq_true.mpr ⟨front[i], List.mem_take_iff_getElem.mpr ⟨i, by omega, rfl⟩, h⟩
    rw [hfirst, Bool.true_or]
  · rw [element_of_le (Nat.le_of_not_lt hfront)] at h
    have hshort : decide (front.length < minimum) = true := decide_eq_true (by omega)
    rw [hshort, h, Bool.true_and, Bool.or_true]

/-- Arrays whose required elements are all possible keep the types of these elements. They lose
only what is behind an impossible one. -/
theorem exists_ofArray_eq (h : ∀ i < minimum, (element front rest i).isNever = false) :
    ∃ front' rest', ofArray front rest minimum = array front' rest' minimum {} ∧
      front' ⊆ front ∧ (rest' = rest ∨ rest' = bottom) ∧
        ∀ i < minimum, element front' rest' i = element front rest i := by
  have hpossible : ¬ ((front.take minimum).any isNever ||
      (decide (front.length < minimum) && rest.isNever)) = true := by
    intro hbottom
    obtain ⟨i, hi, hnever⟩ := exists_isNever_element hbottom
    rw [h i hi] at hnever
    cases hnever
  unfold ofArray
  dsimp only
  rw [if_neg hpossible]
  split
  · rename_i hlt
    refine ⟨_, _, rfl, (List.takeWhile_sublist _).subset, .inr rfl, ?_⟩
    intro i hi
    apply element_takeWhile
    -- the first impossible element lies behind all that are required
    apply Nat.lt_of_lt_of_le hi
    apply Nat.le_of_not_lt
    intro hend
    have hnever := isNever_of_takeWhile_lt rest hlt
    rw [h _ hend] at hnever
    cases hnever
  · exact ⟨_, _, rfl, List.Subset.refl _, .inl rfl, fun _ _ => rfl⟩

end Factories

section Possible

/-- Nothing that an object or an array requires is impossible, at any depth. -/
inductive Possible : DataType → Prop
  | any {notes : Annotations} : Possible (.any notes)
  | never {notes : Annotations} : Possible (.never notes)
  | literal {v : Json} {notes : Annotations} : Possible (.literal v notes)
  | primitive {kind : Primitive} {notes : Annotations} : Possible (.primitive kind notes)
  | object {properties : List (String × DataType)} {rest : DataType} {required : List String}
      {notes : Annotations} (each : ∀ p ∈ properties, Possible p.2) (others : Possible rest)
      (possible : ∀ name ∈ required, (property properties rest name).isNever = false) :
      Possible (.object properties rest required notes)
  | array {front : List DataType} {rest : DataType} {minimum : Nat} {notes : Annotations}
      (each : ∀ t ∈ front, Possible t) (others : Possible rest)
      (possible : ∀ i < minimum, (element front rest i).isNever = false) :
      Possible (.array front rest minimum notes)
  | union {members : List DataType} {notes : Annotations} (each : ∀ t ∈ members, Possible t) :
      Possible (.union members notes)

theorem possible_withNotes {notes : Annotations} (h : t.Possible) :
    (t.withNotes notes).Possible := by
  cases h <;> constructor <;> assumption

theorem possible_unionClosed : UnionClosed Possible where
  members h := by
    cases h with
    | union heach => exact heach
  union := .union
  boolean := .primitive
  bottom := .never
  mergeNotes h := by
    unfold mergeNotes
    split
    · exact h
    · exact possible_withNotes h

theorem possible_ofObject {properties : Fields DataType} {rest : DataType}
    (required : List String) (hprops : ∀ p ∈ properties, p.2.Possible) (hrest : rest.Possible) :
    (ofObject properties rest required).Possible := by
  by_cases h : ∃ name ∈ required, (property properties rest name).isNever = true
  · obtain ⟨name, hname, hnever⟩ := h
    rw [ofObject_eq_bottom hname hnever]
    exact .never
  · have hpossible : ∀ name ∈ required, (property properties rest name).isNever = false :=
      fun name hname => eq_false_of_ne_true fun hnever => h ⟨name, hname, hnever⟩
    rw [ofObject_eq hpossible]
    refine .object hprops hrest ?_
    intro name hname
    exact hpossible name ((NameSet.mem_ofList _ _).mp hname)

theorem possible_ofArray {front : List DataType} {rest : DataType} (minimum : Nat)
    (hfront : ∀ t ∈ front, t.Possible) (hrest : rest.Possible) :
    (ofArray front rest minimum).Possible := by
  by_cases h : ∃ i < minimum, (element front rest i).isNever = true
  · obtain ⟨i, hi, hnever⟩ := h
    rw [ofArray_eq_bottom hi hnever]
    exact .never
  · have hpossible : ∀ i < minimum, (element front rest i).isNever = false :=
      fun i hi => eq_false_of_ne_true fun hnever => h ⟨i, hi, hnever⟩
    obtain ⟨front', rest', heq, hsubset, hrest', helement⟩ := exists_ofArray_eq hpossible
    rw [heq]
    refine .array (fun t ht => hfront t (hsubset ht)) ?_ ?_
    · rcases hrest' with rfl | rfl
      · exact hrest
      · exact .never
    · intro i hi
      rw [helement i hi]
      exact hpossible i hi

theorem possible_ofJson (v : Json) : (ofJson v).Possible := by
  induction v using Json.parts_induction with
  | null => exact .primitive
  | bool | number | string => exact .literal
  | array items ih =>
    rw [ofJson, ofItems_eq]
    exact possible_ofArray _ (List.forall_mem_map.mpr ih) .never
  | object members ih =>
    rw [ofJson, ofMembers_eq]
    exact possible_ofObject _ (List.forall_mem_map.mpr ih) .never

theorem possible_closed : Closed Possible where
  top := .any
  bottom := .never
  primitive _ := .primitive
  object := possible_ofObject
  array := possible_ofArray
  union := possible_unionClosed.unionOf
  withNotes _ := possible_withNotes
  properties h := by
    cases h with
    | object heach _ _ => exact heach
  others h := by
    cases h with
    | object _ hothers _ => exact hothers
  front h := by
    cases h with
    | array heach _ _ => exact heach
  further h := by
    cases h with
    | array _ hothers _ => exact hothers
  members := possible_unionClosed.members

theorem Made.possible (h : t.Made) : t.Possible := by
  induction h with
  | top => exact .any
  | bottom => exact .never
  | primitive => exact .primitive
  | ofJson v => exact possible_ofJson v
  | ofObject required _ _ iheach ihothers => exact possible_ofObject required iheach ihothers
  | ofArray minimum _ _ iheach ihothers => exact possible_ofArray minimum iheach ihothers
  | unionOf _ ih => exact possible_unionClosed.unionOf ih
  | withNotes notes _ ih => exact possible_withNotes ih

theorem Normal.possible (h : t.Normal S) : t.Possible := by
  induction h with
  | any => exact .any
  | never => exact .never
  | literal => exact .literal
  | primitive => exact .primitive
  | object _ _ hpossible ihprops ihrest => exact .object ihprops ihrest hpossible
  | array heach hothers hpresent hpossible ihfront ihrest =>
    have hnormal : (DataType.array _ _ _ {}).Normal S := .array heach hothers hpresent hpossible
    exact .array ihfront ihrest fun i hi => hnormal.isNever_element hi
  | union _ _ _ ih => exact .union ih

/-- The types that come from the functions which build types are possible in this sense. -/
theorem Built.possible (h : t.Built S) : t.Possible := h.normal.possible

end Possible

section Locations

/-- Objects and arrays, one inside the other, that require what is at each step of a location. An
element is close enough to those that are described to get a type of its own. -/
inductive Requires : DataType → Location → Prop
  | here {t : DataType} : Requires t []
  | member {properties : List (String × DataType)} {rest : DataType} {required : List String}
      {notes : Annotations} {name : String} {tail : Location} (mem : name ∈ required)
      (inside : Requires (property properties rest name) tail) :
      Requires (.object properties rest required notes) (.name name :: tail)
  | item {front : List DataType} {rest : DataType} {minimum : Nat} {notes : Annotations} {i : Nat}
      {tail : Location} (enough : i < minimum) (near : i < front.length + growth)
      (inside : Requires (element front rest i) tail) :
      Requires (.array front rest minimum notes) (.index i :: tail)

/-- The types are one type, or both are impossible. -/
def Alike (t u : DataType) : Prop := t = u ∨ t.isNever = true ∧ u.isNever = true

theorem Alike.same (h : t.Alike u) (hu : u.Distinct) : t.same u = true := by
  rcases h with rfl | ⟨ht, hu⟩
  · exact hu.same_self
  · obtain ⟨notes, rfl⟩ := isNever_eq_true ht
    obtain ⟨notes', rfl⟩ := isNever_eq_true hu
    simp [DataType.same]

theorem Alike.isNever (h : t.Alike u) (ht : t.isNever = true) : u.isNever = true := by
  rcases h with rfl | ⟨-, hu⟩
  · exact ht
  · exact hu

/-- Nothing is found in what is impossible. -/
theorem isNever_atLocation (h : t.isNever = true) (l : Location) :
    (t.atLocation l).isNever = true := by
  induction l generalizing t with
  | nil => exact h
  | cons step tail ih =>
    obtain ⟨notes, rfl⟩ := isNever_eq_true h
    exact ih rfl

variable {required : List String} {minimum : Nat} {notes : Annotations} {tail : Location}

theorem atLocation_object {properties : Fields DataType} {rest : DataType} {name : String}
    (hname : name ∈ required) :
    (object properties rest required notes).atLocation (.name name :: tail) =
      (property properties rest name).atLocation tail := by
  have hstep : (object properties rest required notes).atStep (.name name) =
      property properties rest name := if_pos (List.contains_iff_mem.mpr hname)
  rw [atLocation, List.foldl_cons, hstep, atLocation]

theorem atLocation_array {front : List DataType} {rest : DataType} {i : Nat} (hi : i < minimum) :
    (array front rest minimum notes).atLocation (.index i :: tail) =
      (element front rest i).atLocation tail := by
  have hstep : (array front rest minimum notes).atStep (.index i) = element front rest i :=
    if_pos hi
  rw [atLocation, List.foldl_cons, hstep, atLocation]

/-- An object type whose required property is changed: it is impossible if the property becomes so,
and has the changed property if not. -/
theorem atLocation_ofObject_insert {properties : Fields DataType} {rest : DataType} {name : String}
    (h : (object properties rest required notes).Possible) (hname : name ∈ required)
    (hinside : (t.atLocation tail).Alike u) :
    (((ofObject (properties.insert name t) rest required).withNotes notes).atLocation
      (.name name :: tail)).Alike u := by
  have hproperty := property_insert properties rest t name
  cases hnever : t.isNever with
  | true =>
    have hbottom : ofObject (properties.insert name t) rest required = bottom := by
      apply ofObject_eq_bottom hname
      rw [hproperty, if_pos rfl]
      exact hnever
    rw [hbottom]
    exact .inr ⟨isNever_atLocation rfl _, hinside.isNever (isNever_atLocation hnever tail)⟩
  | false =>
    have hpossible : ∀ other ∈ required,
        (property (properties.insert name t) rest other).isNever = false := by
      intro other hother
      rw [hproperty]
      split
      · exact hnever
      · cases h with
        | object _ _ hpossible => exact hpossible other hother
    rw [ofObject_eq hpossible, DataType.withNotes,
      atLocation_object ((NameSet.mem_ofList _ _).mpr hname), hproperty, if_pos rfl]
    exact hinside

theorem atLocation_ofArray_set {front wide : List DataType} {rest : DataType} {i : Nat}
    (h : (array front rest minimum notes).Possible) (hi : i < minimum)
    (hwide : widen? front rest i = some wide) (hinside : (t.atLocation tail).Alike u) :
    (((ofArray (wide.set i t) rest minimum).withNotes notes).atLocation
      (.index i :: tail)).Alike u := by
  have helement := element_widen? hwide t
  cases hnever : t.isNever with
  | true =>
    have hbottom : ofArray (wide.set i t) rest minimum = bottom := by
      apply ofArray_eq_bottom hi
      rw [helement, if_pos rfl]
      exact hnever
    rw [hbottom]
    exact .inr ⟨isNever_atLocation rfl _, hinside.isNever (isNever_atLocation hnever tail)⟩
  | false =>
    have hpossible : ∀ j < minimum, (element (wide.set i t) rest j).isNever = false := by
      intro j hj
      rw [helement]
      split
      · exact hnever
      · cases h with
        | array _ _ hpossible => exact hpossible j hj
    obtain ⟨front', rest', heq, -, -, hkept⟩ := exists_ofArray_eq hpossible
    rw [heq, DataType.withNotes, atLocation_array hi, hkept i hi, helement, if_pos rfl]
    exact hinside

/-- What is changed at a location is found there, or the change has left nothing possible. -/
theorem Requires.alike (hl : t.Requires l) (ht : t.Possible) (f : DataType → DataType) :
    ((changeAt f l t).atLocation l).Alike (f (t.atLocation l)) := by
  induction hl with
  | here => exact .inl rfl
  | @member properties rest required notes name tail hname _ ih =>
    rw [atLocation_object hname]
    exact atLocation_ofObject_insert ht hname (ih (possible_closed.property ht name))
  | @item front rest minimum notes i tail hi hnear _ ih =>
    rw [atLocation_array hi]
    have hinside := ih (possible_closed.element ht i)
    have hwide : widen? front rest i =
        some (front ++ List.replicate (i + 1 - front.length) rest) :=
      if_neg (Nat.not_le_of_lt hnear)
    have hchange : changeAt f (.index i :: tail) (array front rest minimum notes) =
        (ofArray ((front ++ List.replicate (i + 1 - front.length) rest).set i
          (changeAt f tail (element front rest i))) rest minimum).withNotes notes := by
      rw [changeAt, mapAnnotated_of_isUnion rfl]
      dsimp only
      rw [hwide]
    rw [hchange]
    exact atLocation_ofArray_set ht hi hwide hinside

/-- To look up what was changed at a location that a type requires gives what the change made of
what was there, even if the change leaves nothing possible. -/
theorem same_atLocation_changeAt (ht : t.Possible) (hl : t.Requires l)
    (hf : (f (t.atLocation l)).Distinct) :
    ((changeAt f l t).atLocation l).same (f (t.atLocation l)) = true :=
  (hl.alike ht f).same hf

/-- Texts named `sizes` next to numbers in an array of at least three. -/
def sizeTable : DataType :=
  ofObject [("sizes", ofArray [ofPrimitive .string] (ofPrimitive .number) 3)] top ["sizes"]

/-- The last of the sizes that are required. -/
def lastSize : Location := [.name "sizes", .index 2]

theorem same_atLocation_changeAt_sizes :
    sizeTable.Possible ∧ sizeTable.Requires lastSize ∧
      ((changeAt (fun t => unionOf [t, ofPrimitive .null]) lastSize sizeTable).atLocation
        lastSize).same (unionOf [ofPrimitive .number, ofPrimitive .null]) = true ∧
      ((changeAt (fun _ => bottom) lastSize sizeTable).atLocation lastSize).same bottom = true := by
  have hsizes : (ofArray [ofPrimitive .string] (ofPrimitive .number) 3).Made :=
    .ofArray 3 (List.forall_mem_singleton.mpr (.primitive _)) (.primitive _)
  have hpossible : sizeTable.Possible :=
    (Made.ofObject _ (List.forall_mem_singleton.mpr hsizes) .top).possible
  have hrequires : sizeTable.Requires lastSize :=
    .member (List.mem_singleton.mpr rfl) (.item (by decide) (by decide) .here)
  have hlast : sizeTable.atLocation lastSize = ofPrimitive .number := rfl
  refine ⟨hpossible, hrequires, ?_, same_atLocation_changeAt hpossible hrequires .never⟩
  rw [← hlast]
  exact same_atLocation_changeAt hpossible hrequires
    (distinct_unionClosed.unionOf (forall_mem_pair .primitive .primitive))

end Locations

end JsonPath.DataType
