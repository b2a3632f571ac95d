import JsonPath.DataType.Step
import JsonPath.Proofs.DataType.Union

/-!
Properties of types that pass to the parts of a type and are kept by functions which build types
from these. Unions of parts are what is found one step inside a type, at a location, or anywhere
inside. The functions which build objects and arrays also give a type that is changed or made
present at a location.
-/

namespace JsonPath.DataType

theorem mapEach_eq (f : DataType → DataType) (ts : List DataType) :
    mapEach f ts = ts.map (mapMembers f) := by
  induction ts with
  | nil => rfl
  | cons t rest ih => rw [mapEach, ih, List.map_cons]

theorem mapAnnotatedEach_eq (f : DataType → DataType) (ts : List DataType) :
    mapAnnotatedEach f ts = ts.map (mapAnnotated f) := by
  induction ts with
  | nil => rfl
  | cons t rest ih => rw [mapAnnotatedEach, ih, List.map_cons]

/-- A property of types that passes to parts and to the unions of types with the property. -/
structure Parted (P : DataType → Prop) : Prop where
  bottom : P bottom
  union : ∀ {ts}, (∀ t ∈ ts, P t) → P (unionOf ts)
  properties : ∀ {properties rest required notes}, P (.object properties rest required notes) →
    ∀ p ∈ properties, P p.2
  others : ∀ {properties rest required notes}, P (.object properties rest required notes) → P rest
  front : ∀ {front rest minimum notes}, P (.array front rest minimum notes) → ∀ t ∈ front, P t
  further : ∀ {front rest minimum notes}, P (.array front rest minimum notes) → P rest
  members : ∀ {members notes}, P (.union members notes) → ∀ t ∈ members, P t

/-- A property of types that passes to parts and is kept where types are built from such parts. -/
structure Rebuilt (P : DataType → Prop) : Prop extends Parted P where
  object : ∀ {properties rest} required, (∀ p ∈ properties, P p.2) → P rest →
    P (ofObject properties rest required)
  array : ∀ {front rest} minimum, (∀ t ∈ front, P t) → P rest → P (ofArray front rest minimum)
  withNotes : ∀ {t} notes, P t → P (t.withNotes notes)

/-- A property of types that passes to what is found inside of them. -/
structure Explored (P : DataType → Prop) : Prop extends Parted P where
  top : P top
  primitive : ∀ kind, P (ofPrimitive kind)

/-- A property of types that the functions which build types keep and that passes to parts. -/
structure Closed (P : DataType → Prop) : Prop extends Rebuilt P, Explored P

variable {P Q : DataType → Prop} {f : DataType → DataType} {t u : DataType}

namespace Parted

theorem and (hP : Parted P) (hQ : Parted Q) : Parted fun t => P t ∧ Q t where
  bottom := ⟨hP.bottom, hQ.bottom⟩
  union h := ⟨hP.union fun t ht => (h t ht).1, hQ.union fun t ht => (h t ht).2⟩
  properties h p hp := ⟨hP.properties h.1 p hp, hQ.properties h.2 p hp⟩
  others h := ⟨hP.others h.1, hQ.others h.2⟩
  front h t ht := ⟨hP.front h.1 t ht, hQ.front h.2 t ht⟩
  further h := ⟨hP.further h.1, hQ.further h.2⟩
  members h t ht := ⟨hP.members h.1 t ht, hQ.members h.2 t ht⟩

theorem pair (hP : Parted P) (ht : P t) (hu : P u) : P (unionOf [t, u]) :=
  hP.union (List.forall_mem_cons.mpr ⟨ht, List.forall_mem_singleton.mpr hu⟩)

theorem property (hP : Parted P) {properties : List (String × DataType)} {rest : DataType}
    {required : List String} {notes : Annotations}
    (h : P (.object properties rest required notes)) (name : String) :
    P (DataType.property properties rest name) := by
  rcases property_eq properties rest name with ⟨p, hp, heq⟩ | heq <;> rw [heq]
  · exact hP.properties h p hp
  · exact hP.others h

theorem element (hP : Parted P) {front : List DataType} {rest : DataType} {minimum : Nat}
    {notes : Annotations} (h : P (.array front rest minimum notes)) (i : Nat) :
    P (DataType.element front rest i) := by
  rcases element_eq front rest i with hmem | heq
  · exact hP.front h _ hmem
  · rw [heq]
    exact hP.further h

theorem mapMembers (hP : Parted P) (hf : ∀ u : DataType, u.isUnion = false → P u → P (f u))
    (t : DataType) (ht : P t) : P (DataType.mapMembers f t) := by
  induction t using parts_induction with
  | union ms notes ih =>
    rw [DataType.mapMembers, mapEach_eq]
    apply hP.union
    intro t' ht'
    obtain ⟨m, hm, rfl⟩ := List.mem_map.mp ht'
    exact ih m hm (hP.members ht m hm)
  | any | never | literal | primitive | object | array => exact hf _ rfl ht

end Parted

namespace Rebuilt

theorem and (hP : Rebuilt P) (hQ : Rebuilt Q) : Rebuilt fun t => P t ∧ Q t where
  toParted := hP.toParted.and hQ.toParted
  object required hprops hrest := ⟨hP.object required (fun p hp => (hprops p hp).1) hrest.1,
    hQ.object required (fun p hp => (hprops p hp).2) hrest.2⟩
  array minimum hfront hrest := ⟨hP.array minimum (fun t ht => (hfront t ht).1) hrest.1,
    hQ.array minimum (fun t ht => (hfront t ht).2) hrest.2⟩
  withNotes notes h := ⟨hP.withNotes notes h.1, hQ.withNotes notes h.2⟩

theorem mergeNotes (hP : Rebuilt P) (ht : P t) : P (t.mergeNotes u) := by
  unfold DataType.mergeNotes
  split
  · exact ht
  · exact hP.withNotes _ ht

section Members

theorem mapAnnotated (hP : Rebuilt P) (hf : ∀ u : DataType, u.isUnion = false → P u → P (f u))
    (t : DataType) (ht : P t) : P (DataType.mapAnnotated f t) := by
  induction t using parts_induction with
  | union ms notes ih =>
    rw [DataType.mapAnnotated, mapAnnotatedEach_eq]
    apply hP.mergeNotes
    apply hP.union
    intro t' ht'
    obtain ⟨m, hm, rfl⟩ := List.mem_map.mp ht'
    exact ih m hm (hP.members ht m hm)
  | any | never | literal | primitive | object | array => exact hf _ rfl ht

end Members

section Locations

theorem forall_mem_insert {properties : Fields DataType} {name : String}
    (hprops : ∀ p ∈ properties, P p.2) (ht : P t) : ∀ p ∈ properties.insert name t, P p.2 := by
  induction properties with
  | nil => exact List.forall_mem_singleton.mpr ht
  | cons p rest ih =>
    obtain ⟨key, old⟩ := p
    obtain ⟨hold, hrest⟩ := List.forall_mem_cons.mp hprops
    rw [Fields.insert]
    split
    · exact List.forall_mem_cons.mpr ⟨ht, hrest⟩
    · exact List.forall_mem_cons.mpr ⟨hold, ih hrest⟩

theorem forall_mem_widen? {front wide : List DataType} {rest : DataType} {i : Nat}
    (h : widen? front rest i = some wide) (hfront : ∀ t ∈ front, P t) (hrest : P rest)
    (ht : P t) : ∀ u ∈ wide.set i t, P u := by
  unfold widen? at h
  split at h
  · cases h
  · cases h
    intro u hu
    rcases List.mem_or_eq_of_mem_set hu with hu | rfl
    · rcases List.mem_append.mp hu with hu | hu
      · exact hfront u hu
      · rw [List.eq_of_mem_replicate hu]
        exact hrest
    · exact ht

theorem changeAt (hP : Rebuilt P) (hf : ∀ u, P u → P (f u)) (l : Location) (t : DataType)
    (ht : P t) : P (DataType.changeAt f l t) := by
  induction l generalizing t with
  | nil => exact hf t ht
  | cons step tail ih =>
    rw [DataType.changeAt]
    refine hP.mapAnnotated ?_ t ht
    intro u _ hu
    cases u with
    | object properties rest required notes =>
      cases step with
      | index => exact hu
      | name name =>
        have hchanged := ih _ (hP.property hu name)
        exact hP.withNotes _
          (hP.object _ (forall_mem_insert (hP.properties hu) hchanged) (hP.others hu))
    | array front rest minimum notes =>
      cases step with
      | name => exact hu
      | index i =>
        have hchanged := ih _ (hP.element hu i)
        dsimp only
        split
        · rename_i hwide
          exact hP.withNotes _ (hP.array _
            (forall_mem_widen? hwide (hP.front hu) (hP.further hu) hchanged) (hP.further hu))
        · exact hP.withNotes _ (hP.array _ (hP.front hu) (hP.pair (hP.further hu) hchanged))
    | any | never | literal | primitive | union => exact hu

theorem presentAt (hP : Rebuilt P) (l : Location) (t : DataType) (ht : P t) :
    P (DataType.presentAt l t) := by
  induction l generalizing t with
  | nil => exact ht
  | cons step tail ih =>
    rw [DataType.presentAt]
    refine hP.mapAnnotated ?_ t ht
    intro u _ hu
    cases u with
    | object properties rest required notes =>
      cases step with
      | index => exact hP.bottom
      | name name =>
        have hpresent := ih _ (hP.property hu name)
        exact hP.withNotes _
          (hP.object _ (forall_mem_insert (hP.properties hu) hpresent) (hP.others hu))
    | array front rest minimum notes =>
      cases step with
      | name => exact hP.bottom
      | index i =>
        have hpresent := ih _ (hP.element hu i)
        dsimp only
        split
        · rename_i hwide
          exact hP.withNotes _ (hP.array _
            (forall_mem_widen? hwide (hP.front hu) (hP.further hu) hpresent) (hP.further hu))
        · split
          · exact hP.bottom
          · exact hu
    | any => exact hu
    | never | literal | primitive | union => exact hP.bottom

end Locations

end Rebuilt

namespace Explored

theorem and (hP : Explored P) (hQ : Explored Q) : Explored fun t => P t ∧ Q t where
  toParted := hP.toParted.and hQ.toParted
  top := ⟨hP.top, hQ.top⟩
  primitive kind := ⟨hP.primitive kind, hQ.primitive kind⟩

section Inside

theorem memberAt (hP : Explored P) (step : Step) (ht : P t) : P (DataType.memberAt step t) := by
  cases t with
  | any => exact hP.top
  | never => exact hP.bottom
  | object properties rest required notes =>
    cases step with
    | index => exact hP.primitive _
    | name name =>
      simp only [DataType.memberAt]
      split
      · exact hP.property ht name
      · exact hP.pair (hP.property ht name) (hP.primitive _)
  | array front rest minimum notes =>
    cases step with
    | name => exact hP.primitive _
    | index i =>
      simp only [DataType.memberAt]
      split
      · exact hP.element ht i
      · exact hP.pair (hP.element ht i) (hP.primitive _)
  | literal | primitive | union => exact hP.primitive _

theorem atStep (hP : Explored P) (step : Step) (ht : P t) : P (t.atStep step) :=
  hP.mapMembers (fun _ _ => hP.memberAt step) t ht

theorem atLocation (hP : Explored P) (l : Location) (ht : P t) : P (t.atLocation l) := by
  induction l generalizing t with
  | nil => exact ht
  | cons step tail ih => exact ih (hP.atStep step ht)

theorem memberChildren (hP : Explored P) (ht : P t) : P (DataType.memberChildren t) := by
  cases t with
  | any => exact hP.top
  | object properties rest required notes =>
    apply hP.union
    refine List.forall_mem_append.mpr ⟨?_, List.forall_mem_singleton.mpr (hP.others ht)⟩
    intro u hu
    obtain ⟨p, hp, rfl⟩ := List.mem_map.mp hu
    exact hP.properties ht p hp
  | array front rest minimum notes =>
    exact hP.union
      (List.forall_mem_append.mpr ⟨hP.front ht, List.forall_mem_singleton.mpr (hP.further ht)⟩)
  | never | literal | primitive | union => exact hP.bottom

theorem children (hP : Explored P) (ht : P t) : P t.children :=
  hP.mapMembers (fun _ _ => hP.memberChildren) t ht

theorem descendantsWithin (hP : Explored P) (n : Nat) (ht : P t) :
    P (DataType.descendantsWithin n t) := by
  induction n generalizing t with
  | zero =>
    refine hP.mapMembers ?_ t ht
    intro u _ _
    split
    · exact hP.top
    · exact hP.bottom
  | succ n ih =>
    refine hP.mapMembers ?_ t ht
    intro u _ hu
    have hinside := hP.memberChildren hu
    split
    · exact hP.top
    · dsimp only
      split
      · exact hinside
      · exact hP.pair hinside (ih hinside)

theorem descendants (hP : Explored P) (ht : P t) : P t.descendants :=
  hP.descendantsWithin t.depth ht

end Inside

end Explored

theorem over_closed (S : NumberSet) : Closed (Over S) where
  top := .any
  bottom := .never
  primitive _ := .primitive
  object _ := over_ofObject
  array _ := over_ofArray
  union := over_unionOf
  withNotes _ := over_withNotes.mpr
  properties h := by
    cases h with
    | object hprops => exact hprops
  others h := by
    cases h with
    | object _ hrest => exact hrest
  front h := by
    cases h with
    | array hfront => exact hfront
  further h := by
    cases h with
    | array _ hrest => exact hrest
  members := over_unionClosed.members

end JsonPath.DataType
