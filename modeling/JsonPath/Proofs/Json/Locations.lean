import JsonPath.Location.Pointer
import JsonPath.Proofs.Json.Same

/-!
The locations of a document. There are no more of them than values in the document, and what is at
a location of a document without repeated names has no repeated names either.
-/

namespace JsonPath.Json

mutual

/-- The locations of a value and of all that is inside. -/
def locations : Json → List Location
  | .array items => [] :: itemLocations 0 items
  | .object members => [] :: memberLocations members
  | _ => [[]]

def itemLocations (i : Nat) : List Json → List Location
  | [] => []
  | item :: rest => item.locations.map (.index i :: ·) ++ itemLocations (i + 1) rest

def memberLocations : List (String × Json) → List Location
  | [] => []
  | (name, value) :: rest => value.locations.map (.name name :: ·) ++ memberLocations rest

end

mutual

theorem length_locations : (v : Json) → v.locations.length = v.size
  | .array items => by
    rw [locations, size, List.length_cons, length_itemLocations 0 items, Nat.add_comm]
  | .object members => by
    rw [locations, size, List.length_cons, length_memberLocations members, Nat.add_comm]
  | .null | .bool _ | .number _ | .string _ => rfl

theorem length_itemLocations (i : Nat) :
    (items : List Json) → (itemLocations i items).length = sizeItems items
  | [] => rfl
  | item :: rest => by
    rw [itemLocations, sizeItems, List.length_append, List.length_map, length_locations item,
      length_itemLocations (i + 1) rest]

theorem length_memberLocations :
    (members : List (String × Json)) → (memberLocations members).length = sizeMembers members
  | [] => rfl
  | (name, value) :: rest => by
    rw [memberLocations, sizeMembers, List.length_append, List.length_map, length_locations value,
      length_memberLocations rest]

end

theorem mem_itemLocations {items : List Json} {i j : Nat} {item : Json} {l : Location}
    (hitem : items[j]? = some item) (hl : l ∈ item.locations) :
    .index (i + j) :: l ∈ itemLocations i items := by
  induction items generalizing i j with
  | nil => cases hitem
  | cons first rest ih =>
    rw [itemLocations, List.mem_append]
    cases j with
    | zero =>
      cases hitem
      exact .inl (List.mem_map_of_mem hl)
    | succ j =>
      have hrest := @ih (i + 1) j hitem
      rw [Nat.add_assoc, Nat.add_comm 1 j] at hrest
      exact .inr hrest

theorem mem_memberLocations {members : List (String × Json)} {name : String} {value : Json}
    {l : Location} (hmember : (name, value) ∈ members) (hl : l ∈ value.locations) :
    .name name :: l ∈ memberLocations members := by
  induction members with
  | nil => cases hmember
  | cons member rest ih =>
    obtain ⟨key, first⟩ := member
    rw [memberLocations, List.mem_append]
    rcases List.mem_cons.mp hmember with h | h
    · cases h
      exact .inl (List.mem_map_of_mem hl)
    · exact .inr (ih h)

theorem mem_locations {v w : Json} {l : Location} (h : v.at? l = some w) : l ∈ v.locations := by
  induction l generalizing v with
  | nil => cases v <;> simp [locations]
  | cons step rest ih =>
    rw [at?, Option.bind_eq_some_iff] at h
    obtain ⟨child, hchild, hrest⟩ := h
    have hmem := ih hrest
    cases v with
    | array items =>
      cases step with
      | index i =>
        have hitem := @mem_itemLocations items 0 i child rest hchild hmem
        rw [Nat.zero_add] at hitem
        exact List.mem_cons_of_mem _ hitem
      | name => cases hchild
    | object members =>
      cases step with
      | index => cases hchild
      | name name =>
        exact List.mem_cons_of_mem _
          (mem_memberLocations (Fields.mem_of_get?_eq_some hchild) hmem)
    | null | bool | number | string => cases hchild

/-- A document has no more locations than values. -/
theorem length_le_size {v : Json} {ls : List Location} (hls : ls.Nodup)
    (h : ∀ l ∈ ls, ∃ w, v.at? l = some w) : ls.length ≤ v.size := by
  rw [← length_locations]
  refine hls.length_le_of_subset ?_
  intro l hl
  obtain ⟨w, hw⟩ := h l hl
  exact mem_locations hw

theorem mem_children_of_child? {v w : Json} {step : Step} (h : v.child? step = some w) :
    (step, w) ∈ v.children := by
  cases v with
  | array items =>
    cases step with
    | index i =>
      obtain ⟨hi, hw⟩ := List.getElem?_eq_some_iff.mp h
      exact List.mem_mapIdx.mpr ⟨i, hi, by rw [hw]⟩
    | name => cases h
  | object members =>
    cases step with
    | index => cases h
    | name name => exact List.mem_map.mpr ⟨_, Fields.mem_of_get?_eq_some h, rfl⟩
  | null | bool | number | string => cases h

/-- What passes from the children of a value to the value holds of all values. -/
theorem children_induction {motive : Json → Prop}
    (step : ∀ v : Json, (∀ below ∈ v.children, motive below.2) → motive v) (v : Json) :
    motive v := by
  induction v using parts_induction with
  | null | bool | number | string => exact step _ (List.forall_mem_nil _)
  | array items ih =>
    refine step _ fun below hbelow => ?_
    obtain ⟨i, hi, rfl⟩ := List.mem_mapIdx.mp hbelow
    exact ih _ (List.getElem_mem hi)
  | object members ih =>
    refine step _ fun below hbelow => ?_
    obtain ⟨member, hmember, rfl⟩ := List.mem_map.mp hbelow
    exact ih member hmember

section WellFormed

variable {v w : Json}

/-- The children are what is found one step inside. -/
theorem WellFormed.mem_children_iff {below : Step × Json} (hv : v.WellFormed) :
    below ∈ v.children ↔ v.child? below.1 = some below.2 := by
  refine ⟨fun h => ?_, mem_children_of_child?⟩
  cases v with
  | array items =>
    obtain ⟨i, hi, rfl⟩ := List.mem_mapIdx.mp h
    exact List.getElem?_eq_getElem hi
  | object members =>
    obtain ⟨member, hmember, rfl⟩ := List.mem_map.mp h
    exact Fields.get?_eq_some_of_mem hv.1 hmember
  | null | bool | number | string => cases h

/-- No two children are the same step inside the value. -/
theorem WellFormed.pairwise_children (hv : v.WellFormed) :
    v.children.Pairwise fun a b => a.1 ≠ b.1 := by
  cases v with
  | array items =>
    rw [children, List.pairwise_iff_getElem]
    intro i j hi hj hij
    simp only [List.getElem_mapIdx, ne_eq, Step.index.injEq]
    omega
  | object members =>
    have hnames := hv.1
    rw [Fields.names, List.nodup_iff_pairwise_ne, List.pairwise_map] at hnames
    rw [children, List.pairwise_map]
    exact hnames.imp fun hne heq => hne (Step.name.inj heq)
  | null | bool | number | string => exact .nil

theorem WellFormed.child? {step : Step} (hv : v.WellFormed) (h : v.child? step = some w) :
    w.WellFormed := by
  cases v with
  | array items =>
    cases step with
    | index => exact wellFormedItems_iff.mp hv w (List.mem_of_getElem? h)
    | name => cases h
  | object members =>
    cases step with
    | index => cases h
    | name => exact wellFormedMembers_iff.mp hv.2 _ (Fields.mem_of_get?_eq_some h)
  | null | bool | number | string => cases h

theorem WellFormed.at? {l : Location} (hv : v.WellFormed) (h : v.at? l = some w) :
    w.WellFormed := by
  induction l generalizing v with
  | nil =>
    cases h
    exact hv
  | cons step rest ih =>
    rw [Json.at?, Option.bind_eq_some_iff] at h
    obtain ⟨child, hchild, hrest⟩ := h
    exact ih (hv.child? hchild) hrest

end WellFormed

/-- What a pointer leads to is at the location that it leads to. -/
theorem at?_of_follow? {v w : Json} {parts : List (List Char)} {l : Location}
    (h : Pointer.follow? v parts = some (l, w)) : v.at? l = some w := by
  induction parts generalizing v l with
  | nil =>
    cases h
    rfl
  | cons part rest ih =>
    simp only [Pointer.follow?, Option.bind_eq_bind, Option.bind_eq_some_iff] at h
    obtain ⟨step, -, child, hchild, ⟨location, found⟩, hrest, heq⟩ := h
    cases heq
    rw [at?, hchild]
    exact ih hrest

theorem at?_of_pointer? {v w : Json} {pointer : List Char} {l : Location}
    (h : v.pointer? pointer = some (l, w)) : v.at? l = some w := by
  unfold pointer? at h
  split at h
  · cases h
    rfl
  · exact at?_of_follow? h
  · cases h

end JsonPath.Json
