import JsonPath.Proofs.DataType.Exact
import JsonPath.Proofs.DataType.Step

/-!
Types that come from known values. Each member of such a type is the type of one of the values, or
the type of both truth values, and then these are among them. Uniting types, stepping inside and
going through all that is inside brings in nothing else, so a type that has been found like this
and that describes the values is equivalent to the union of their types.
-/

namespace JsonPath.DataType

variable {S : NumberSet} {V W : Option Json → Prop} {f : DataType → DataType} {m t u : DataType}
  {ts : List DataType}

/-- The type is that of one of the values, or of both truth values. -/
inductive Tells (S : NumberSet) (V : Option Json → Prop) : DataType → Prop
  | value {v : Option Json} (mem : V v) (numbers : Json.Held S v) : Tells S V (ofValue? v)
  | truths (mem : ∀ b, V (some (.bool b))) : Tells S V (ofPrimitive .boolean)

/-- The type is normal, without notes, and each of its members tells of the values. -/
structure Gathers (S : NumberSet) (V : Option Json → Prop) (t : DataType) : Prop where
  normal : t.Normal S
  plain : t.notes.isEmpty = true
  members : ∀ m ∈ t.members, m.Tells S V

namespace Tells

theorem mono (h : m.Tells S V) (hVW : ∀ v, V v → W v) : m.Tells S W := by
  cases h with
  | value hmem hv => exact .value (hVW _ hmem) hv
  | truths hmem => exact .truths fun b => hVW _ (hmem b)

theorem normal (h : m.Tells S V) : m.Normal S := by
  cases h with
  | value _ hv => exact (standsFor_ofValue? hv).normal
  | truths => exact .primitive

/-- What tells of values is a type of its own, and nothing has been noted about it. -/
theorem isPlain (h : m.Tells S V) : m.isPlain = true ∧ m.notes.isEmpty = true := by
  cases h with
  | truths => exact ⟨rfl, rfl⟩
  | @value v hmem hv =>
    cases v with
    | none => exact ⟨rfl, rfl⟩
    | some v =>
      rw [ofValue?]
      cases v with
      | null | bool | number | string => exact ⟨rfl, rfl⟩
      | array =>
        rw [ofJson_array]
        exact ⟨rfl, rfl⟩
      | object =>
        rw [ofJson_object]
        exact ⟨rfl, rfl⟩

theorem isAny (h : m.Tells S V) : m.isAny = false := by
  have hplain := h.isPlain.1
  cases m <;> first | rfl | cases hplain

/-- A truth value in it is one of the values. -/
theorem truth (h : m.Tells S V) {b : Bool} (hb : isTruth b m = true) : V (some (.bool b)) := by
  obtain ⟨notes, heq⟩ := isTruth_eq_true hb
  cases h with
  | truths => cases heq
  | @value v hmem hv =>
    cases v with
    | none => cases heq
    | some v =>
      rw [ofValue?] at heq
      cases v with
      | bool c =>
        cases heq
        exact hmem
      | null | number | string => cases heq
      | array =>
        rw [ofJson_array] at heq
        cases heq
      | object =>
        rw [ofJson_object] at heq
        cases heq

theorem gathers (h : m.Tells S V) : m.Gathers S V := by
  refine ⟨h.normal, h.isPlain.2, ?_⟩
  have hplain := h.isPlain.1
  cases m with
  | any | never | union => cases hplain
  | literal | primitive | object | array => exact List.forall_mem_singleton.mpr h

end Tells

namespace Gathers

theorem bottom : DataType.bottom.Gathers S V :=
  ⟨.never, rfl, List.forall_mem_nil _⟩

theorem mono (h : t.Gathers S V) (hVW : ∀ v, V v → W v) : t.Gathers S W :=
  ⟨h.normal, h.plain, fun m hm => (h.members m hm).mono hVW⟩

theorem value {v : Json} (hv : v.Over S) (h : V (some v)) : (ofJson v).Gathers S V := by
  have htells : (ofValue? (some v)).Tells S V := .value h hv.held
  exact htells.gathers

end Gathers

section Union

theorem mem_flatten (h : m ∈ flatten ts) : ∃ t ∈ ts, m ∈ t.members := by
  induction ts with
  | nil => cases h
  | cons first rest ih =>
    have hrest (h : m ∈ flatten rest) : ∃ t ∈ first :: rest, m ∈ t.members := by
      obtain ⟨t, ht, hm⟩ := ih h
      exact ⟨t, List.mem_cons_of_mem _ ht, hm⟩
    cases first with
    | never => exact hrest h
    | union =>
      rcases List.mem_append.mp h with h | h
      · exact ⟨_, List.mem_cons_self, h⟩
      · exact hrest h
    | any | literal | primitive | object | array =>
      rcases List.mem_cons.mp h with rfl | h
      · exact ⟨_, List.mem_cons_self, List.mem_cons_self⟩
      · exact hrest h

/-- A type without notes leaves the type that absorbs it as it is. -/
theorem absorb?_eq {absorbed : List DataType} (ht : t.notes.isEmpty = true)
    (h : absorb? t ts = some absorbed) : absorbed = ts := by
  induction ts generalizing absorbed with
  | nil => cases h
  | cons first rest ih =>
    rw [absorb?] at h
    split at h
    · cases h
      rw [mergeNotes, if_pos ht, ite_self]
    · obtain ⟨others, hothers, rfl⟩ := Option.map_eq_some_iff.mp h
      rw [ih hothers]

theorem mem_addMember (ht : t.notes.isEmpty = true) (h : m ∈ addMember ts t) :
    m ∈ ts ∨ m = t := by
  unfold addMember at h
  split at h
  · rename_i heq
    rw [absorb?_eq ht heq] at h
    exact .inl h
  · rcases List.mem_append.mp h with h | h
    · exact .inl (List.mem_filter.mp h).1
    · exact .inr (List.mem_singleton.mp h)

theorem mem_foldl_addMember {found : List DataType} (hts : ∀ t ∈ ts, t.notes.isEmpty = true)
    (h : m ∈ ts.foldl addMember found) : m ∈ found ∨ m ∈ ts := by
  induction ts generalizing found with
  | nil => exact .inl h
  | cons first rest ih =>
    obtain ⟨hfirst, hrest⟩ := List.forall_mem_cons.mp hts
    rcases ih hrest h with h | h
    · rcases mem_addMember hfirst h with h | rfl
      · exact .inl h
      · exact .inr List.mem_cons_self
    · exact .inr (List.mem_cons_of_mem _ h)

theorem Tells.joinTruths (h : ∀ t ∈ ts, t.Tells S V) :
    ∀ t ∈ DataType.joinTruths ts, t.Tells S V := by
  unfold DataType.joinTruths
  split
  · rename_i hboth
    obtain ⟨htrue, hfalse⟩ := Bool.and_eq_true_iff.mp hboth
    refine List.forall_mem_append.mpr ⟨?_, List.forall_mem_singleton.mpr (.truths ?_)⟩
    · intro t ht
      exact h t (List.mem_filter.mp ht).1
    · intro b
      cases b with
      | true =>
        obtain ⟨t, ht, htruth⟩ := List.any_eq_true.mp htrue
        exact (h t ht).truth htruth
      | false =>
        obtain ⟨t, ht, htruth⟩ := List.any_eq_true.mp hfalse
        exact (h t ht).truth htruth
  · exact h

/-- A union of types that come from values comes from them. -/
theorem Gathers.unionOf (h : ∀ t ∈ ts, t.Gathers S V) : (unionOf ts).Gathers S V := by
  have hflat : ∀ m ∈ flatten ts, m.Tells S V := by
    intro m hm
    obtain ⟨t, ht, hmem⟩ := mem_flatten hm
    exact (h t ht).members m hmem
  have hjoined := Tells.joinTruths hflat
  have hmembers : ∀ m ∈ (joinTruths (flatten ts)).foldl addMember [], m.Tells S V := by
    intro m hm
    rcases mem_foldl_addMember (fun t ht => (hjoined t ht).isPlain.2) hm with hm | hm
    · cases hm
    · exact hjoined m hm
  have hnormal : (DataType.unionOf ts).Normal S := normal_unionOf fun t ht => (h t ht).normal
  unfold DataType.unionOf at hnormal ⊢
  dsimp only at hnormal ⊢
  split
  · rename_i t hfind
    have hany := List.find?_some hfind
    rw [(hflat t (List.mem_of_find?_eq_some hfind)).isAny] at hany
    cases hany
  · split
    · exact .bottom
    · rename_i hone
      rw [hone] at hmembers
      exact (hmembers _ List.mem_cons_self).gathers
    · refine ⟨?_, rfl, hmembers⟩
      simpa only [*] using hnormal

theorem Gathers.unionOf_pair (ht : t.Gathers S V) (hu : u.Gathers S V) :
    (DataType.unionOf [t, u]).Gathers S V :=
  .unionOf (List.forall_mem_cons.mpr ⟨ht, List.forall_mem_singleton.mpr hu⟩)

/-- What is made of each member gathers what is made of the whole. -/
theorem Gathers.mapMembers (h : t.Gathers S V) (hnever : ∀ notes, (f (.never notes)).Gathers S W)
    (hf : ∀ m : DataType, m.Tells S V → (f m).Gathers S W) : (mapMembers f t).Gathers S W := by
  have hmember : ∀ m ∈ t.members, (DataType.mapMembers f m).Gathers S W := by
    intro m hm
    have htells := h.members m hm
    have hplain := htells.isPlain.1
    cases m with
    | any | never | union => cases hplain
    | literal | primitive | object | array => exact hf _ htells
  cases t with
  | never => exact hnever _
  | union ms notes =>
    rw [DataType.mapMembers, mapEach_eq]
    apply Gathers.unionOf
    intro u hu
    obtain ⟨m, hm, rfl⟩ := List.mem_map.mp hu
    exact hmember m hm
  | any | literal | primitive | object | array => exact hmember _ List.mem_cons_self

end Union

section Inside

/-- One step inside the values there is what the type tells of there. -/
theorem Tells.memberAt (h : m.Tells S V) (step : Step) :
    (memberAt step m).Gathers S fun w => ∃ v, V v ∧ w = v.bind fun v => v.child? step := by
  have hnothing {v : Option Json} (hv : V v) (hchild : (v.bind fun v => v.child? step) = none) :
      nothing.Gathers S fun w => ∃ v, V v ∧ w = v.bind fun v => v.child? step := by
    have htells : (ofValue? none).Tells S fun w => ∃ v, V v ∧ w = v.bind fun v => v.child? step :=
      .value ⟨v, hv, hchild.symm⟩ Json.held_none
    exact htells.gathers
  cases h with
  | truths hmem => exact hnothing (hmem true) rfl
  | @value v hmem hv =>
    cases v with
    | none => exact hnothing hmem rfl
    | some v =>
      rw [ofValue?]
      cases hv v rfl with
      | null | bool | number | string => exact hnothing hmem rfl
      | @array items hall =>
        rw [ofJson_array]
        cases step with
        | name => exact hnothing hmem rfl
        | index i =>
          simp only [DataType.memberAt, element_map_ofJson]
          cases hitem : items[i]? with
          | none =>
            have hle := List.getElem?_eq_none_iff.mp hitem
            rw [if_neg (Nat.not_lt.mpr hle)]
            exact hnothing hmem hitem
          | some w =>
            obtain ⟨hlt, -⟩ := List.getElem?_eq_some_iff.mp hitem
            rw [if_pos hlt]
            exact .value (hall w (List.mem_of_getElem? hitem)) ⟨_, hmem, hitem.symm⟩
      | @object members hnodup hall =>
        rw [ofJson_object]
        cases step with
        | index => exact hnothing hmem rfl
        | name name =>
          have hrequired : (NameSet.ofList (Fields.names members)).contains name =
              (Fields.get? members name).isSome := by
            rw [Bool.eq_iff_iff, List.contains_iff_mem, NameSet.mem_ofList, Fields.mem_names_iff,
              Option.isSome_iff_exists]
          rw [DataType.memberAt, hrequired, property_map_ofJson]
          cases hmember : Fields.get? members name with
          | none =>
            exact hnothing hmem hmember
          | some w =>
            exact .value (hall _ (Fields.mem_of_get?_eq_some hmember)) ⟨_, hmem, hmember.symm⟩

theorem Gathers.atStep (h : t.Gathers S V) (step : Step) :
    (t.atStep step).Gathers S fun w => ∃ v, V v ∧ w = v.bind fun v => v.child? step :=
  h.mapMembers (fun _ => .bottom) fun _ hm => hm.memberAt step

theorem subtract_of_isAtom (h : t.isAtom = true) : t.subtract u = unlessSubtype t u := by
  cases t with
  | primitive kind =>
    cases kind with
    | boolean => cases h
    | number | string | null | nothing => rfl
  | union => cases h
  | any | never | literal | object | array => rfl

theorem Tells.present (h : m.Tells S V) :
    (m.subtract nothing).Gathers S fun v => V v ∧ v ≠ none := by
  cases h with
  | truths hmem =>
    have htells : (ofPrimitive .boolean).Tells S fun v => V v ∧ v ≠ none :=
      .truths fun b => ⟨hmem b, nofun⟩
    exact htells.gathers
  | @value v hmem hv =>
    rw [subtract_of_isAtom (standsFor_ofValue? hv).atom]
    cases v with
    | none => exact .bottom
    | some v =>
      unfold unlessSubtype
      split
      · exact .bottom
      · exact .value (hv v rfl) ⟨hmem, nofun⟩

theorem Gathers.present (h : t.Gathers S V) : t.present.Gathers S fun v => V v ∧ v ≠ none := by
  have hmembers : ∀ m ∈ t.members, (m.subtract nothing).Gathers S fun v => V v ∧ v ≠ none :=
    fun m hm => (h.members m hm).present
  unfold DataType.present
  cases t with
  | never => exact .bottom
  | union ms notes =>
    have hplain : notes.isEmpty = true := h.plain
    have hleft : (DataType.unionOf (subtractEach ms nothing)).Gathers S
        fun v => V v ∧ v ≠ none := by
      rw [subtractEach_eq]
      apply Gathers.unionOf
      intro u hu
      obtain ⟨m, hm, rfl⟩ := List.mem_map.mp hu
      exact hmembers m hm
    rw [subtract]
    split
    · exact .bottom
    · dsimp only
      rw [mergeNotes, DataType.notes, if_pos hplain, ite_self]
      exact hleft
  | any | literal | primitive | object | array => exact hmembers _ List.mem_cons_self

/-- The values one step inside values. -/
def Below (V : Option Json → Prop) (w : Option Json) : Prop :=
  ∃ v below, V (some v) ∧ below ∈ v.children ∧ w = some below.2

theorem Tells.memberChildren (h : m.Tells S V) : (memberChildren m).Gathers S (Below V) := by
  cases h with
  | truths => exact .bottom
  | @value v hmem hv =>
    cases v with
    | none => exact .bottom
    | some v =>
      rw [ofValue?]
      cases hv v rfl with
      | null | bool | number | string => exact .bottom
      | @array items hall =>
        rw [ofJson_array]
        apply Gathers.unionOf
        refine List.forall_mem_append.mpr ⟨?_, List.forall_mem_singleton.mpr .bottom⟩
        intro t ht
        obtain ⟨item, hitem, rfl⟩ := List.mem_map.mp ht
        obtain ⟨i, hi, rfl⟩ := List.getElem_of_mem hitem
        have hbelow : (Step.index i, items[i]) ∈ (Json.array items).children :=
          List.mem_mapIdx.mpr ⟨i, hi, rfl⟩
        exact .value (hall _ hitem) ⟨_, _, hmem, hbelow, rfl⟩
      | @object members _ hall =>
        rw [ofJson_object]
        apply Gathers.unionOf
        refine List.forall_mem_append.mpr ⟨?_, List.forall_mem_singleton.mpr .bottom⟩
        intro t ht
        obtain ⟨p, hp, rfl⟩ := List.mem_map.mp ht
        obtain ⟨member, hmember, rfl⟩ := List.mem_map.mp hp
        have hbelow : (Step.name member.1, member.2) ∈ (Json.object members).children :=
          List.mem_map.mpr ⟨member, hmember, rfl⟩
        exact .value (hall member hmember) ⟨_, _, hmem, hbelow, rfl⟩

theorem Gathers.children (h : t.Gathers S V) : t.children.Gathers S (Below V) :=
  h.mapMembers (fun _ => .bottom) fun _ hm => hm.memberChildren

/-- The values at any depth inside values. -/
def Inside (V : Option Json → Prop) (w : Option Json) : Prop :=
  ∃ v below u, V (some v) ∧ below ∈ v.children ∧ below.2.Reaches u ∧ w = some u

theorem Gathers.descendantsWithin (n : Nat) (h : t.Gathers S V) :
    (descendantsWithin n t).Gathers S (Inside V) := by
  induction n generalizing t V with
  | zero =>
    refine h.mapMembers (fun _ => .bottom) ?_
    intro m hm
    rw [hm.isAny]
    exact .bottom
  | succ n ih =>
    refine h.mapMembers (fun _ => .bottom) ?_
    intro m hm
    have hinside := hm.memberChildren
    have hchildren : (DataType.memberChildren m).Gathers S (Inside V) := by
      refine hinside.mono ?_
      rintro _ ⟨v, below, hv, hbelow, rfl⟩
      exact ⟨v, below, below.2, hv, hbelow, .here _, rfl⟩
    have hdeeper : (DataType.descendantsWithin n (DataType.memberChildren m)).Gathers S
        (Inside V) := by
      refine (ih hinside).mono ?_
      rintro _ ⟨_, next, u, ⟨v, below, hv, hbelow, heq⟩, hnext, hu, rfl⟩
      cases heq
      exact ⟨v, below, u, hv, hbelow, .child next hnext hu, rfl⟩
    rw [if_neg (Bool.eq_false_iff.mp hm.isAny)]
    dsimp only
    split
    · exact hchildren
    · exact hchildren.unionOf_pair hdeeper

theorem Gathers.descendants (h : t.Gathers S V) : t.descendants.Gathers S (Inside V) :=
  h.descendantsWithin t.depth

end Inside

section Exact

/-- The type is that of the values: it is equivalent to the union of their types, and empty just
if there are none. -/
structure IsTypeOf (t : DataType) (values : List Json) : Prop where
  equivalent : t.equivalent (unionOf (values.map ofJson)) = true
  isNever_iff : t.isNever = true ↔ values = []

/-- A type that comes from values and describes them is the type of the values. -/
theorem Gathers.isTypeOf {values : List Json}
    (h : t.Gathers S fun v => ∃ w ∈ values, v = some w)
    (hvalues : ∀ v ∈ values, v.Over S ∧ t.Describes (some v)) : t.IsTypeOf values := by
  have heach : ∀ u ∈ values.map ofJson, u.Normal S := by
    intro u hu
    obtain ⟨v, hv, rfl⟩ := List.mem_map.mp hu
    exact normal_ofJson (hvalues v hv).1
  have hmember (v : Json) (hv : v ∈ values) :
      (ofJson v).isSubtypeOf (DataType.unionOf (values.map ofJson)) = true :=
    (ordered_normal S).member_unionOf _ heach _ (List.mem_map_of_mem hv)
  have hnone (m : DataType) (hm : m ∈ t.members) : values ≠ [] := by
    rintro rfl
    cases h.members m hm with
    | value hmem =>
      obtain ⟨_, hw, -⟩ := hmem
      cases hw
    | truths hmem =>
      obtain ⟨_, hw, -⟩ := hmem true
      cases hw
  have hbelow : ∀ m ∈ t.members,
      m.isSubtypeOf (DataType.unionOf (values.map ofJson)) = true := by
    intro m hm
    cases h.members m hm with
    | value hmem =>
      obtain ⟨w, hw, rfl⟩ := hmem
      exact hmember w hw
    | truths hmem =>
      have htruth (b : Bool) :
          (ofBool b).isSubtypeOf (DataType.unionOf (values.map ofJson)) = true := by
        obtain ⟨w, hw, heq⟩ := hmem b
        cases heq
        exact hmember _ hw
      exact boolean_isSubtypeOf_iff.mpr ⟨htruth true, htruth false⟩
  constructor
  · refine equivalent_of_isSubtypeOf ?_ ?_
    · cases t with
      | union => exact (union_isSubtypeOf_iff h.normal).mpr hbelow
      | never => rfl
      | any | literal | primitive | object | array => exact hbelow _ List.mem_cons_self
    · refine (unionOf_isSubtypeOf_iff heach h.normal).mpr ?_
      intro u hu
      obtain ⟨v, hv, rfl⟩ := List.mem_map.mp hu
      obtain ⟨hover, hdescribes⟩ := hvalues v hv
      exact ((standsFor_ofJson hover).describes_iff t h.normal).mpr hdescribes
  · constructor
    · intro hnever
      refine List.eq_nil_iff_forall_not_mem.mpr ?_
      intro v hv
      rw [(hvalues v hv).2.isNever] at hnever
      cases hnever
    · rintro rfl
      cases t with
      | never => rfl
      | union ms notes =>
        cases h.normal with
        | union _ _ hnonempty =>
          obtain ⟨m, hm⟩ := List.exists_mem_of_ne_nil _ hnonempty
          exact (hnone m hm rfl).elim
      | any | literal | primitive | object | array => exact (hnone _ List.mem_cons_self rfl).elim

end Exact

end JsonPath.DataType
