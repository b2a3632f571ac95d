import JsonPath.Proofs.DataType.Exact
import JsonPath.Proofs.DataType.Occurrence

/-!
Types that describe a value. A type in normal form that is not the empty type describes some value,
if it does not speak of the absence of one: what an object or an array requires is possible, so that
a value of each required part can be taken. The test for the empty type thus tells which types
describe nothing, and through their intersection which types have no value in common.
-/

namespace JsonPath

/-- Values of the given names exist together if each of them exists. -/
theorem Fields.exists_of_forall {α : Type} {names : List String} {p : String → α → Prop}
    (h : ∀ name ∈ names, ∃ value, p name value) :
    ∃ fields : Fields α, fields.names.Nodup ∧ (∀ name, name ∈ fields.names ↔ name ∈ names) ∧
      ∀ name value, fields.get? name = some value → p name value := by
  induction names with
  | nil => exact ⟨[], List.nodup_nil, fun _ => Iff.rfl, nofun⟩
  | cons first rest ih =>
    obtain ⟨⟨value, hvalue⟩, hrest⟩ := List.forall_mem_cons.mp h
    obtain ⟨fields, hnodup, hnames, hall⟩ := ih hrest
    by_cases hfirst : first ∈ fields.names
    · refine ⟨fields, hnodup, ?_, hall⟩
      intro name
      rw [hnames, List.mem_cons, iff_or_self]
      rintro rfl
      exact (hnames name).mp hfirst
    · refine ⟨(first, value) :: fields, List.nodup_cons.mpr ⟨hfirst, hnodup⟩, ?_, ?_⟩
      · intro name
        rw [Fields.names, List.map_cons, List.mem_cons, List.mem_cons, ← hnames, Fields.names]
      · intro name other hother
        rw [Fields.get?] at hother
        split at hother
        · rename_i hname
          obtain rfl := Option.some.inj hother
          obtain rfl := hname
          exact hvalue
        · exact hall name other hother

/-- Items at the first positions exist together if each of them exists. -/
theorem exists_items_of_forall {α : Type} {n : Nat} {p : Nat → α → Prop}
    (h : ∀ i < n, ∃ value, p i value) :
    ∃ items : List α, items.length = n ∧ ∀ i value, items[i]? = some value → p i value := by
  induction n with
  | zero => exact ⟨[], rfl, nofun⟩
  | succ n ih =>
    obtain ⟨items, rfl, hall⟩ := ih fun i hi => h i (Nat.lt_succ_of_lt hi)
    obtain ⟨last, hlast⟩ := h items.length (Nat.lt_succ_self _)
    refine ⟨items ++ [last], List.length_append, ?_⟩
    intro i value hvalue
    by_cases hi : i < items.length
    · rw [List.getElem?_append_left hi] at hvalue
      exact hall i value hvalue
    · rw [List.getElem?_append_right (Nat.le_of_not_lt hi), List.getElem?_singleton] at hvalue
      split at hvalue
      · obtain rfl := Option.some.inj hvalue
        obtain rfl : i = items.length := by omega
        exact hlast
      · cases hvalue

section Numbers

/-- The set, or that of zero alone if it has no numbers. -/
def NumberSet.orZero (S : NumberSet) : NumberSet where
  Mem n := S.Mem n ∨ (∀ m, ¬ S.Mem m) ∧ n = .ofNat 0
  trans := by
    rintro a b c (ha | ⟨hnone, rfl⟩) hb hc hab hbc
    · have hmem {n : Number} (hn : S.Mem n ∨ (∀ m, ¬ S.Mem m) ∧ n = .ofNat 0) : S.Mem n :=
        hn.resolve_right fun h => h.1 a ha
      exact S.trans ha (hmem hb) (hmem hc) hab hbc
    · obtain rfl := (hc.resolve_left (hnone c)).2
      exact Number.order_self _

theorem NumberSet.exists_mem_orZero (S : NumberSet) : ∃ n, S.orZero.Mem n := by
  by_cases h : ∃ n, S.Mem n
  · obtain ⟨n, hn⟩ := h
    exact ⟨n, .inl hn⟩
  · exact ⟨_, .inr ⟨not_exists.mp h, rfl⟩⟩

end Numbers

namespace DataType

variable {S : NumberSet} {a b t : DataType}

section Parts

variable {properties : List (String × DataType)} {front : List DataType} {rest : DataType}
  {required : List String} {minimum : Nat} {notes : Annotations}

/-- An object of an object type, with members of the given names that satisfy more than the type
asks for. -/
theorem exists_object {names : List String} {p : String → Json → Prop}
    (hrequired : ∀ name ∈ required, name ∈ names)
    (h : ∀ name ∈ names, ∃ v : Json, v.Over S ∧
      (property properties rest name).Describes (some v) ∧ p name v) :
    ∃ members : Fields Json, (Json.object members).Over S ∧
      (object properties rest required notes).Describes (some (.object members)) ∧
        (∀ name, name ∈ members.names ↔ name ∈ names) ∧
          ∀ name v, members.get? name = some v → p name v := by
  obtain ⟨members, hnodup, hnames, hall⟩ := Fields.exists_of_forall h
  refine ⟨members, .object hnodup ?_, .object ?_ ?_, hnames, ?_⟩
  · intro member hmember
    exact (hall _ _ (Fields.get?_eq_some_of_mem hnodup hmember)).1
  · intro name hname
    exact Fields.mem_names_iff.mp ((hnames name).mpr (hrequired name hname))
  · exact fun name v hv => (hall name v hv).2.1
  · exact fun name v hv => (hall name v hv).2.2

/-- An array of an array type, of any length that is enough, with elements that satisfy more than
the type asks for. -/
theorem exists_array {n : Nat} {p : Nat → Json → Prop} (henough : minimum ≤ n)
    (h : ∀ i < n, ∃ v : Json, v.Over S ∧ (element front rest i).Describes (some v) ∧ p i v) :
    ∃ items : List Json, (Json.array items).Over S ∧
      (array front rest minimum notes).Describes (some (.array items)) ∧ items.length = n ∧
        ∀ i v, items[i]? = some v → p i v := by
  obtain ⟨items, rfl, hall⟩ := exists_items_of_forall h
  refine ⟨items, .array ?_, .array henough ?_, rfl, ?_⟩
  · intro item hitem
    obtain ⟨i, hi⟩ := List.mem_iff_getElem?.mp hitem
    exact (hall i item hi).1
  · exact fun i v hv => (hall i v hv).2.1
  · exact fun i v hv => (hall i v hv).2.2

end Parts

/-- A type other than the empty type describes a value, if the absence of one does not occur
in it. -/
theorem Normal.exists_describes (hS : ∃ n, S.Mem n) (ht : t.Normal S)
    (hnothing : t.occurs isNothing = false) (hnever : t.isNever = false) :
    ∃ v : Json, v.Over S ∧ t.Describes (some v) := by
  induction ht with
  | any => exact ⟨.null, .null, .any⟩
  | never => cases hnever
  | literal _ hnumbers _ => exact ⟨_, hnumbers, .literal (Json.same_refl hnumbers)⟩
  | @primitive kind _ =>
    cases kind with
    | number =>
      obtain ⟨n, hn⟩ := hS
      exact ⟨.number n, .number hn, .primitive rfl⟩
    | string => exact ⟨.string "", .string _, .primitive rfl⟩
    | boolean => exact ⟨.bool true, .bool _, .primitive rfl⟩
    | null => exact ⟨.null, .null, .primitive rfl⟩
    | nothing => cases hnothing
  | @object properties rest required _ _ _ hpossible ihprops ihrest =>
    obtain ⟨hprops, hrest⟩ := occurs_object_eq_false_iff.mp hnothing
    have hmember : ∀ name ∈ required, ∃ v : Json, v.Over S ∧
        (DataType.property properties rest name).Describes (some v) ∧ True := by
      intro name hname
      have hnever := hpossible name hname
      simp only [and_true]
      rcases property_eq properties rest name with ⟨p, hp, heq⟩ | heq <;> rw [heq] at hnever ⊢
      · exact ihprops p hp (hprops p hp) hnever
      · exact ihrest hrest hnever
    obtain ⟨members, hover, hdescribes, -, -⟩ := exists_object (fun _ hname => hname) hmember
    exact ⟨_, hover, hdescribes⟩
  | @array front rest minimum _ hfront hrest hpresent hpossible ihfront ihrest =>
    obtain ⟨hlackFront, hlackRest⟩ := occurs_array_eq_false_iff.mp hnothing
    have hitem : ∀ i < minimum, ∃ v : Json, v.Over S ∧
        (DataType.element front rest i).Describes (some v) ∧ True := by
      intro i hi
      have hself : (DataType.array front rest minimum {}).Normal S :=
        .array hfront hrest hpresent hpossible
      have hnever := hself.isNever_element hi
      simp only [and_true]
      rcases element_eq front rest i with hmem | heq
      · exact ihfront _ hmem (hlackFront _ hmem) hnever
      · rw [heq] at hnever ⊢
        exact ihrest hlackRest hnever
    obtain ⟨items, hover, hdescribes, -, -⟩ := exists_array (Nat.le_refl _) hitem
    exact ⟨_, hover, hdescribes⟩
  | union _ hplain hnonempty ih =>
    obtain ⟨m, hm⟩ := List.exists_mem_of_ne_nil _ hnonempty
    obtain ⟨v, hv, h⟩ := ih m hm (occurs_union_eq_false_iff.mp hnothing m hm)
      (isNever_eq_false_of_isPlain (hplain m hm))
    exact ⟨v, hv, .union hm h⟩

/-- The test for the empty type tells whether a type describes a value. -/
theorem Normal.isNever_iff (hS : ∃ n, S.Mem n) (ht : t.Normal S)
    (hnothing : t.occurs isNothing = false) :
    t.isNever = true ↔ ¬ ∃ v : Json, v.Over S ∧ t.Describes (some v) := by
  constructor
  · rintro hnever ⟨v, -, h⟩
    rw [h.isNever] at hnever
    cases hnever
  · intro hnone
    refine eq_true_of_ne_false fun hnever => ?_
    exact hnone (ht.exists_describes hS hnothing hnever)

/-- The test for the empty type tells whether a type describes no value, and of the intersection
of two types whether they have none in common. Where there are no numbers to take, zero is. -/
theorem isNever_intersect_iff_disjoint (ha : a.Built S) (hb : b.Built S)
    (hnothing : a.occurs isNothing = false) (hnothing' : b.occurs isNothing = false) :
    (a.isNever = true ↔ ¬ ∃ v : Json, v.WellFormed ∧ a.Describes (some v)) ∧
      ((a.intersect b).isNever = true ↔
        ¬ ∃ v : Json, v.Over S.orZero ∧ a.Describes (some v) ∧ b.Describes (some v)) := by
  have hle : ∀ n, S.Mem n → S.orZero.Mem n := fun n => .inl
  have hnormal := ha.normal.mono hle
  have hnormal' := hb.normal.mono hle
  constructor
  · constructor
    · rintro hnever ⟨v, -, h⟩
      rw [h.isNever] at hnever
      cases hnever
    · intro hnone
      rw [hnormal.isNever_iff S.exists_mem_orZero hnothing]
      rintro ⟨v, hv, h⟩
      exact hnone ⟨v, hv.wellFormed, h⟩
  · rw [(normal_intersect hnormal hnormal').isNever_iff S.exists_mem_orZero
      (occurs_intersect isNothing_unmade hnothing b hnothing')]
    refine not_congr (exists_congr fun v => and_congr_right fun hv => ?_)
    exact (standsFor_ofJson hv).describes_intersect_iff hnormal hnormal'

/-- Objects that require an `id`, a number that a text may follow. -/
def numberedId : DataType :=
  ofObject [("id", ofArray [ofPrimitive .number, ofPrimitive .string] bottom 1)] top ["id"]

/-- Objects without other members, whose `id` has at least two elements, the second a number. -/
def numberSecondId : DataType :=
  ofObject [("id", ofArray [top, ofPrimitive .number] top 2)] bottom []

theorem isNever_intersect_iff_disjoint_id :
    numberedId.Built .whole ∧ numberSecondId.Built .whole ∧
      numberedId.occurs isNothing = false ∧ numberSecondId.occurs isNothing = false ∧
        (∃ v : Json, v.WellFormed ∧ numberedId.Describes (some v)) ∧
          ¬ ∃ v : Json, v.Over NumberSet.whole.orZero ∧ numberedId.Describes (some v) ∧
            numberSecondId.Describes (some v) := by
  have hfirst : numberedId.Built .whole :=
    .ofObject _ (List.forall_mem_singleton.mpr
      (.ofArray 1 (forall_mem_pair (.primitive _) (.primitive _)) .bottom)) .top
  have hsecond : numberSecondId.Built .whole :=
    .ofObject _ (List.forall_mem_singleton.mpr
      (.ofArray 2 (forall_mem_pair .top (.primitive _)) .top)) .bottom
  have hnothing : numberedId.occurs isNothing = false := by decide
  have hnothing' : numberSecondId.occurs isNothing = false := by decide
  obtain ⟨hempty, hdisjoint⟩ :=
    isNever_intersect_iff_disjoint hfirst hsecond hnothing hnothing'
  refine ⟨hfirst, hsecond, hnothing, hnothing', ?_, hdisjoint.mp (by decide)⟩
  refine Classical.not_not.mp fun hnone => ?_
  exact absurd (hempty.mpr hnone) (by decide)

end DataType

end JsonPath
