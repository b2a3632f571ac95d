import JsonPath.Proofs.DataType.Exact
import JsonPath.Proofs.Json.Locations

/-!
Types without numbers in their literals. Whether such a type describes a value does not depend on
the numbers in the value, so that all of them may be taken for zero. What is known about numbers
among which equality is transitive is then known about all values.
-/

namespace JsonPath

/-- No numbers. -/
def NumberSet.none : NumberSet where
  Mem _ := False
  trans h := h.elim

namespace Json

mutual

/-- The value with zero in place of every number. -/
def zeroed : Json → Json
  | .number _ => .natural 0
  | .array items => .array (zeroedItems items)
  | .object members => .object (zeroedMembers members)
  | v => v

def zeroedItems : List Json → List Json
  | [] => []
  | item :: rest => item.zeroed :: zeroedItems rest

def zeroedMembers : List (String × Json) → List (String × Json)
  | [] => []
  | (name, value) :: rest => (name, value.zeroed) :: zeroedMembers rest

end

theorem zeroedItems_eq (items : List Json) : zeroedItems items = items.map zeroed := by
  induction items with
  | nil => rfl
  | cons item rest ih => rw [zeroedItems, ih, List.map_cons]

theorem get?_zeroedMembers (members : Fields Json) (name : String) :
    Fields.get? (zeroedMembers members) name = (members.get? name).map zeroed := by
  induction members with
  | nil => rfl
  | cons member rest ih =>
    obtain ⟨key, value⟩ := member
    rw [zeroedMembers, Fields.get?, Fields.get?]
    split
    · rfl
    · exact ih

theorem names_zeroedMembers (members : Fields Json) :
    Fields.names (zeroedMembers members) = members.names := by
  induction members with
  | nil => rfl
  | cons member rest ih =>
    obtain ⟨key, value⟩ := member
    rw [zeroedMembers, Fields.names, List.map_cons, ← Fields.names, ih]
    rfl

mutual

theorem over_zeroed : (v : Json) → v.WellFormed → v.zeroed.Over .whole
  | .null, _ => .null
  | .bool b, _ => .bool b
  | .number _, _ => .number ⟨0, by decide, rfl⟩
  | .string s, _ => .string s
  | .array items, h => .array (over_zeroedItems items h)
  | .object members, h => by
    refine .object ?_ (over_zeroedMembers members h.2)
    rw [names_zeroedMembers]
    exact h.1

theorem over_zeroedItems : (items : List Json) → WellFormedItems items →
    ∀ item ∈ zeroedItems items, item.Over .whole
  | [], _ => List.forall_mem_nil _
  | item :: rest, h =>
    List.forall_mem_cons.mpr ⟨over_zeroed item h.1, over_zeroedItems rest h.2⟩

theorem over_zeroedMembers : (members : List (String × Json)) → WellFormedMembers members →
    ∀ member ∈ zeroedMembers members, member.2.Over .whole
  | [], _ => List.forall_mem_nil _
  | (_, value) :: rest, h =>
    List.forall_mem_cons.mpr ⟨over_zeroed value h.1, over_zeroedMembers rest h.2⟩

end

/-- A scalar that is not a number is equal to the same values. -/
theorem zeroed_same {u : Json} (hscalar : u.IsScalar) (hu : u.Over .none) (v : Json) :
    v.zeroed.same u = v.same u := by
  cases hu with
  | number hmem => exact hmem.elim
  | array | object => exact hscalar.elim
  | null | bool | string => cases v <;> rfl

theorem of?_zeroed (v : Json) : Primitive.of? v.zeroed = Primitive.of? v := by
  cases v <;> rfl

end Json

namespace DataType

section Parts

variable {rest : DataType} {notes : Annotations} {v : Json}

theorem describes_object_zeroed {properties : Fields DataType} {required : NameSet}
    (hpart : ∀ name (w : Json), (property properties rest name).Describes (some w.zeroed) ↔
      (property properties rest name).Describes (some w)) :
    (object properties rest required notes).Describes (some v.zeroed) ↔
      (object properties rest required notes).Describes (some v) := by
  cases v with
  | object members =>
    have hget := Json.get?_zeroedMembers members
    constructor <;> intro h <;> cases h with
      | object hpresent heach => ?_
    · refine .object ?_ ?_
      · intro name hname
        obtain ⟨w, hw⟩ := hpresent name hname
        rw [hget, Option.map_eq_some_iff] at hw
        obtain ⟨u, hu, -⟩ := hw
        exact ⟨u, hu⟩
      · intro name w hw
        exact (hpart name w).mp (heach name _ (by rw [hget, hw]; rfl))
    · refine .object ?_ ?_
      · intro name hname
        obtain ⟨w, hw⟩ := hpresent name hname
        exact ⟨w.zeroed, by rw [hget, hw]; rfl⟩
      · intro name w hw
        rw [hget, Option.map_eq_some_iff] at hw
        obtain ⟨u, hu, rfl⟩ := hw
        exact (hpart name u).mpr (heach name u hu)
  | null | bool | number | string | array => exact iff_of_false nofun nofun

theorem describes_array_zeroed {front : List DataType} {minimum : Nat}
    (hpart : ∀ i (w : Json), (element front rest i).Describes (some w.zeroed) ↔
      (element front rest i).Describes (some w)) :
    (array front rest minimum notes).Describes (some v.zeroed) ↔
      (array front rest minimum notes).Describes (some v) := by
  cases v with
  | array items =>
    rw [Json.zeroed, Json.zeroedItems_eq]
    constructor <;> intro h <;> cases h with
      | array henough heach => ?_
    · refine .array (by rwa [List.length_map] at henough) ?_
      intro i w hw
      exact (hpart i w).mp (heach i _ (by rw [List.getElem?_map, hw]; rfl))
    · refine .array (by rwa [List.length_map]) ?_
      intro i w hw
      rw [List.getElem?_map, Option.map_eq_some_iff] at hw
      obtain ⟨u, hu, rfl⟩ := hw
      exact (hpart i u).mpr (heach i u hu)
  | null | bool | number | string | object => exact iff_of_false nofun nofun

end Parts

/-- The numbers in a value make no difference. -/
theorem describes_zeroed {t : DataType} (ht : t.Over .none) {v : Json} :
    t.Describes (some v.zeroed) ↔ t.Describes (some v) := by
  induction t using parts_induction generalizing v with
  | any => exact iff_of_true .any .any
  | never => exact iff_of_false nofun nofun
  | literal u =>
    cases ht with
    | literal hscalar hover =>
      have hsame := Json.zeroed_same hscalar hover v
      constructor <;> intro h <;> cases h with
        | literal h => exact .literal (by rwa [hsame] at *)
  | primitive kind =>
    constructor <;> intro h <;> cases h with
      | primitive h => exact .primitive (by rwa [Json.of?_zeroed] at *)
  | object properties rest required notes ihprops ihrest =>
    cases ht with
    | object hprops hrest =>
      refine describes_object_zeroed fun name w => ?_
      rcases property_eq properties rest name with ⟨p, hp, heq⟩ | heq <;> rw [heq]
      · exact ihprops p hp (hprops p hp)
      · exact ihrest hrest
  | array front rest minimum notes ihfront ihrest =>
    cases ht with
    | array hfront hrest =>
      refine describes_array_zeroed fun i w => ?_
      rcases element_eq front rest i with hmem | heq
      · exact ihfront _ hmem (hfront _ hmem)
      · rw [heq]
        exact ihrest hrest
  | union members notes ih =>
    cases ht with
    | union heach =>
      constructor <;> intro h <;> cases h with
        | union hmem h => ?_
      · exact .union hmem ((ih _ hmem (heach _ hmem)).mp h)
      · exact .union hmem ((ih _ hmem (heach _ hmem)).mpr h)

/-- A union of types without numbers describes any value that one of them describes, and no
other. -/
theorem describes_unionOf_of_none {ts : List DataType} (hts : ∀ t ∈ ts, t.Normal .none) {w : Json}
    (hw : w.WellFormed) : (unionOf ts).Describes (some w) ↔ ∃ t ∈ ts, t.Describes (some w) := by
  rw [← describes_zeroed (normal_unionOf hts).over,
    (standsFor_ofJson (Json.over_zeroed w hw)).describes_unionOf_iff
      fun t ht => (hts t ht).mono fun _ => False.elim]
  exact exists_congr fun t => and_congr_right fun ht => describes_zeroed (hts t ht).over

end DataType

end JsonPath
