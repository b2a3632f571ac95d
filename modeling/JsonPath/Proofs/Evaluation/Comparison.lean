import JsonPath.Evaluation.Result
import JsonPath.Proofs.Json.Same
import Mathlib.Data.List.Forall2

/-!
Comparisons of results. Exchanging the operands of a comparison comes to the same as mirroring its
operator, for results of all kinds, and the order in which the members of objects stand plays no
part in it. Equality looks up the members of the left object in the right one, so both need that no
object repeats a name, as is so in every document.
-/

namespace JsonPath.Json

/-- The second value is the first with the members of objects inside it in another order. -/
inductive Rearranged : Json → Json → Prop
  | refl (v : Json) : Rearranged v v
  | members {a b : List (String × Json)} (perm : a.Perm b) : Rearranged (.object a) (.object b)
  | item (before after : List Json) {v w : Json} (inner : Rearranged v w) :
      Rearranged (.array (before ++ v :: after)) (.array (before ++ w :: after))
  | member (before after : List (String × Json)) (name : String) {v w : Json}
      (inner : Rearranged v w) :
      Rearranged (.object (before ++ (name, v) :: after)) (.object (before ++ (name, w) :: after))
  | trans {u v w : Json} (left : Rearranged u v) (right : Rearranged v w) : Rearranged u w

variable {u v w : Json}

theorem Rearranged.wellFormed (h : v.Rearranged w) (hv : v.WellFormed) : w.WellFormed := by
  induction h with
  | refl => exact hv
  | trans _ _ ihl ihr => exact ihr (ihl hv)
  | @members a b perm =>
    obtain ⟨hnodup, hmembers⟩ := hv
    rw [wellFormedMembers_iff] at hmembers
    refine ⟨(perm.map Prod.fst).nodup_iff.mp hnodup, wellFormedMembers_iff.mpr ?_⟩
    intro member hmember
    exact hmembers member (perm.mem_iff.mpr hmember)
  | @item before after v w _ ih =>
    have hitems := wellFormedItems_iff.mp hv
    simp only [List.forall_mem_append, List.forall_mem_cons] at hitems
    obtain ⟨hbefore, hv, hafter⟩ := hitems
    apply wellFormedItems_iff.mpr
    simp only [List.forall_mem_append, List.forall_mem_cons]
    exact ⟨hbefore, ih hv, hafter⟩
  | @member before after name v w _ ih =>
    obtain ⟨hnodup, hmembers⟩ := hv
    simp only [wellFormedMembers_iff, List.forall_mem_append, List.forall_mem_cons] at hmembers
    obtain ⟨hbefore, hv, hafter⟩ := hmembers
    constructor
    · simpa [Fields.names] using hnodup
    · simp only [wellFormedMembers_iff, List.forall_mem_append, List.forall_mem_cons]
      exact ⟨hbefore, ih hv, hafter⟩

theorem sameItems_congr (before after : List Json) (h : ∀ u, v.same u = w.same u)
    (others : List Json) :
    sameItems (before ++ v :: after) others = sameItems (before ++ w :: after) others := by
  induction before generalizing others with
  | nil => cases others <;> simp [sameItems, h]
  | cons first rest ih => cases others <;> simp [sameItems, ih]

theorem sameMembers_congr (before after : List (String × Json)) (name : String)
    (h : ∀ u, v.same u = w.same u) (other : Fields Json) :
    sameMembers (before ++ (name, v) :: after) other =
      sameMembers (before ++ (name, w) :: after) other := by
  induction before with
  | nil => simp [sameMembers, h]
  | cons first rest ih => simp [sameMembers, ih]

theorem sameMembers_perm {a b : List (String × Json)} (h : a.Perm b) (other : Fields Json) :
    sameMembers a other = sameMembers b other := by
  rw [Bool.eq_iff_iff, sameMembers_iff, sameMembers_iff]
  constructor
  · intro hall member hmember
    exact hall member (h.mem_iff.mpr hmember)
  · intro hall member hmember
    exact hall member (h.mem_iff.mp hmember)

/-- The order of members on the left of an equality does not matter. -/
theorem Rearranged.same_left (h : v.Rearranged w) (u : Json) : v.same u = w.same u := by
  induction h generalizing u with
  | refl => rfl
  | trans _ _ ihl ihr => exact (ihl u).trans (ihr u)
  | members perm =>
    cases u with
    | object other => rw [same, same, perm.length_eq, sameMembers_perm perm]
    | _ => rfl
  | item before after _ ih =>
    cases u with
    | array others => exact sameItems_congr before after ih others
    | _ => rfl
  | member before after name _ ih =>
    cases u with
    | object other =>
      rw [same, same, sameMembers_congr before after name ih, List.length_append,
        List.length_append, List.length_cons, List.length_cons]
    | _ => rfl

theorem WellFormed.same_comm (hv : v.WellFormed) (hw : w.WellFormed) : v.same w = w.same v := by
  rw [Bool.eq_iff_iff]
  exact ⟨hv.same_symm hw, hw.same_symm hv⟩

end JsonPath.Json

namespace JsonPath.Result

/-- The result holds no object that repeats a name. -/
def WellFormed : Result → Prop
  | value v => v.WellFormed
  | nodes ns => ∀ n ∈ ns, n.value.WellFormed
  | _ => True

/-- The second result is the first with the members of objects in another order. -/
inductive Rearranged : Result → Result → Prop
  | value {v w : Json} (inner : v.Rearranged w) : Rearranged (.value v) (.value w)
  | nothing : Rearranged .nothing .nothing
  | logical (b : Bool) : Rearranged (.logical b) (.logical b)
  | nodes {ms ns : List Node} (inner : List.Forall₂ (fun m n => m.value.Rearranged n.value) ms ns) :
      Rearranged (.nodes ms) (.nodes ns)

variable {a b a' b' r : Result}

theorem equal_eq_true (h : equal a b = true) :
    (a = nothing ∧ b = nothing) ∨ ∃ v w, a = value v ∧ b = value w ∧ v.same w = true := by
  cases a <;> cases b <;> first | exact .inl ⟨rfl, rfl⟩ | exact .inr ⟨_, _, rfl, rfl, h⟩ | cases h

theorem WellFormed.single (h : a.WellFormed) : a.single.WellFormed := by
  unfold Result.single
  split
  · rename_i n
    exact h n (List.mem_singleton_self n)
  · trivial
  · exact h

/-- Equality of two results does not depend on which of them comes first. -/
theorem WellFormed.equal_comm (ha : a.WellFormed) (hb : b.WellFormed) :
    equal a b = equal b a := by
  cases a with
  | value v =>
    cases b with
    | value w => exact Json.WellFormed.same_comm ha hb
    | nothing | logical | nodes => rfl
  | nothing | logical | nodes => cases b <;> rfl

/-- Exchanging the operands mirrors the operator, where equality is symmetric. -/
theorem compare_mirror_of_equal_comm (h : equal a.single b.single = equal b.single a.single)
    (op : Comparison) : b.compare op.mirror a = a.compare op b := by
  cases op <;> simp only [Comparison.mirror, compare, h]

namespace Rearranged

theorem wellFormed (h : a.Rearranged a') (ha : a.WellFormed) : a'.WellFormed := by
  cases h with
  | value inner => exact inner.wellFormed ha
  | nothing | logical => trivial
  | nodes inner =>
    simp only [WellFormed] at ha ⊢
    induction inner with
    | nil => exact List.forall_mem_nil _
    | cons first _ ih =>
      rw [List.forall_mem_cons] at ha ⊢
      exact ⟨first.wellFormed ha.1, ih ha.2⟩

theorem single (h : a.Rearranged a') : a.single.Rearranged a'.single := by
  cases h with
  | value inner => exact .value inner
  | nothing => exact .nothing
  | logical b => exact .logical b
  | nodes inner =>
    cases inner with
    | nil => exact .nothing
    | cons first rest =>
      cases rest with
      | nil => exact .value first
      | cons => exact .nothing

theorem equal_left (h : a.Rearranged a') (b : Result) : equal a b = equal a' b := by
  cases h with
  | value inner =>
    cases b with
    | value w => exact inner.same_left w
    | nothing | logical | nodes => rfl
  | nothing | logical | nodes => rfl

theorem equal_congr (h : a.Rearranged a') (h' : b.Rearranged b') (ha : a.WellFormed)
    (hb : b.WellFormed) : equal a b = equal a' b' := by
  have ha' := h.wellFormed ha
  calc equal a b
    _ = equal a' b := h.equal_left b
    _ = equal b a' := ha'.equal_comm hb
    _ = equal b' a' := h'.equal_left a'
    _ = equal a' b' := (h'.wellFormed hb).equal_comm ha'

/-- An order looks at numbers and strings only, which have no members. -/
theorem eq_or_unordered (h : a.Rearranged a') :
    (∀ r, less a r = less a' r) ∧ ∀ r, less r a = less r a' := by
  have hunordered {v : Json} (hv : ¬ v.IsScalar) :
      (∀ r, less (.value v) r = false) ∧ ∀ r, less r (.value v) = false := by
    cases v with
    | array | object =>
      refine ⟨fun r => rfl, fun r => ?_⟩
      cases r with
      | value w => cases w <;> rfl
      | nothing | logical | nodes => rfl
    | null | bool | number | string => exact absurd trivial hv
  cases h with
  | nothing | logical => exact ⟨fun _ => rfl, fun _ => rfl⟩
  | nodes =>
    refine ⟨fun _ => rfl, fun r => ?_⟩
    cases r with
    | value w => cases w <;> rfl
    | nothing | logical | nodes => rfl
  | value inner =>
    have hboth {v w : Json} (hv : ¬ v.IsScalar) (hw : ¬ w.IsScalar) :
        (∀ r, less (.value v) r = less (.value w) r) ∧
          ∀ r, less r (.value v) = less r (.value w) := by
      refine ⟨fun r => ?_, fun r => ?_⟩
      · rw [(hunordered hv).1, (hunordered hw).1]
      · rw [(hunordered hv).2, (hunordered hw).2]
    induction inner with
    | refl => exact ⟨fun _ => rfl, fun _ => rfl⟩
    | trans _ _ ihl ihr =>
      exact ⟨fun r => (ihl.1 r).trans (ihr.1 r), fun r => (ihl.2 r).trans (ihr.2 r)⟩
    | members | item | member => exact hboth id id

theorem less_congr (h : a.Rearranged a') (h' : b.Rearranged b') : less a b = less a' b' :=
  (h.eq_or_unordered.1 b).trans (h'.eq_or_unordered.2 a')

/-- No comparison depends on the order of members. -/
theorem compare_congr (h : a.Rearranged a') (h' : b.Rearranged b') (ha : a.WellFormed)
    (hb : b.WellFormed) (op : Comparison) : a.compare op b = a'.compare op b' := by
  have hequal := equal_congr h.single h'.single ha.single hb.single
  have hless := less_congr h.single h'.single
  have hgreater := less_congr h'.single h.single
  cases op <;> simp only [compare, hequal, hless, hgreater]

end Rearranged

/-- A comparison is the mirrored one with its operands exchanged, inequality is the opposite of
equality, and the order of members, however deep they are on either side, changes nothing. -/
theorem compare_symmetric (ha : a.WellFormed) (hb : b.WellFormed) :
    (∀ op, a.compare op b = b.compare op.mirror a) ∧
      a.compare .notEqual b = !a.compare .equal b ∧
      ∀ a' b', a.Rearranged a' → b.Rearranged b' → ∀ op, a'.compare op b' = a.compare op b := by
  refine ⟨?_, rfl, ?_⟩
  · intro op
    exact (compare_mirror_of_equal_comm (ha.single.equal_comm hb.single) op).symm
  · intro a' b' h h' op
    exact (h.compare_congr h' ha hb op).symm

/-- An object beside the node of an equal one, with the members of the object inside it in one order
and in the other. -/
theorem compare_symmetric_nested :
    let order (x y : String × Json) : Json := .object [("a", .natural 1), ("b", .object [x, y])]
    let a := value (order ("c", .null) ("d", .bool true))
    let b := nodes [⟨order ("d", .bool true) ("c", .null), [.name "e"]⟩]
    a.WellFormed ∧ b.WellFormed ∧
      a.compare .lessOrEqual b = b.compare .greaterOrEqual a ∧
      a.compare .notEqual b = !a.compare .equal b ∧
      (value (order ("d", .bool true) ("c", .null))).compare .equal b = a.compare .equal b := by
  intro order a b
  have hwellFormed {x y : String × Json} (hx : x.2.WellFormed) (hy : y.2.WellFormed)
      (hne : x.1 ≠ y.1) : (order x y).WellFormed := by
    simp [order, Json.WellFormed, Json.WellFormedMembers, Json.natural, Fields.names, hx, hy, hne]
  have ha : a.WellFormed := hwellFormed trivial trivial (by decide)
  have hb : b.WellFormed := List.forall_mem_singleton.mpr (hwellFormed trivial trivial (by decide))
  have hrearranged : a.Rearranged (value (order ("d", .bool true) ("c", .null))) :=
    .value (.member [("a", .natural 1)] [] "b" (.members (List.Perm.swap _ _ _)))
  have hsame : b.Rearranged b := .nodes (.cons (.refl _) .nil)
  obtain ⟨hmirror, hnot, horder⟩ := compare_symmetric ha hb
  exact ⟨ha, hb, hmirror .lessOrEqual, hnot, horder _ _ hrearranged hsame .equal⟩

end JsonPath.Result
