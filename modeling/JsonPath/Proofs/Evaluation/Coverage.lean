import JsonPath.Proofs.Evaluation.Singular
import JsonPath.Proofs.Evaluation.Trace

/-!
What an evaluation goes through. The evaluation of a segment has that of each of its selectors as
a part, for the input and, if the segment descends, for every value inside it. What a part selects
and reports, the whole selects and reports as well.
-/

namespace JsonPath

namespace Traced

variable {r s t : Traced (List Node)} {select : Node → Traced (List Node)}

/-- Everything that the first evaluation selects and reports is selected and reported by the
second. -/
structure PartOf (s t : Traced (List Node)) : Prop where
  result : ∀ n ∈ s.result, n ∈ t.result
  events : ∀ e ∈ s.events, e ∈ t.events

theorem PartOf.refl (s : Traced (List Node)) : s.PartOf s :=
  ⟨fun _ h => h, fun _ h => h⟩

theorem PartOf.trans (hrs : r.PartOf s) (hst : s.PartOf t) : r.PartOf t :=
  ⟨fun n hn => hst.result n (hrs.result n hn), fun e he => hst.events e (hrs.events e he)⟩

theorem partOf_note (describe : List Node → Event) (s : Traced (List Node)) :
    s.PartOf (note describe s) :=
  ⟨fun _ h => h, fun _ h => List.mem_append_left _ h⟩

theorem partOf_append_left (s t : Traced (List Node)) :
    s.PartOf (do return (← s) ++ (← t)) :=
  ⟨fun _ h => List.mem_append_left _ h, fun _ h => List.mem_append_left _ h⟩

theorem partOf_append_right (s t : Traced (List Node)) :
    t.PartOf (do return (← s) ++ (← t)) := by
  refine ⟨fun _ h => List.mem_append_right _ h, ?_⟩
  intro e he
  exact List.mem_append_right _ (List.mem_append_left _ he)

theorem partOf_collect {nodes : List Node} {n : Node} (hn : n ∈ nodes) :
    (select n).PartOf (collect select nodes) := by
  induction nodes with
  | nil => cases hn
  | cons first rest ih =>
    rcases List.mem_cons.mp hn with rfl | hn
    · exact partOf_append_left _ _
    · exact (ih hn).trans (partOf_append_right _ _)

end Traced

open Traced

section Descend

variable {select : Node → Traced (List Node)}

theorem partOf_descend_here (l : Location) (v : Json) :
    (select ⟨v, l⟩).PartOf (descend select l v) := by
  cases v with
  | array | object => exact partOf_append_left _ _
  | null | bool | number | string => exact .refl _

theorem partOf_descendItems (l : Location) (i : Nat) {items : List Json} {item : Json}
    (h : item ∈ items) : ∃ m, (descend select m item).PartOf (descendItems select l i items) := by
  induction items generalizing i with
  | nil => cases h
  | cons first rest ih =>
    rcases List.mem_cons.mp h with rfl | h
    · exact ⟨_, partOf_append_left _ _⟩
    · obtain ⟨m, hm⟩ := ih (i + 1) h
      exact ⟨m, hm.trans (partOf_append_right _ _)⟩

theorem partOf_descendMembers (l : Location) {members : List (String × Json)}
    {member : String × Json} (h : member ∈ members) :
    ∃ m, (descend select m member.2).PartOf (descendMembers select l members) := by
  induction members with
  | nil => cases h
  | cons first rest ih =>
    rcases List.mem_cons.mp h with rfl | h
    · exact ⟨_, partOf_append_left _ _⟩
    · obtain ⟨m, hm⟩ := ih h
      exact ⟨m, hm.trans (partOf_append_right _ _)⟩

/-- A descent into a value is one into each of its children, too. -/
theorem partOf_descend_child (l : Location) {v : Json} {below : Step × Json}
    (h : below ∈ v.children) : ∃ m, (descend select m below.2).PartOf (descend select l v) := by
  cases v with
  | array items =>
    obtain ⟨i, hi, rfl⟩ := List.mem_mapIdx.mp h
    obtain ⟨m, hm⟩ := partOf_descendItems l 0 (List.getElem_mem hi)
    exact ⟨m, hm.trans (partOf_append_right _ _)⟩
  | object members =>
    obtain ⟨member, hmember, rfl⟩ := List.mem_map.mp h
    obtain ⟨m, hm⟩ := partOf_descendMembers l hmember
    exact ⟨m, hm.trans (partOf_append_right _ _)⟩
  | null | bool | number | string => cases h

theorem partOf_descend (l : Location) {v w : Json} (h : v.Reaches w) :
    ∃ n : Node, n.value = w ∧ (select n).PartOf (descend select l v) := by
  induction h generalizing l with
  | here v => exact ⟨⟨v, l⟩, rfl, partOf_descend_here l v⟩
  | child below hmem _ ih =>
    obtain ⟨m, hm⟩ := partOf_descend_child l hmem
    obtain ⟨n, rfl, hn⟩ := ih m
    exact ⟨n, rfl, hn.trans hm⟩

/-- A segment is applied to its input, and to everything inside it if it descends. -/
theorem partOf_reach {descendant : Bool} {input : Node} {w : Json}
    (h : w = input.value ∨ descendant = true ∧ input.value.Reaches w) :
    ∃ n : Node, n.value = w ∧ (select n).PartOf (reach descendant select input) := by
  cases descendant with
  | true =>
    have hreaches : input.value.Reaches w := by
      rcases h with rfl | ⟨-, h⟩
      · exact .here _
      · exact h
    exact partOf_descend _ hreaches
  | false =>
    rcases h with rfl | ⟨h, -⟩
    · exact ⟨input, rfl, .refl _⟩
    · cases h

end Descend

theorem Selectors.partOf_select (scope : Scope) (n : Node) {selector : Selector} :
    (selectors : Selectors) → selector ∈ selectors.toList →
    (selector.select scope n).PartOf (selectors.select scope n)
  | .last other, h => by
    rw [List.mem_singleton.mp h]
    exact .refl _
  | .more other _ rest, h => by
    rcases List.mem_cons.mp h with rfl | h
    · exact partOf_append_left _ _
    · exact (rest.partOf_select scope n h).trans (partOf_append_right _ _)

/-- The evaluation of a segment has those of its selectors as parts. -/
theorem Segment.partOf_select (scope : Scope) {input : Node} (segment : Segment) {w : Json}
    (h : w = input.value ∨ segment.isDescendant = true ∧ input.value.Reaches w) :
    ∃ n : Node, n.value = w ∧ ∀ selector ∈ segment.selectors,
      (selector.select scope n).PartOf (segment.select scope input) := by
  cases segment with
  | shorthand id dots selector =>
    obtain ⟨n, hvalue, hn⟩ := @partOf_reach (fun n => selector.select scope n) _ _ _ h
    refine ⟨n, hvalue, List.forall_mem_singleton.mpr ?_⟩
    exact hn.trans (partOf_note _ _)
  | bracketed id dots opening selectors closing =>
    obtain ⟨n, hvalue, hn⟩ := @partOf_reach (fun n => selectors.select scope n) _ _ _ h
    refine ⟨n, hvalue, ?_⟩
    intro selector hselector
    exact ((selectors.partOf_select scope n hselector).trans hn).trans (partOf_note _ _)

section Promises

variable {A P : Event → Prop} {Q : Node → Prop}

theorem Selectors.select_selects {scope : Scope} {n : Node} : (selectors : Selectors) →
    (∀ selector ∈ selectors.toList, (selector.select scope n).Selects A P Q) →
    (selectors.select scope n).Selects A P Q
  | .last _, h => h _ List.mem_cons_self
  | .more _ _ rest, h => by
    obtain ⟨hfirst, hrest⟩ := List.forall_mem_cons.mp h
    exact .append hfirst (rest.select_selects hrest)

/-- What each selector promises for all that a segment is applied to, the segment promises. -/
theorem Segment.select_selects {scope : Scope} {input : Node} (segment : Segment)
    (h : ∀ n : Node, input.value.Reaches n.value → (segment.isDescendant = false → n = input) →
      ∀ selector ∈ segment.selectors, (selector.select scope n).Selects A P Q)
    (hevent : ∀ id output, P (.segment id input output)) :
    (segment.select scope input).Selects A P Q := by
  cases segment with
  | shorthand id dots selector =>
    refine Holds.note (reach_selects fun n hreaches hn => ?_) fun _ hnodes _ => ⟨hevent _ _, hnodes⟩
    exact h n hreaches hn selector List.mem_cons_self
  | bracketed id dots opening selectors closing =>
    refine Holds.note (reach_selects fun n hreaches hn => ?_) fun _ hnodes _ => ⟨hevent _ _, hnodes⟩
    exact selectors.select_selects (h n hreaches hn)

end Promises

end JsonPath
