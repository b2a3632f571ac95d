import Mathlib.Data.List.DropRight
import JsonPath.Evaluation.Event
import JsonPath.Proofs.Syntax.Numbering

/-!
Which events of an evaluation belong together. An element is reported after all that is inside it.
So what was reported of the inside of an element since the last report of anything else is what
happened since its evaluation began. Events of the selectors of a segment and of the segments of a
path are found there.
-/

namespace JsonPath

/-- The number of the element that an event tells of. -/
def Event.id? : Event → Option Nat
  | .query id _ | .segment id _ _ | .selector id _ _ | .expression id _ _ => some id
  | .warning _ => none

/-- The event tells of none but the given elements. -/
def Event.isAmong (ids : List Nat) (e : Event) : Bool := e.id?.all (ids.contains ·)

theorem Event.isAmong_iff {ids : List Nat} {e : Event} :
    e.isAmong ids = true ↔ ∀ id ∈ e.id?, id ∈ ids := by
  unfold isAmong
  cases e.id? <;> simp

/-- The numbers of the elements inside that of a tree. -/
def Tree.inside (t : Tree) : List Nat := t.children.flatMap Tree.ids

/-- The events at the end of a list that tell of none but the given elements. -/
def since (ids : List Nat) (events : List Event) : List Event :=
  events.rtakeWhile (Event.isAmong ids)

/-- The last event that tells of any element tells of none of these. -/
def Clear (ids : List Nat) (events : List Event) : Prop := ∀ e ∈ since ids events, e.id? = none

namespace Event

/-- The output that an event reports for one of some selectors. -/
def selectedBy (selectors : List Selector) : Event → List Node
  | .selector id _ output => if id ∈ selectors.map (·.id) then output else []
  | _ => []

/-- The input that an event reports for a segment. -/
def inputOf (s : Segment) : Event → List Node
  | .segment id input _ => if id = s.id then [input] else []
  | _ => []

/-- The output that an event reports for a segment. -/
def outputOf (s : Segment) : Event → List Node
  | .segment id _ output => if id = s.id then output else []
  | _ => []

end Event

section Since

variable {ids others : List Nat} {events more : List Event} {e : Event}

theorem clear_nil : Clear ids [] := List.forall_mem_nil _

/-- What follows and tells of the elements only belongs to what happened since. -/
theorem since_append (h : ∀ e ∈ more, ∀ id ∈ e.id?, id ∈ ids) :
    since ids (events ++ more) = since ids events ++ more := by
  have hmore : ∀ e ∈ more.reverse, e.isAmong ids = true := fun e he =>
    Event.isAmong_iff.mpr (h e (List.mem_reverse.mp he))
  rw [since, since, List.rtakeWhile, List.rtakeWhile, List.reverse_append,
    List.takeWhile_append_of_pos hmore, List.reverse_append, List.reverse_reverse]

theorem clear_concat_of_some {id : Nat} (he : e.id? = some id) (hid : id ∉ ids) :
    Clear ids (events ++ [e]) := by
  have hother : ¬ e.isAmong ids = true := fun h => hid (Event.isAmong_iff.mp h id he)
  rw [Clear, since, List.rtakeWhile_concat_neg _ _ _ hother]
  exact List.forall_mem_nil _

theorem clear_concat (h : Clear ids events) (he : ∀ id ∈ e.id?, id ∉ ids) :
    Clear ids (events ++ [e]) := by
  cases hid : e.id? with
  | some id => exact clear_concat_of_some hid (he id hid)
  | none =>
    rw [Clear, since_append (List.forall_mem_singleton.mpr (by simp [hid]))]
    exact List.forall_mem_append.mpr ⟨h, List.forall_mem_singleton.mpr hid⟩

/-- Reports of other elements leave the last report one of another element. -/
theorem clear_append (h : Clear ids events) (hmore : ∀ e ∈ more, ∀ id ∈ e.id?, id ∉ ids) :
    Clear ids (events ++ more) := by
  induction more generalizing events with
  | nil => rwa [List.append_nil]
  | cons e rest ih =>
    obtain ⟨he, hrest⟩ := List.forall_mem_cons.mp hmore
    rw [List.append_cons]
    exact ih (clear_concat h he) hrest

theorem Clear.mono (h : Clear ids events) (hsubset : others ⊆ ids) : Clear others events := by
  induction events using List.reverseRecOn with
  | nil => exact clear_nil
  | append_singleton events e ih =>
    cases hid : e.id? with
    | some id =>
      refine clear_concat_of_some hid fun hmem => ?_
      have hsince : since ids (events ++ [e]) = since ids events ++ [e] :=
        since_append (List.forall_mem_singleton.mpr fun i hi => by
          cases hid.symm.trans hi
          exact hsubset hmem)
      have hnone := h e (hsince ▸ List.mem_append_right _ List.mem_cons_self)
      cases hid.symm.trans hnone
    | none =>
      have hsince : since ids (events ++ [e]) = since ids events ++ [e] :=
        since_append (List.forall_mem_singleton.mpr (by simp [hid]))
      refine clear_concat (ih fun x hx => h x ?_) (by simp [hid])
      exact hsince ▸ List.mem_append_left _ hx

/-- What tells of no element is neither output nor input. -/
theorem flatMap_since_of_clear (h : Clear ids events) {pick : Event → List Node}
    (hpick : ∀ e, e.id? = none → pick e = []) : (since ids events).flatMap pick = [] :=
  List.flatMap_eq_nil_iff.mpr fun e he => hpick e (h e he)

end Since

end JsonPath
