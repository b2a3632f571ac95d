import JsonPath.Proofs.DataType.Difference
import JsonPath.Proofs.DataType.Image
import JsonPath.Proofs.DataType.Restriction

/-!
Types all of whose parts are values of a known make. Such types are in normal form, and no part of
them describes everything or the absence of a value. They stay so when a location is made present,
when what is at a location is taken away, and under intersection and union, and each of them other
than the empty type describes a value.
-/

namespace JsonPath.DataType

variable {S : NumberSet} {test : DataType → Bool} {t u : DataType} {l : Location}

section Occurrence

theorem isAny_unmade : Unmade isAny where
  boolean := rfl
  bottom := rfl
  withNotes _ _ := isAny_withNotes

/-- What does not occur in a type does not occur where the type is rebuilt from its parts. -/
theorem occurs_rebuilt (h : Unmade test) : Rebuilt fun t => t.occurs test = false where
  bottom := h.bottom
  object := occurs_ofObject h
  array := occurs_ofArray h
  union := (occurs_unionClosed h).unionOf
  withNotes notes ht := (occurs_withNotes h notes).trans ht
  properties h := (occurs_object_eq_false_iff.mp h).1
  others h := (occurs_object_eq_false_iff.mp h).2
  front h := (occurs_array_eq_false_iff.mp h).1
  further h := (occurs_array_eq_false_iff.mp h).2
  members h := occurs_union_eq_false_iff.mp h

end Occurrence

/-- What is common to a type and the absence of a value is nothing, unless the type describes the
absence. -/
theorem isNever_intersect_nothing (hu : u.Normal S) (h : ¬ u.Describes none) :
    (u.intersect nothing).isNever = true := by
  have hmeet := hasMeets hu nothing .primitive
  rw [isNever_iff_isSubtypeOf_bottom hmeet.1, isSubtypeOf_iff_atoms hmeet.1]
  intro a ha
  obtain ⟨hnormal, hatom⟩ := hmeet.1.atoms a ha
  have hself := hmeet.1.isSubtypeOf_of_mem_atoms ha
  obtain ⟨hbelow, hnothing⟩ := (hmeet.isSubtypeOf_iff hnormal).mp hself
  -- an atom of the intersection is the absence of a value, which the type would then describe
  have habsent := isSubtypeOf_of_isSingleton hatom hnormal (.primitive (S := S)) rfl hnothing
  have hsub := isSubtypeOf_trans (.primitive (S := S)) hnormal hu habsent hbelow
  exact absurd ((mayBeNothing_iff u).mp hsub) h

/-- The type is in normal form, and no part of it describes everything or the absence of a
value. -/
def Definite (S : NumberSet) (t : DataType) : Prop :=
  t.Normal S ∧ t.occurs isAny = false ∧ t.occurs isNothing = false

theorem definite_rebuilt (S : NumberSet) : Rebuilt (Definite S) :=
  (normal_closed S).and ((occurs_rebuilt isAny_unmade).and (occurs_rebuilt isNothing_unmade))

namespace Definite

variable {v : Json}

theorem not_describes_none (ht : t.Definite S) : ¬ t.Describes none :=
  DataType.not_describes_none ht.2.2 ht.2.1

theorem intersect (ht : t.Definite S) (hu : u.Definite S) : (t.intersect u).Definite S :=
  ⟨normal_intersect ht.1 hu.1, occurs_intersect isAny_unmade ht.2.1 u hu.2.1,
    occurs_intersect isNothing_unmade ht.2.2 u hu.2.2⟩

theorem foldl_intersect {ts : List DataType} (ht : t.Definite S) (hts : ∀ u ∈ ts, u.Definite S) :
    (ts.foldl DataType.intersect t).Definite S :=
  List.foldlRecOn ts _ ht fun _ h u hu => h.intersect (hts u hu)

theorem presentAt (ht : t.Definite S) (l : Location) : (presentAt l t).Definite S :=
  (definite_rebuilt S).presentAt l t ht

/-- Where something is taken away, nothing is left that could be described. -/
theorem absentAt (ht : t.Definite S) (l : Location) :
    (changeAt (fun u => u.intersect nothing) l t).Definite S := by
  refine (definite_rebuilt S).changeAt ?_ l t ht
  intro u hu
  obtain ⟨notes, heq⟩ := isNever_eq_true (isNever_intersect_nothing hu.1 hu.not_describes_none)
  rw [heq]
  exact ⟨.never, rfl, rfl⟩

/-- To make a location present leaves the values in which it leads to a value. -/
theorem describes_presentAt_iff (ht : t.Definite S) (hl : Near l) (hv : v.Over S) :
    (DataType.presentAt l t).Describes (some v) ↔
      t.Describes (some v) ∧ (v.at? l).isSome = true := by
  rw [Option.isSome_iff_exists]
  constructor
  · intro h
    obtain ⟨hdescribes, hfound⟩ := of_describes_presentAt l ht.1 hv.held h
    exact ⟨hdescribes, hfound ht.2.1 hl (.inr (Option.some_ne_none v))⟩
  · rintro ⟨hdescribes, w, hw⟩
    exact describes_presentAt l t ht.1.over hv hdescribes hw

/-- To take away what is at a location leaves the values in which it leads to nothing. -/
theorem describes_absentAt_iff (ht : t.Definite S) (hl : Near l) (hv : v.Over S) :
    (changeAt (fun u => u.intersect nothing) l t).Describes (some v) ↔
      t.Describes (some v) ∧ (v.at? l).isSome = false := by
  rw [Option.isSome_eq_false_iff, Option.isNone_iff_eq_none]
  constructor
  · intro h
    obtain ⟨hdescribes, hkept⟩ :=
      of_describes_changeAt (narrows_intersect .primitive) l ht.1 hv.held h
    refine ⟨hdescribes, Option.eq_none_iff_forall_not_mem.mpr fun w hw => ?_⟩
    cases describes_nothing_iff.mp (hkept ht.2.1 hl w hw)
  · rintro ⟨hdescribes, hnone⟩
    refine describes_changeAt (fun u hu => (meets_intersect u hu nothing .primitive).1) l t
      ht.1.over hv hdescribes ?_
    intro w hw
    rw [hnone] at hw
    cases hw

end Definite

end JsonPath.DataType
