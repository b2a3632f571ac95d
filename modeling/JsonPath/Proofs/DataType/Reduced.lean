import JsonPath.Proofs.DataType.Exact

/-!
Unions in reduced form. Uniting types gives the empty type, one type that is not a union, or a union
of several members that are unrelated to each other and do not hold both truth values. It describes
what the types describe, in whichever order they come. Each member that arrives is absorbed by an
earlier one or drives out its own subtypes, so the members that were found stay unrelated.
-/

namespace JsonPath.DataType

variable {S : NumberSet} {t u : DataType} {ts : List DataType}

/-- Neither type is a subtype of the other. -/
def Unrelated (t u : DataType) : Prop := t.isSubtypeOf u = false ∧ u.isSubtypeOf t = false

/-- The form of united types. The members of a union are neither unions nor empty nor the type of
everything. -/
inductive Reduced : DataType → Prop
  | never {notes : Annotations} : Reduced (.never notes)
  | single {t : DataType} (possible : t.isNever = false) (single : t.isUnion = false) : Reduced t
  | union {members : List DataType} {notes : Annotations} (several : 2 ≤ members.length)
      (plain : ∀ m ∈ members, m.isPlain = true) (unrelated : members.Pairwise Unrelated)
      (truths : ¬ (members.any (isTruth true) = true ∧ members.any (isTruth false) = true)) :
      Reduced (.union members notes)

section Unrelated

theorem withNotes_mergeNotes (notes : Annotations) :
    (t.mergeNotes u).withNotes notes = t.withNotes notes := by
  unfold mergeNotes
  split
  · rfl
  · cases t <;> rfl

/-- A type that absorbs another keeps all but its annotations. -/
theorem map_withNotes_absorb? {absorbed : List DataType} (h : absorb? t ts = some absorbed) :
    absorbed.map (withNotes {}) = ts.map (withNotes {}) := by
  induction ts generalizing absorbed with
  | nil => cases h
  | cons first rest ih =>
    rw [absorb?] at h
    split at h
    · cases h
      rw [List.map_cons, List.map_cons]
      split
      · rw [withNotes_mergeNotes]
      · rfl
    · obtain ⟨others, hothers, rfl⟩ := Option.map_eq_some_iff.mp h
      rw [List.map_cons, List.map_cons, ih hothers]

theorem isSubtypeOf_of_absorb?_eq_none (h : absorb? t ts = none) :
    ∀ s ∈ ts, t.isSubtypeOf s = false := by
  induction ts with
  | nil => exact List.forall_mem_nil _
  | cons first rest ih =>
    rw [absorb?] at h
    split at h
    · cases h
    · rename_i hsub
      exact List.forall_mem_cons.mpr
        ⟨eq_false_of_ne_true hsub, ih (Option.map_eq_none_iff.mp h)⟩

theorem pairwise_map_withNotes :
    (ts.map (withNotes {})).Pairwise Unrelated ↔ ts.Pairwise Unrelated := by
  rw [List.pairwise_map]
  refine List.Pairwise.iff fun s u => ?_
  rw [Unrelated, Unrelated, isSubtypeOf_withNotes_left, isSubtypeOf_withNotes_right,
    isSubtypeOf_withNotes_left, isSubtypeOf_withNotes_right]

/-- Members stay unrelated when one more arrives. -/
theorem pairwise_addMember (h : ts.Pairwise Unrelated) (t : DataType) :
    (addMember ts t).Pairwise Unrelated := by
  unfold addMember
  split
  · rename_i heq
    rw [← pairwise_map_withNotes, map_withNotes_absorb? heq, pairwise_map_withNotes]
    exact h
  · rename_i hnone
    rw [List.pairwise_append]
    refine ⟨h.filter _, List.pairwise_singleton _ _, ?_⟩
    intro s hs x hx
    obtain ⟨hmem, hkept⟩ := List.mem_filter.mp hs
    rw [List.mem_singleton.mp hx]
    exact ⟨by simpa using hkept, isSubtypeOf_of_absorb?_eq_none hnone s hmem⟩

theorem pairwise_foldl_addMember {found : List DataType} (h : found.Pairwise Unrelated) :
    (ts.foldl addMember found).Pairwise Unrelated := by
  induction ts generalizing found with
  | nil => exact h
  | cons t rest ih => exact ih (pairwise_addMember h t)

end Unrelated

section Truths

theorem isTruth_withNotes (b : Bool) (notes : Annotations) :
    isTruth b (t.withNotes notes) = isTruth b t := by
  cases t with
  | literal v => cases v <;> rfl
  | any | never | primitive | object | array | union => rfl

theorem otherThanTruth_memberClosed (b : Bool) : MemberClosed fun t => isTruth b t = false where
  boolean := rfl
  mergeNotes h := by
    unfold mergeNotes
    split
    · exact h
    · rwa [isTruth_withNotes]

/-- One of the truth values is missing after both of them have become the boolean type. -/
theorem exists_forall_mem_joinTruths (ts : List DataType) :
    ∃ b, ∀ t ∈ joinTruths ts, isTruth b t = false := by
  unfold joinTruths
  split
  · refine ⟨true, List.forall_mem_append.mpr ⟨?_, List.forall_mem_singleton.mpr rfl⟩⟩
    intro t ht
    have hkept := (List.mem_filter.mp ht).2
    rw [Bool.and_eq_true, Bool.not_eq_true', Bool.not_eq_true'] at hkept
    exact hkept.1
  · rename_i hboth
    cases htrue : ts.any (isTruth true) with
    | false => exact ⟨true, by simpa using htrue⟩
    | true =>
      rw [htrue, Bool.true_and] at hboth
      exact ⟨false, by simpa using hboth⟩

theorem not_both_truths {b : Bool} (h : ∀ t ∈ ts, isTruth b t = false) :
    ¬ (ts.any (isTruth true) = true ∧ ts.any (isTruth false) = true) := by
  have hnone : ts.any (isTruth b) = false := List.any_eq_false.mpr fun t ht => by rw [h t ht]; nofun
  rintro ⟨htrue, hfalse⟩
  cases b with
  | true =>
    rw [hnone] at htrue
    cases htrue
  | false =>
    rw [hnone] at hfalse
    cases hfalse

end Truths

theorem reduced_unionOf (hts : ∀ t ∈ ts, t.Normal S) : (unionOf ts).Reduced := by
  unfold unionOf
  dsimp only
  split
  · rename_i hfind
    obtain ⟨notes, rfl⟩ := isAny_eq_true (List.find?_some hfind)
    exact .single rfl rfl
  · rename_i hany
    have hmembers := summand_memberClosed.foldl_addMember (List.forall_mem_nil _)
      (summand_memberClosed.joinTruths (summand_flatten hts hany))
    have hunrelated : ((joinTruths (flatten ts)).foldl addMember []).Pairwise Unrelated :=
      pairwise_foldl_addMember .nil
    obtain ⟨b, hb⟩ := exists_forall_mem_joinTruths (flatten ts)
    have htruths := (otherThanTruth_memberClosed b).foldl_addMember (List.forall_mem_nil _) hb
    split
    · exact .never
    · rename_i hone
      rw [hone] at hmembers
      obtain ⟨-, hplain⟩ := hmembers _ List.mem_cons_self
      exact .single (isNever_eq_false_of_isPlain hplain) (isUnion_eq_false_of_isPlain hplain)
    · rename_i hnil hone
      refine .union ?_ (fun m hm => (hmembers m hm).2) hunrelated (not_both_truths htruths)
      cases hlist : (joinTruths (flatten ts)).foldl addMember [] with
      | nil => exact absurd hlist hnil
      | cons first rest =>
        cases rest with
        | nil => exact absurd hlist (hone first)
        | cons => exact Nat.le_add_left 2 _

/-- United types are in reduced form and describe what one of the types describes. -/
theorem reduced_unionOf_describes_iff (hts : ∀ t ∈ ts, t.Built S) :
    (unionOf ts).Reduced ∧
      ∀ v, Json.Held S v → ((unionOf ts).Describes v ↔ ∃ t ∈ ts, t.Describes v) := by
  have hnormal : ∀ t ∈ ts, t.Normal S := fun t ht => (hts t ht).normal
  refine ⟨reduced_unionOf hnormal, ?_⟩
  intro v hv
  exact (standsFor_ofValue? hv).describes_unionOf_iff hnormal

/-- A text that is driven out by all texts, and the two truth values, one of them in a union. -/
def textsAndTruths : List DataType :=
  [ofJson (.string "x"), ofBool true, ofPrimitive .string, unionOf [ofBool false, nothing]]

theorem reduced_unionOf_describes_iff_truths :
    (∀ t ∈ textsAndTruths, t.Built .whole) ∧ Json.Held .whole (some (.bool false)) ∧
      (unionOf textsAndTruths).Reduced ∧ (unionOf textsAndTruths).members.length = 3 ∧
      (unionOf textsAndTruths).Describes (some (.bool false)) := by
  have htruth (b : Bool) : (ofBool b).Built .whole := .ofJson (.bool b)
  have hpair : (unionOf [ofBool false, nothing]).Built .whole :=
    .unionOf (forall_mem_pair (htruth false) (.primitive _))
  have hbuilt : ∀ t ∈ textsAndTruths, t.Built .whole :=
    List.forall_mem_cons.mpr ⟨.ofJson (.string "x"),
      List.forall_mem_cons.mpr ⟨htruth true, forall_mem_pair (.primitive _) hpair⟩⟩
  have hheld : Json.Held .whole (some (.bool false)) := (Json.Over.bool false).held
  have hfalse : (unionOf [ofBool false, nothing]).Describes (some (.bool false)) :=
    .union List.mem_cons_self (.literal rfl)
  obtain ⟨hreduced, hdescribes⟩ := reduced_unionOf_describes_iff hbuilt
  refine ⟨hbuilt, hheld, hreduced, by decide +kernel, ?_⟩
  exact (hdescribes _ hheld).mpr ⟨_, by simp [textsAndTruths], hfalse⟩

end JsonPath.DataType
