import JsonPath.Proofs.DataType.Subtype

/-!
A union describes whatever one of its members describes. Members that are dropped on the way to
its normal form leave their values to those that stay. What is shared by all members and kept by
the normal form is shared by the union.
-/

namespace JsonPath.DataType

variable {S : NumberSet}

/-- A property of types that is kept by the members of unions while these become normal. -/
structure MemberClosed (P : DataType → Prop) : Prop where
  boolean : P (ofPrimitive .boolean)
  mergeNotes : ∀ {t u}, P t → P (t.mergeNotes u)

/-- A property of types that a union has if all its members have it. -/
structure UnionClosed (P : DataType → Prop) : Prop extends MemberClosed P where
  members : ∀ {ts notes}, P (.union ts notes) → ∀ t ∈ ts, P t
  union : ∀ {ts}, (∀ t ∈ ts, P t) → P (.union ts {})
  bottom : P bottom

theorem over_unionClosed : UnionClosed (Over S) where
  members h := by
    cases h with
    | union heach => exact heach
  union := .union
  boolean := .primitive
  bottom := .never
  mergeNotes := over_mergeNotes.mpr

section Union

variable {P : DataType → Prop} {v : Option Json}

theorem UnionClosed.flatten (hP : UnionClosed P) {ts : List DataType} (h : ∀ t ∈ ts, P t) :
    ∀ t ∈ DataType.flatten ts, P t := by
  induction ts with
  | nil => exact List.forall_mem_nil _
  | cons t rest ih =>
    obtain ⟨ht, hrest⟩ := List.forall_mem_cons.mp h
    have hothers := ih hrest
    cases t with
    | union => exact List.forall_mem_append.mpr ⟨hP.members ht, hothers⟩
    | never => exact hothers
    | any | literal | primitive | object | array => exact List.forall_mem_cons.mpr ⟨ht, hothers⟩

theorem describes_flatten {ts : List DataType} {t : DataType} (ht : t ∈ ts) (h : t.Describes v) :
    ∃ u ∈ flatten ts, u.Describes v := by
  induction ts with
  | nil => cases ht
  | cons first rest ih =>
    rcases List.mem_cons.mp ht with rfl | ht
    · cases t with
      | union ms notes =>
        cases h with
        | union hmem hdescribes => exact ⟨_, List.mem_append_left _ hmem, hdescribes⟩
      | never => cases h
      | any | literal | primitive | object | array => exact ⟨_, List.mem_cons_self, h⟩
    · obtain ⟨u, hu, hdescribes⟩ := ih ht
      refine ⟨u, ?_, hdescribes⟩
      cases first with
      | union => exact List.mem_append_right _ hu
      | never => exact hu
      | any | literal | primitive | object | array => exact List.mem_cons_of_mem _ hu

theorem isAny_eq_true {t : DataType} (h : t.isAny = true) : ∃ notes, t = .any notes := by
  cases t <;> first | exact ⟨_, rfl⟩ | cases h

theorem isTruth_eq_true {b : Bool} {t : DataType} (h : isTruth b t = true) :
    ∃ notes, t = .literal (.bool b) notes := by
  cases t with
  | literal value notes =>
    cases value with
    | bool c =>
      rw [isTruth, beq_iff_eq] at h
      subst h
      exact ⟨notes, rfl⟩
    | _ => cases h
  | _ => cases h

theorem MemberClosed.joinTruths (hP : MemberClosed P) {ts : List DataType} (h : ∀ t ∈ ts, P t) :
    ∀ t ∈ DataType.joinTruths ts, P t := by
  unfold DataType.joinTruths
  split
  · refine List.forall_mem_append.mpr ⟨?_, List.forall_mem_singleton.mpr hP.boolean⟩
    intro t ht
    exact h t (List.mem_filter.mp ht).1
  · exact h

theorem describes_joinTruths {ts : List DataType} {t : DataType} (ht : t ∈ ts)
    (h : t.Describes v) : ∃ u ∈ joinTruths ts, u.Describes v := by
  unfold joinTruths
  split
  · have htruth (b : Bool) (hb : isTruth b t = true) : (ofPrimitive .boolean).Describes v := by
      obtain ⟨notes, rfl⟩ := isTruth_eq_true hb
      cases h with
      | literal hsame => exact .primitive (Primitive.of?_eq_of_same hsame)
    have hlast {ts : List DataType} : ofPrimitive .boolean ∈ ts ++ [ofPrimitive .boolean] :=
      List.mem_append_right _ List.mem_cons_self
    cases htrue : isTruth true t with
    | true => exact ⟨_, hlast, htruth true htrue⟩
    | false =>
      cases hfalse : isTruth false t with
      | true => exact ⟨_, hlast, htruth false hfalse⟩
      | false =>
        refine ⟨t, List.mem_append_left _ (List.mem_filter.mpr ⟨ht, ?_⟩), h⟩
        rw [htrue, hfalse]
        rfl
  · exact ⟨t, ht, h⟩

theorem MemberClosed.absorb? (hP : MemberClosed P) {t : DataType} {ts absorbed : List DataType}
    (h : ∀ u ∈ ts, P u) (heq : DataType.absorb? t ts = some absorbed) : ∀ u ∈ absorbed, P u := by
  induction ts generalizing absorbed with
  | nil => cases heq
  | cons s rest ih =>
    obtain ⟨hs, hrest⟩ := List.forall_mem_cons.mp h
    rw [DataType.absorb?] at heq
    split at heq
    · cases heq
      refine List.forall_mem_cons.mpr ⟨?_, hrest⟩
      split
      · exact hP.mergeNotes hs
      · exact hs
    · obtain ⟨others, hothers, rfl⟩ := Option.map_eq_some_iff.mp heq
      exact List.forall_mem_cons.mpr ⟨hs, ih hrest hothers⟩

/-- What absorbs a type describes what the type describes, besides what it did before. -/
theorem describes_absorb? {t : DataType} {ts absorbed : List DataType} (hts : ∀ u ∈ ts, u.Over S)
    (ht : t.Over S) (hv : Json.Held S v) (heq : absorb? t ts = some absorbed)
    (h : t.Describes v ∨ ∃ u ∈ ts, u.Describes v) : ∃ u ∈ absorbed, u.Describes v := by
  induction ts generalizing absorbed with
  | nil => cases heq
  | cons s rest ih =>
    obtain ⟨hs, hrest⟩ := List.forall_mem_cons.mp hts
    rw [absorb?] at heq
    split at heq
    · rename_i hsub
      cases heq
      have hhead (hdescribes : s.Describes v) :
          (if s.same t then s.mergeNotes t else s).Describes v := by
        split
        · exact describes_mergeNotes.mpr hdescribes
        · exact hdescribes
      rcases h with h | ⟨u, hu, h⟩
      · exact ⟨_, List.mem_cons_self, hhead (h.of_isSubtypeOf ht hs hv hsub)⟩
      · rcases List.mem_cons.mp hu with rfl | hu
        · exact ⟨_, List.mem_cons_self, hhead h⟩
        · exact ⟨u, List.mem_cons_of_mem _ hu, h⟩
    · obtain ⟨others, hothers, rfl⟩ := Option.map_eq_some_iff.mp heq
      have hothersDescribe (h : t.Describes v ∨ ∃ u ∈ rest, u.Describes v) :
          ∃ u ∈ s :: others, u.Describes v := by
        obtain ⟨u, hu, hdescribes⟩ := ih hrest hothers h
        exact ⟨u, List.mem_cons_of_mem _ hu, hdescribes⟩
      rcases h with h | ⟨u, hu, h⟩
      · exact hothersDescribe (.inl h)
      · rcases List.mem_cons.mp hu with rfl | hu
        · exact ⟨u, List.mem_cons_self, h⟩
        · exact hothersDescribe (.inr ⟨u, hu, h⟩)

theorem MemberClosed.addMember (hP : MemberClosed P) {t : DataType} {ts : List DataType}
    (h : ∀ u ∈ ts, P u) (ht : P t) : ∀ u ∈ DataType.addMember ts t, P u := by
  unfold DataType.addMember
  split
  · rename_i heq
    exact hP.absorb? h heq
  · refine List.forall_mem_append.mpr ⟨?_, List.forall_mem_singleton.mpr ht⟩
    intro u hu
    exact h u (List.mem_filter.mp hu).1

theorem describes_addMember {t : DataType} {ts : List DataType} (hts : ∀ u ∈ ts, u.Over S)
    (ht : t.Over S) (hv : Json.Held S v) (h : t.Describes v ∨ ∃ u ∈ ts, u.Describes v) :
    ∃ u ∈ addMember ts t, u.Describes v := by
  unfold addMember
  split
  · rename_i heq
    exact describes_absorb? hts ht hv heq h
  · have hlast : t ∈ ts.filter (fun s => !s.isSubtypeOf t) ++ [t] :=
      List.mem_append_right _ List.mem_cons_self
    rcases h with h | ⟨u, hu, h⟩
    · exact ⟨t, hlast, h⟩
    · -- a member that goes is a subtype of the one that comes
      cases hsub : u.isSubtypeOf t with
      | true => exact ⟨t, hlast, h.of_isSubtypeOf (hts u hu) ht hv hsub⟩
      | false =>
        refine ⟨u, List.mem_append_left _ (List.mem_filter.mpr ⟨hu, ?_⟩), h⟩
        rw [hsub]
        rfl

theorem MemberClosed.foldl_addMember (hP : MemberClosed P) {ts found : List DataType}
    (hfound : ∀ u ∈ found, P u) (hts : ∀ u ∈ ts, P u) :
    ∀ u ∈ ts.foldl DataType.addMember found, P u := by
  induction ts generalizing found with
  | nil => exact hfound
  | cons t rest ih =>
    obtain ⟨ht, hrest⟩ := List.forall_mem_cons.mp hts
    exact ih (hP.addMember hfound ht) hrest

theorem describes_foldl_addMember {ts found : List DataType} (hfound : ∀ u ∈ found, u.Over S)
    (hts : ∀ u ∈ ts, u.Over S) (hv : Json.Held S v)
    (h : (∃ u ∈ found, u.Describes v) ∨ ∃ u ∈ ts, u.Describes v) :
    ∃ u ∈ ts.foldl addMember found, u.Describes v := by
  induction ts generalizing found with
  | nil =>
    rcases h with h | ⟨u, hu, -⟩
    · exact h
    · cases hu
  | cons t rest ih =>
    obtain ⟨ht, hrest⟩ := List.forall_mem_cons.mp hts
    refine ih (over_unionClosed.addMember hfound ht) hrest ?_
    rcases h with h | ⟨u, hu, h⟩
    · exact .inl (describes_addMember hfound ht hv (.inr h))
    · rcases List.mem_cons.mp hu with rfl | hu
      · exact .inl (describes_addMember hfound ht hv (.inl h))
      · exact .inr ⟨u, hu, h⟩

theorem UnionClosed.unionOf (hP : UnionClosed P) {ts : List DataType} (h : ∀ t ∈ ts, P t) :
    P (DataType.unionOf ts) := by
  have hflat := hP.flatten h
  have hmembers := hP.foldl_addMember (List.forall_mem_nil _) (hP.joinTruths hflat)
  unfold DataType.unionOf
  dsimp only
  split
  · rename_i hfind
    exact hflat _ (List.mem_of_find?_eq_some hfind)
  · split
    · exact hP.bottom
    · rename_i hone
      rw [hone] at hmembers
      exact hmembers _ List.mem_cons_self
    · exact hP.union hmembers

theorem over_unionOf {ts : List DataType} (h : ∀ t ∈ ts, t.Over S) : (unionOf ts).Over S :=
  over_unionClosed.unionOf h

/-- A union describes what any of the types describes. -/
theorem describes_unionOf {ts : List DataType} (hts : ∀ t ∈ ts, t.Over S)
    (hv : Json.Held S v) {t : DataType} (ht : t ∈ ts) (h : t.Describes v) :
    (unionOf ts).Describes v := by
  obtain ⟨u, hu, hdescribes⟩ := describes_flatten ht h
  unfold unionOf
  dsimp only
  split
  · rename_i hfind
    obtain ⟨notes, rfl⟩ := isAny_eq_true (List.find?_some hfind)
    exact .any
  · obtain ⟨w, hw, hdescribes⟩ := describes_joinTruths hu hdescribes
    have hover := over_unionClosed.joinTruths (over_unionClosed.flatten hts)
    obtain ⟨x, hx, hdescribes⟩ := describes_foldl_addMember (List.forall_mem_nil _) hover hv
      (.inr ⟨w, hw, hdescribes⟩)
    split
    · rename_i hnone
      rw [hnone] at hx
      cases hx
    · rename_i hone
      rw [hone] at hx
      rw [List.mem_singleton.mp hx] at hdescribes
      exact hdescribes
    · exact .union hx hdescribes

section Pair

variable {t u : DataType}

theorem over_pair (ht : t.Over S) (hu : u.Over S) : ∀ x ∈ [t, u], x.Over S :=
  List.forall_mem_cons.mpr ⟨ht, List.forall_mem_singleton.mpr hu⟩

theorem over_unionOf_pair (ht : t.Over S) (hu : u.Over S) : (unionOf [t, u]).Over S :=
  over_unionOf (over_pair ht hu)

theorem describes_unionOf_pair (ht : t.Over S) (hu : u.Over S) (hv : Json.Held S v)
    (h : t.Describes v ∨ u.Describes v) : (unionOf [t, u]).Describes v := by
  rcases h with h | h
  · exact describes_unionOf (over_pair ht hu) hv List.mem_cons_self h
  · exact describes_unionOf (over_pair ht hu) hv (List.mem_cons_of_mem _ List.mem_cons_self) h

end Pair

end Union

end JsonPath.DataType
