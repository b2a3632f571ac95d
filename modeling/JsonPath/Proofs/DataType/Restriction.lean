import JsonPath.Proofs.DataType.Exact
import JsonPath.Proofs.DataType.Location
import JsonPath.Proofs.DataType.Occurrence

/-!
Types that are restricted at a location. To make a location present, or to intersect what is there
with another type, describes no values that were not described before. It leaves just those values
that meet the condition where the type says of everything on the way what it is made of: the type
of everything is not taken apart, and an element far behind the described ones is described together
with all others there.
-/

namespace JsonPath.DataType

variable {S : NumberSet} {f : DataType → DataType} {t u : DataType} {v : Option Json}
  {step : Step} {l : Location}

/-- All elements on the way get a type of their own, however few an array type describes. -/
def Near (l : Location) : Prop := ∀ i, Step.index i ∈ l → i < growth

theorem Near.tail (h : Near (step :: l)) : Near l :=
  fun i hi => h i (List.mem_cons_of_mem _ hi)

/-- What is known of the values of members is known of those of a union, on condition that no member
describes everything. -/
theorem of_describes_mapAnnotated {C : Prop} (hv : Json.Held S v)
    (hnormal : ∀ u : DataType, u.isUnion = false → u.Normal S → (f u).Normal S)
    (hf : ∀ u : DataType, u.isUnion = false → u.Normal S → (f u).Describes v →
      u.Describes v ∧ (u.occurs isAny = false → C))
    (ht : t.Normal S) (h : (mapAnnotated f t).Describes v) :
    t.Describes v ∧ (t.occurs isAny = false → C) := by
  induction t using parts_induction with
  | union ms notes ih =>
    have hmembers : ∀ x ∈ ms.map (mapAnnotated f), x.Normal S := by
      refine List.forall_mem_map.mpr fun m hm => ?_
      exact (normal_closed S).mapAnnotated hnormal m (ht.members m hm)
    rw [mapAnnotated, mapAnnotatedEach_eq, describes_mergeNotes,
      (standsFor_ofValue? hv).describes_unionOf_iff hmembers] at h
    obtain ⟨x, hx, h⟩ := h
    obtain ⟨m, hm, rfl⟩ := List.mem_map.mp hx
    obtain ⟨hdescribes, hcondition⟩ := ih m hm (ht.members m hm) h
    refine ⟨.union hm hdescribes, ?_⟩
    intro hany
    exact hcondition (occurs_union_eq_false_iff.mp hany m hm)
  | any | never | literal | primitive | object | array => exact hf _ rfl ht h

section Leaves

variable {notes : Annotations}

theorem bind_child?_of_literal {value : Json} (ht : (literal value notes).Normal S)
    (h : (literal value notes).Describes v) : (v.bind fun u => u.child? step) = none := by
  cases h with
  | literal hsame =>
    cases ht with
    | literal hscalar =>
      exact Json.child?_of_isScalar (Json.isScalar_of_same hsame hscalar) step

theorem bind_child?_of_primitive {kind : Primitive} (h : (primitive kind notes).Describes v) :
    (v.bind fun u => u.child? step) = none := by
  cases h with
  | primitive hkind => exact Json.child?_of_isScalar (Primitive.isScalar_of_eq_some hkind) step
  | nothing => rfl

end Leaves

section Parts

variable {properties : Fields DataType} {front wide : List DataType} {rest changed : DataType}
  {required required' : List String} {minimum minimum' : Nat} {notes : Annotations}
  {Q : Json → Prop}

/-- An object type with the type of one member replaced by a narrower one is narrower. -/
theorem of_describes_ofObject_insert {name : String}
    (hrequired : ∀ other ∈ required, other ∈ required')
    (hchanged : ∀ w : Json, (v.bind fun u => u.child? (.name name)) = some w →
      changed.Describes (some w) → (property properties rest name).Describes (some w) ∧ Q w)
    (h : (ofObject (properties.insert name changed) rest required').Describes v) :
    (object properties rest required notes).Describes v ∧
      ∀ w, (v.bind fun u => u.child? (.name name)) = some w → Q w := by
  rw [describes_ofObject_iff] at h
  cases h with
  | @object _ _ _ _ members hpresent heach =>
    have hmember (w : Json) (hw : Fields.get? members name = some w) := by
      have hdescribes := heach name w hw
      rw [property_insert, if_pos rfl] at hdescribes
      exact hchanged w hw hdescribes
    refine ⟨.object (fun other hother => hpresent other (hrequired other hother)) ?_, ?_⟩
    · intro other w hw
      by_cases hname : name = other
      · subst hname
        exact (hmember w hw).1
      · have hdescribes := heach other w hw
        rwa [property_insert, if_neg hname] at hdescribes
    · exact fun w hw => (hmember w hw).2

theorem exists_child_of_required {name : String} (hname : name ∈ required)
    (h : (ofObject properties rest required).Describes v) :
    ∃ w, (v.bind fun u => u.child? (.name name)) = some w := by
  rw [describes_ofObject_iff] at h
  cases h with
  | object hpresent => exact hpresent name hname

/-- An array type with the type of one element replaced by a narrower one is narrower. -/
theorem of_describes_ofArray_set {i : Nat} (hwide : widen? front rest i = some wide)
    (hminimum : minimum ≤ minimum')
    (hchanged : ∀ w : Json, (v.bind fun u => u.child? (.index i)) = some w →
      changed.Describes (some w) → (element front rest i).Describes (some w) ∧ Q w)
    (h : (ofArray (wide.set i changed) rest minimum').Describes v) :
    (array front rest minimum notes).Describes v ∧
      ∀ w, (v.bind fun u => u.child? (.index i)) = some w → Q w := by
  rw [describes_ofArray_iff] at h
  cases h with
  | @array _ _ _ _ items henough heach =>
    have hitem (w : Json) (hw : items[i]? = some w) := by
      have hdescribes := heach i w hw
      rw [element_widen? hwide, if_pos rfl] at hdescribes
      exact hchanged w hw hdescribes
    refine ⟨.array (Nat.le_trans hminimum henough) ?_, ?_⟩
    · intro j w hw
      by_cases hi : i = j
      · subst hi
        exact (hitem w hw).1
      · have hdescribes := heach j w hw
        rwa [element_widen? hwide, if_neg hi] at hdescribes
    · exact fun w hw => (hitem w hw).2

theorem exists_child_of_lt {i : Nat} (hi : i < minimum)
    (h : (ofArray front rest minimum).Describes v) :
    ∃ w, (v.bind fun u => u.child? (.index i)) = some w := by
  rw [describes_ofArray_iff] at h
  cases h with
  | array henough =>
    exact ⟨_, List.getElem?_eq_getElem (Nat.lt_of_lt_of_le hi henough)⟩

theorem widen?_eq_none_iff {i : Nat} : widen? front rest i = none ↔ front.length + growth ≤ i := by
  unfold widen?
  split <;> simp_all

/-- An element that is far behind the described ones is not near. -/
theorem not_near_of_widen? {i : Nat} (hwide : widen? front rest i = none) :
    ¬ Near (.index i :: l) := by
  intro h
  have hfar := widen?_eq_none_iff.mp hwide
  have hi := h i List.mem_cons_self
  omega

end Parts

section Present

/-- A type with a location made present describes values of the type in which the location leads
to a value. -/
theorem of_describes_presentAt (l : Location) (ht : t.Normal S) (hv : Json.Held S v)
    (h : (presentAt l t).Describes v) :
    t.Describes v ∧ (t.occurs isAny = false → Near l → l ≠ [] ∨ v ≠ none →
      ∃ w, (v.bind fun u => u.at? l) = some w) := by
  induction l generalizing t v with
  | nil =>
    refine ⟨h, ?_⟩
    intro _ _ hsome
    obtain ⟨w, rfl⟩ := Option.ne_none_iff_exists'.mp (hsome.resolve_left fun h => h rfl)
    exact ⟨w, rfl⟩
  | cons step tail ih =>
    rw [presentAt] at h
    refine of_describes_mapAnnotated hv ?_ ?_ ht h
    · intro u hunion hu
      have hnormal := (normal_closed S).presentAt (step :: tail) u hu
      rwa [presentAt, mapAnnotated_of_isUnion hunion] at hnormal
    · intro u hunion hu h
      -- what is known one step inside comes from the types of members and elements
      have hinside {x : DataType} (hx : x.Normal S) (w : Json)
          (hw : (v.bind fun u => u.child? step) = some w)
          (h : (presentAt tail x).Describes (some w)) :
          x.Describes (some w) ∧
            (x.occurs isAny = false → Near tail → ∃ y, w.at? tail = some y) := by
        obtain ⟨hdescribes, hfound⟩ := ih hx (hv.bind_child? step w hw).held h
        exact ⟨hdescribes, fun hany hnear => hfound hany hnear (.inr (Option.some_ne_none w))⟩
      cases u with
      | any => exact ⟨.any, fun hany => by cases hany⟩
      | object properties rest required notes =>
        cases step with
        | index => cases h
        | name name =>
          rw [describes_withNotes] at h
          obtain ⟨hdescribes, hchild⟩ := of_describes_ofObject_insert
            (fun _ => List.mem_append_left _) (hinside ((normal_closed S).property hu name)) h
          refine ⟨hdescribes, fun hany hnear _ => ?_⟩
          obtain ⟨w, hw⟩ := exists_child_of_required
            (List.mem_append_right required (List.mem_singleton_self name)) h
          rw [Json.bind_at?_cons, hw]
          exact hchild w hw (occurs_property hany name) hnear.tail
      | array front rest minimum notes =>
        cases step with
        | name => cases h
        | index i =>
          dsimp only at h
          split at h
          · rename_i hwide
            rw [describes_withNotes] at h
            obtain ⟨hdescribes, hchild⟩ := of_describes_ofArray_set hwide (Nat.le_max_left _ _)
              (hinside ((normal_closed S).element hu i)) h
            refine ⟨hdescribes, fun hany hnear _ => ?_⟩
            obtain ⟨w, hw⟩ := exists_child_of_lt (Nat.le_max_right minimum (i + 1)) h
            rw [Json.bind_at?_cons, hw]
            exact hchild w hw (occurs_element hany i) hnear.tail
          · rename_i hwide
            split at h
            · cases h
            · exact ⟨h, fun _ hnear => absurd hnear (not_near_of_widen? hwide)⟩
      | never | literal | primitive | union => cases h

end Present

section Changes

/-- The change describes nothing new, and of the values only those in `keep`. -/
structure Narrows (S : NumberSet) (f : DataType → DataType) (keep : Json → Prop) : Prop where
  normal : ∀ u : DataType, u.Normal S → (f u).Normal S
  below : ∀ (u : DataType) (v : Option Json), u.Normal S → Json.Held S v → (f u).Describes v →
    u.Describes v
  kept : ∀ (u : DataType) (w : Json), u.Normal S → w.Over S → (f u).Describes (some w) → keep w

theorem narrows_intersect (hu : u.Normal S) :
    Narrows S (fun t => t.intersect u) fun w => u.Describes (some w) where
  normal _ ht := normal_intersect ht hu
  below _ _ ht hv h := (((standsFor_ofValue? hv).describes_intersect_iff ht hu).mp h).1
  kept _ _ ht hw h := (((standsFor_ofJson hw).describes_intersect_iff ht hu).mp h).2

variable {keep : Json → Prop}

/-- An array type in which the type of all further elements is united with a narrower one is as it
was before. -/
theorem of_describes_ofArray_unionOf {front : List DataType} {rest changed : DataType}
    {minimum : Nat} {notes : Annotations} (hrest : rest.Normal S) (hchanged : changed.Normal S)
    (hbelow : ∀ (i : Nat) (w : Json), (v.bind fun u => u.child? (.index i)) = some w →
      changed.Describes (some w) → rest.Describes (some w))
    (hv : Json.Held S v) (h : (ofArray front (unionOf [rest, changed]) minimum).Describes v) :
    (array front rest minimum notes).Describes v := by
  rw [describes_ofArray_iff] at h
  cases h with
  | @array _ _ _ _ items henough heach =>
    refine .array henough ?_
    intro j w hw
    have hitem : w.Over S := hv.bind_child? (.index j) w hw
    have hdescribes := heach j w hw
    by_cases hj : j < front.length
    · rw [element, List.getElem?_eq_getElem hj] at hdescribes ⊢
      exact hdescribes
    · rw [element_of_le (Nat.le_of_not_lt hj)] at hdescribes ⊢
      rw [(standsFor_ofJson hitem).describes_unionOf_pair_iff hrest hchanged] at hdescribes
      exact hdescribes.elim id (hbelow j w hw)

/-- A type with what is at a location narrowed describes values of the type, in which the location
leads to nothing or to a value that is kept. -/
theorem of_describes_changeAt (hf : Narrows S f keep) (l : Location) (ht : t.Normal S)
    (hv : Json.Held S v) (h : (changeAt f l t).Describes v) :
    t.Describes v ∧ (t.occurs isAny = false → Near l →
      ∀ w, (v.bind fun u => u.at? l) = some w → keep w) := by
  induction l generalizing t v with
  | nil =>
    refine ⟨hf.below t v ht hv h, ?_⟩
    intro _ _ w hw
    obtain ⟨u, rfl, hu⟩ := Option.bind_eq_some_iff.mp hw
    obtain rfl := Option.some.inj hu
    exact hf.kept t u ht (hv u rfl) h
  | cons step tail ih =>
    rw [changeAt] at h
    refine of_describes_mapAnnotated hv ?_ ?_ ht h
    · intro u hunion hu
      have hnormal := (normal_closed S).changeAt hf.normal (step :: tail) u hu
      rwa [changeAt, mapAnnotated_of_isUnion hunion] at hnormal
    · intro u hunion hu h
      have hinside {x : DataType} (hx : x.Normal S) (w : Json)
          (hw : (v.bind fun u => u.child? step) = some w)
          (h : (changeAt f tail x).Describes (some w)) :
          x.Describes (some w) ∧ (x.occurs isAny = false → Near tail →
            ∀ y, w.at? tail = some y → keep y) :=
        ih hx (hv.bind_child? step w hw).held h
      -- the location leads to nothing in a value without the first step
      have houtside (hchild : (v.bind fun u => u.child? step) = none) (w : Json)
          (hw : (v.bind fun u => u.at? (step :: tail)) = some w) : keep w := by
        rw [Json.bind_at?_cons, hchild] at hw
        cases hw
      cases u with
      | any => exact ⟨h, fun hany => by cases hany⟩
      | never => cases h
      | union => cases hunion
      | literal => exact ⟨h, fun _ _ => houtside (bind_child?_of_literal hu h)⟩
      | primitive => exact ⟨h, fun _ _ => houtside (bind_child?_of_primitive h)⟩
      | object properties rest required notes =>
        cases step with
        | index =>
          refine ⟨h, fun _ _ => houtside ?_⟩
          cases h
          rfl
        | name name =>
          rw [describes_withNotes] at h
          obtain ⟨hdescribes, hchild⟩ := of_describes_ofObject_insert (fun _ => id)
            (hinside ((normal_closed S).property hu name)) h
          refine ⟨hdescribes, fun hany hnear w hw => ?_⟩
          rw [Json.bind_at?_cons] at hw
          obtain ⟨x, hx, hfound⟩ := Option.bind_eq_some_iff.mp hw
          exact hchild x hx (occurs_property hany name) hnear.tail w hfound
      | array front rest minimum notes =>
        cases step with
        | name =>
          refine ⟨h, fun _ _ => houtside ?_⟩
          cases h
          rfl
        | index i =>
          have helement := (normal_closed S).element hu i
          dsimp only at h
          split at h
          · rename_i hwide
            rw [describes_withNotes] at h
            obtain ⟨hdescribes, hchild⟩ :=
              of_describes_ofArray_set hwide (Nat.le_refl _) (hinside helement) h
            refine ⟨hdescribes, fun hany hnear w hw => ?_⟩
            rw [Json.bind_at?_cons] at hw
            obtain ⟨x, hx, hfound⟩ := Option.bind_eq_some_iff.mp hw
            exact hchild x hx (occurs_element hany i) hnear.tail w hfound
          · rename_i hwide
            refine ⟨?_, fun _ hnear => absurd hnear (not_near_of_widen? hwide)⟩
            rw [describes_withNotes] at h
            have hrest : element front rest i = rest :=
              element_of_le (Nat.le_of_add_right_le (widen?_eq_none_iff.mp hwide)) rest
            rw [hrest] at helement h
            refine of_describes_ofArray_unionOf helement
              ((normal_closed S).changeAt hf.normal tail rest helement) ?_ hv h
            intro j w hw h
            exact (ih helement (hv.bind_child? (.index j) w hw).held h).1

end Changes

/-- The second type describes no more than the first, and all of its values in `keep`. These are all
that it describes if no part of the first type describes everything and the location is near. -/
structure IsRestriction (S : NumberSet) (t restricted : DataType) (l : Location)
    (keep : Json → Prop) : Prop where
  keeps : ∀ v : Json, v.Over S → t.Describes (some v) → keep v → restricted.Describes (some v)
  below : ∀ v, Json.Held S v → restricted.Describes v → t.Describes v
  describes_iff : t.occurs isAny = false → Near l → ∀ v : Json, v.Over S →
    (restricted.Describes (some v) ↔ t.Describes (some v) ∧ keep v)

theorem IsRestriction.of_describes {restricted : DataType} {keep : Json → Prop}
    (hkeeps : ∀ v : Json, v.Over S → t.Describes (some v) → keep v →
      restricted.Describes (some v))
    (h : ∀ v, Json.Held S v → restricted.Describes v →
      t.Describes v ∧ (t.occurs isAny = false → Near l → ∀ w, v = some w → keep w)) :
    IsRestriction S t restricted l keep where
  keeps := hkeeps
  below v hv hdescribes := (h v hv hdescribes).1
  describes_iff hany hnear v hv := by
    constructor
    · intro hdescribes
      obtain ⟨hbelow, hkeep⟩ := h (some v) hv.held hdescribes
      exact ⟨hbelow, hkeep hany hnear v rfl⟩
    · rintro ⟨hdescribes, hkeep⟩
      exact hkeeps v hv hdescribes hkeep

/-- Texts, and objects with `tags`, a number that texts may follow, and truth values otherwise. -/
def tagged : DataType :=
  unionOf [ofObject [("tags", ofArray [ofPrimitive .number] (ofPrimitive .string) 0)]
    (ofPrimitive .boolean) [], ofPrimitive .string]

/-- The location of the second text. -/
def thirdTag : Location := [.name "tags", .index 2]

/-- An object with a number and the given texts for `tags`. -/
def tags (texts : List String) : Json :=
  .object [("tags", .array (.natural 1 :: texts.map .string))]

theorem built_tagged : tagged.Built .whole :=
  .unionOf (forall_mem_pair (.ofObject _ (List.forall_mem_singleton.mpr
    (.ofArray 0 (List.forall_mem_singleton.mpr (.primitive _)) (.primitive _))) (.primitive _))
    (.primitive _))

theorem over_tags (texts : List String) : (tags texts).Over .whole := by
  refine .object (List.nodup_cons.mpr ⟨List.not_mem_nil, List.nodup_nil⟩) ?_
  refine List.forall_mem_singleton.mpr (.array (List.forall_mem_cons.mpr ⟨?_, ?_⟩))
  · exact .number ⟨1, by decide, rfl⟩
  · exact List.forall_mem_map.mpr fun text _ => .string text

theorem describes_tags {texts : List String}
    (h : (ofJson (tags texts)).isSubtypeOf tagged = true) :
    tagged.Describes (some (tags texts)) :=
  ((standsFor_ofJson (over_tags texts)).describes_iff _ built_tagged.normal).mp h

theorem near_thirdTag : Near thirdTag := by
  intro i hi
  obtain rfl : i = 2 := by simpa [thirdTag] using hi
  decide

/-- Making a location present leaves the values of a type in which it leads to a value. -/
theorem isRestriction_presentAt (ht : t.Built S) (l : Location) :
    IsRestriction S t (presentAt l t) l (fun v => ∃ w, v.at? l = some w) ∧
      (l ≠ [] → t.occurs isAny = false → Near l → ¬ (presentAt l t).Describes none) := by
  constructor
  · apply IsRestriction.of_describes
    · rintro v hv h ⟨w, hw⟩
      exact describes_presentAt l t ht.normal.over hv h hw
    · intro v hv h
      obtain ⟨hdescribes, hfound⟩ := of_describes_presentAt l ht.normal hv h
      refine ⟨hdescribes, fun hany hnear w hw => ?_⟩
      subst hw
      exact hfound hany hnear (.inr (Option.some_ne_none w))
  · intro hl hany hnear h
    obtain ⟨w, hw⟩ := (of_describes_presentAt l ht.normal Json.held_none h).2 hany hnear (.inl hl)
    cases hw

theorem isRestriction_presentAt_tags :
    tagged.Built .whole ∧ thirdTag ≠ [] ∧ tagged.occurs isAny = false ∧ Near thirdTag ∧
      ¬ (presentAt thirdTag tagged).Describes none ∧
        ¬ (presentAt thirdTag tagged).Describes (some (tags ["a"])) ∧
          (presentAt thirdTag tagged).Describes (some (tags ["a", "b"])) := by
  have hany : tagged.occurs isAny = false := by decide
  obtain ⟨hrestriction, hnone⟩ := isRestriction_presentAt built_tagged thirdTag
  have hiff := hrestriction.describes_iff hany near_thirdTag
  refine ⟨built_tagged, List.cons_ne_nil _ _, hany, near_thirdTag,
    hnone (List.cons_ne_nil _ _) hany near_thirdTag, ?_, ?_⟩
  · rw [hiff _ (over_tags _)]
    rintro ⟨-, w, hw⟩
    cases hw
  · exact (hiff _ (over_tags _)).mpr ⟨describes_tags (by decide), .string "b", rfl⟩

def onlyB : DataType := ofJson (.string "b")

theorem built_onlyB : onlyB.Built .whole := .ofJson (.string "b")

/-- Narrowing what is at a location leaves the values of a type in which the location leads to
nothing or to a value of the other type. -/
theorem isRestriction_changeAt (ht : t.Built S) (hu : u.Built S) (l : Location) :
    IsRestriction S t (changeAt (fun x => x.intersect u) l t) l
      fun v => ∀ w, v.at? l = some w → u.Describes (some w) := by
  have hnarrows := narrows_intersect hu.normal
  apply IsRestriction.of_describes
  · intro v hv h hkeep
    refine describes_changeAt (fun x hx => (meets_intersect x hx u hu.normal.over).1) l t
      ht.normal.over hv h ?_
    intro w hw x hx hdescribes
    exact (meets_intersect x hx u hu.normal.over).2 (some w) (hv.at? hw).held hdescribes
      (hkeep w hw)
  · intro v hv h
    obtain ⟨hdescribes, hkept⟩ := of_describes_changeAt hnarrows l ht.normal hv h
    refine ⟨hdescribes, fun hany hnear w hw => ?_⟩
    subst hw
    exact hkept hany hnear

theorem isRestriction_changeAt_tags :
    tagged.Built .whole ∧ onlyB.Built .whole ∧ tagged.occurs isAny = false ∧ Near thirdTag ∧
      (changeAt (fun x => x.intersect onlyB) thirdTag tagged).Describes (some (tags ["a"])) ∧
        (changeAt (fun x => x.intersect onlyB) thirdTag tagged).Describes
          (some (tags ["a", "b"])) ∧
          ¬ (changeAt (fun x => x.intersect onlyB) thirdTag tagged).Describes
            (some (tags ["a", "c"])) := by
  have hany : tagged.occurs isAny = false := by decide
  have hiff := (isRestriction_changeAt built_tagged built_onlyB thirdTag).describes_iff hany
    near_thirdTag
  refine ⟨built_tagged, built_onlyB, hany, near_thirdTag, ?_, ?_, ?_⟩
  · refine (hiff _ (over_tags _)).mpr ⟨describes_tags (by decide), ?_⟩
    intro w hw
    cases hw
  · refine (hiff _ (over_tags _)).mpr ⟨describes_tags (by decide), ?_⟩
    intro w hw
    obtain rfl := Option.some.inj hw
    exact .literal (Json.same_refl (.string (S := .whole) "b"))
  · rw [hiff _ (over_tags _)]
    rintro ⟨-, hkept⟩
    cases hkept (.string "c") rfl with
    | literal hsame => exact absurd hsame (by decide)

end JsonPath.DataType
