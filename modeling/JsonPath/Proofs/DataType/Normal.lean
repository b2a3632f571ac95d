import JsonPath.Proofs.DataType.Algebra
import JsonPath.Proofs.DataType.Closed

/-!
Types in normal form. Nothing that an object or an array requires is impossible, no described
element is, and the members of a union are neither unions nor empty nor the type of everything.
A literal is a scalar other than null, which has a primitive type. The functions that build types
keep them in this form.
-/

namespace JsonPath.DataType

variable {S : NumberSet}

/-- The type may be a member of a union. -/
def isPlain : DataType → Bool
  | any _ | never _ | union _ _ => false
  | _ => true

/-- The type is in normal form and its literals are scalars with numbers of the set. -/
inductive Normal (S : NumberSet) : DataType → Prop
  | any {notes : Annotations} : Normal S (.any notes)
  | never {notes : Annotations} : Normal S (.never notes)
  | literal {v : Json} {notes : Annotations} (scalar : v.IsScalar) (numbers : v.Over S)
      (other : v ≠ .null) : Normal S (.literal v notes)
  | primitive {kind : Primitive} {notes : Annotations} : Normal S (.primitive kind notes)
  | object {properties : List (String × DataType)} {rest : DataType} {required : List String}
      {notes : Annotations} (each : ∀ p ∈ properties, Normal S p.2) (others : Normal S rest)
      (possible : ∀ name ∈ required, (property properties rest name).isNever = false) :
      Normal S (.object properties rest required notes)
  | array {front : List DataType} {rest : DataType} {minimum : Nat} {notes : Annotations}
      (each : ∀ t ∈ front, Normal S t) (others : Normal S rest)
      (present : ∀ t ∈ front, t.isNever = false)
      (possible : front.length < minimum → rest.isNever = false) :
      Normal S (.array front rest minimum notes)
  | union {members : List DataType} {notes : Annotations} (each : ∀ t ∈ members, Normal S t)
      (plain : ∀ t ∈ members, t.isPlain = true) (nonempty : members ≠ []) :
      Normal S (.union members notes)

theorem Normal.over {t : DataType} (h : t.Normal S) : t.Over S := by
  induction h with
  | any => exact .any
  | never => exact .never
  | literal hscalar hnumbers _ => exact .literal hscalar hnumbers
  | primitive => exact .primitive
  | object _ _ _ ihprops ihrest => exact .object ihprops ihrest
  | array _ _ _ _ ihfront ihrest => exact .array ihfront ihrest
  | union _ _ _ ih => exact .union ih

theorem Normal.mono {T : NumberSet} {t : DataType} (h : ∀ n, S.Mem n → T.Mem n)
    (ht : t.Normal S) : t.Normal T := by
  induction ht with
  | any => exact .any
  | never => exact .never
  | literal hscalar hnumbers hother => exact .literal hscalar (hnumbers.mono h) hother
  | primitive => exact .primitive
  | object _ _ hpossible ihprops ihrest => exact .object ihprops ihrest hpossible
  | array _ _ hpresent hpossible ihfront ihrest => exact .array ihfront ihrest hpresent hpossible
  | union _ hplain hnonempty ih => exact .union ih hplain hnonempty

theorem Normal.members {ms : List DataType} {notes : Annotations}
    (h : (DataType.union ms notes).Normal S) : ∀ m ∈ ms, m.Normal S := by
  cases h with
  | union heach _ _ => exact heach

theorem normal_truth (b : Bool) (notes : Annotations) : (literal (.bool b) notes).Normal S :=
  .literal trivial (.bool b) nofun

section Notes

variable {t other : DataType} {notes : Annotations}

@[simp] theorem normal_withNotes : (t.withNotes notes).Normal S ↔ t.Normal S := by
  cases t <;> constructor <;> intro h <;> cases h <;> constructor <;> assumption

@[simp] theorem isPlain_withNotes : (t.withNotes notes).isPlain = t.isPlain := by
  cases t <;> rfl

@[simp] theorem isNever_withNotes : (t.withNotes notes).isNever = t.isNever := by
  cases t <;> rfl

@[simp] theorem normal_mergeNotes : (t.mergeNotes other).Normal S ↔ t.Normal S := by
  unfold mergeNotes
  split
  · rfl
  · exact normal_withNotes

@[simp] theorem isPlain_mergeNotes : (t.mergeNotes other).isPlain = t.isPlain := by
  unfold mergeNotes
  split
  · rfl
  · exact isPlain_withNotes

end Notes

section Build

variable {properties : List (String × DataType)} {front : List DataType} {rest : DataType}

theorem Normal.property (hprops : ∀ p ∈ properties, p.2.Normal S) (hrest : rest.Normal S)
    (name : String) : (DataType.property properties rest name).Normal S := by
  rcases property_eq properties rest name with ⟨p, hp, heq⟩ | heq <;> rw [heq]
  · exact hprops p hp
  · exact hrest

theorem Normal.element (hfront : ∀ t ∈ front, t.Normal S) (hrest : rest.Normal S) (i : Nat) :
    (DataType.element front rest i).Normal S := by
  rcases element_eq front rest i with hmem | heq
  · exact hfront _ hmem
  · rw [heq]
    exact hrest

theorem normal_ofObject (required : List String) (hprops : ∀ p ∈ properties, p.2.Normal S)
    (hrest : rest.Normal S) : (ofObject properties rest required).Normal S := by
  unfold ofObject
  dsimp only
  split
  · exact .never
  · rename_i hpossible
    refine .object hprops hrest ?_
    intro name hname
    exact eq_false_of_ne_true fun hnever =>
      hpossible (List.any_eq_true.mpr ⟨name, hname, hnever⟩)

theorem normal_ofArray (minimum : Nat) (hfront : ∀ t ∈ front, t.Normal S)
    (hrest : rest.Normal S) : (ofArray front rest minimum).Normal S := by
  unfold ofArray
  dsimp only
  split
  · exact .never
  · rename_i hpossible
    rw [Bool.or_eq_true, not_or, List.any_eq_true, Bool.and_eq_true, decide_eq_true_eq]
      at hpossible
    obtain ⟨hfirst, hfurther⟩ := hpossible
    split
    · rename_i hlt
      refine .array ?_ .never ?_ ?_
      · intro t ht
        exact hfront t ((List.takeWhile_sublist _).subset ht)
      · intro t ht
        simpa using List.all_eq_true.mp List.all_takeWhile t ht
      · -- an impossible element ends the array behind all that are required
        intro hshort
        refine absurd ⟨front[(front.takeWhile fun t => !t.isNever).length], ?_, ?_⟩ hfirst
        · rw [List.mem_take_iff_getElem]
          exact ⟨_, by omega, rfl⟩
        · have hnever := isNever_of_takeWhile_lt rest hlt
          rwa [DataType.element, List.getElem?_eq_getElem hlt] at hnever
    · rename_i hall
      have heq : (front.takeWhile fun t => !t.isNever) = front :=
        (List.takeWhile_prefix _).eq_of_length_le (Nat.le_of_not_lt hall)
      refine .array hfront hrest ?_ ?_
      · intro t ht
        rw [← heq] at ht
        simpa using List.all_eq_true.mp List.all_takeWhile t ht
      · intro hlt
        exact eq_false_of_ne_true fun hnever => hfurther ⟨hlt, hnever⟩

end Build

section Union

/-- A type in normal form that may be a member of a union. -/
def Summand (S : NumberSet) (t : DataType) : Prop := t.Normal S ∧ t.isPlain = true

theorem summand_memberClosed : MemberClosed (Summand S) where
  boolean := ⟨.primitive, rfl⟩
  mergeNotes h := ⟨normal_mergeNotes.mpr h.1, isPlain_mergeNotes.trans h.2⟩

theorem normal_flatten {ts : List DataType} (h : ∀ t ∈ ts, t.Normal S) :
    ∀ t ∈ flatten ts, t.Normal S ∧ (t.isAny = true ∨ t.isPlain = true) := by
  induction ts with
  | nil => exact List.forall_mem_nil _
  | cons t rest ih =>
    obtain ⟨ht, hrest⟩ := List.forall_mem_cons.mp h
    have hothers := ih hrest
    cases t with
    | union ms notes =>
      cases ht with
      | union heach hplain _ =>
        refine List.forall_mem_append.mpr ⟨?_, hothers⟩
        intro m hm
        exact ⟨heach m hm, .inr (hplain m hm)⟩
    | never => exact hothers
    | any => exact List.forall_mem_cons.mpr ⟨⟨ht, .inl rfl⟩, hothers⟩
    | literal | primitive | object | array =>
      exact List.forall_mem_cons.mpr ⟨⟨ht, .inr rfl⟩, hothers⟩

/-- Flattened types may be members of a union, if none of them is the type of everything. -/
theorem summand_flatten {ts : List DataType} (h : ∀ t ∈ ts, t.Normal S)
    (hany : (flatten ts).find? isAny = none) : ∀ t ∈ flatten ts, Summand S t := by
  intro t ht
  obtain ⟨hnormal, hshape⟩ := normal_flatten h t ht
  exact ⟨hnormal, hshape.resolve_left (List.find?_eq_none.mp hany t ht)⟩

theorem normal_unionOf {ts : List DataType} (h : ∀ t ∈ ts, t.Normal S) :
    (unionOf ts).Normal S := by
  unfold unionOf
  dsimp only
  split
  · rename_i hfind
    exact (normal_flatten h _ (List.mem_of_find?_eq_some hfind)).1
  · rename_i hany
    have hmembers := summand_memberClosed.foldl_addMember (List.forall_mem_nil _)
      (summand_memberClosed.joinTruths (summand_flatten h hany))
    split
    · exact .never
    · rename_i hone
      rw [hone] at hmembers
      exact (hmembers _ List.mem_cons_self).1
    · rename_i hnil _
      exact .union (fun t ht => (hmembers t ht).1) (fun t ht => (hmembers t ht).2) hnil

end Union

theorem normal_closed (S : NumberSet) : Closed (Normal S) where
  top := .any
  bottom := .never
  primitive _ := .primitive
  object := normal_ofObject
  array := normal_ofArray
  union := normal_unionOf
  withNotes _ := normal_withNotes.mpr
  properties h := by
    cases h with
    | object heach _ _ => exact heach
  others h := by
    cases h with
    | object _ hothers _ => exact hothers
  front h := by
    cases h with
    | array heach _ _ _ => exact heach
  further h := by
    cases h with
    | array _ hothers _ _ => exact hothers
  members := Normal.members

end JsonPath.DataType
