import JsonPath.DataType.Step
import JsonPath.Proofs.Json.Same

/-!
The values that types describe. The absence of a value is described like a value, by the types
that it may belong to. Types are taken to hold only scalar literals, as types that are built by
the functions for it do, with numbers among which equality is transitive. Such a type describes
with a value all that are equal to it.
-/

namespace JsonPath

/-- Equal values are of one kind. -/
theorem Primitive.of?_eq_of_same {v w : Json} (h : v.same w = true) :
    Primitive.of? v = Primitive.of? w := by
  cases v <;> cases w <;> first | rfl | cases h

namespace DataType

/-- The type describes a value, or the absence of one. -/
inductive Describes : DataType → Option Json → Prop
  | any {notes : Annotations} {v : Option Json} : Describes (.any notes) v
  | literal {u v : Json} {notes : Annotations} (same : v.same u = true) :
      Describes (.literal u notes) (some v)
  | primitive {kind : Primitive} {v : Json} {notes : Annotations}
      (of : Primitive.of? v = some kind) : Describes (.primitive kind notes) (some v)
  | nothing {notes : Annotations} : Describes (.primitive .nothing notes) none
  | object {properties : List (String × DataType)} {rest : DataType} {required : List String}
      {notes : Annotations} {members : List (String × Json)}
      (present : ∀ name ∈ required, ∃ v, Fields.get? members name = some v)
      (each : ∀ name v, Fields.get? members name = some v →
        Describes (property properties rest name) (some v)) :
      Describes (.object properties rest required notes) (some (.object members))
  | array {front : List DataType} {rest : DataType} {minimum : Nat} {notes : Annotations}
      {items : List Json} (enough : minimum ≤ items.length)
      (each : ∀ i v, items[i]? = some v → Describes (element front rest i) (some v)) :
      Describes (.array front rest minimum notes) (some (.array items))
  | union {members : List DataType} {notes : Annotations} {t : DataType} {v : Option Json}
      (mem : t ∈ members) (describes : Describes t v) : Describes (.union members notes) v

/-- All literals in the type are scalars, with numbers of the set. -/
inductive Over (S : NumberSet) : DataType → Prop
  | any {notes : Annotations} : Over S (.any notes)
  | never {notes : Annotations} : Over S (.never notes)
  | literal {v : Json} {notes : Annotations} (scalar : v.IsScalar) (numbers : v.Over S) :
      Over S (.literal v notes)
  | primitive {kind : Primitive} {notes : Annotations} : Over S (.primitive kind notes)
  | object {properties : List (String × DataType)} {rest : DataType} {required : List String}
      {notes : Annotations} (each : ∀ p ∈ properties, Over S p.2) (others : Over S rest) :
      Over S (.object properties rest required notes)
  | array {front : List DataType} {rest : DataType} {minimum : Nat} {notes : Annotations}
      (each : ∀ t ∈ front, Over S t) (others : Over S rest) :
      Over S (.array front rest minimum notes)
  | union {members : List DataType} {notes : Annotations} (each : ∀ t ∈ members, Over S t) :
      Over S (.union members notes)

/-- What passes from the parts of a type to the type holds of all types. -/
theorem parts_induction {motive : DataType → Prop} (any : ∀ notes, motive (.any notes))
    (never : ∀ notes, motive (.never notes)) (literal : ∀ v notes, motive (.literal v notes))
    (primitive : ∀ kind notes, motive (.primitive kind notes))
    (object : ∀ properties rest required notes, (∀ p ∈ properties, motive p.2) → motive rest →
      motive (.object properties rest required notes))
    (array : ∀ front rest minimum notes, (∀ t ∈ front, motive t) → motive rest →
      motive (.array front rest minimum notes))
    (union : ∀ members notes, (∀ t ∈ members, motive t) → motive (.union members notes))
    (t : DataType) : motive t := by
  refine @DataType.rec motive (fun properties => ∀ p ∈ properties, motive p.2)
    (fun ts => ∀ t ∈ ts, motive t) (fun p => motive p.2) any never literal primitive object array
    union (List.forall_mem_nil _) ?_ (List.forall_mem_nil _) ?_ (fun _ _ ht => ht) t
  · intro p rest hp hrest
    exact List.forall_mem_cons.mpr ⟨hp, hrest⟩
  · intro t rest ht hrest
    exact List.forall_mem_cons.mpr ⟨ht, hrest⟩

theorem isNever_eq_true {t : DataType} (h : t.isNever = true) : ∃ notes, t = .never notes := by
  cases t <;> first | exact ⟨_, rfl⟩ | cases h

/-- The empty type describes nothing. -/
theorem Describes.isNever {t : DataType} {v : Option Json} (h : t.Describes v) :
    t.isNever = false := by
  cases hnever : t.isNever with
  | false => rfl
  | true =>
    obtain ⟨notes, rfl⟩ := isNever_eq_true hnever
    cases h

theorem property_eq (properties : Fields DataType) (rest : DataType) (name : String) :
    (∃ p ∈ properties, property properties rest name = p.2) ∨
      property properties rest name = rest := by
  unfold property
  cases hget : properties.get? name with
  | none => exact .inr rfl
  | some t => exact .inl ⟨(name, t), Fields.mem_of_get?_eq_some hget, rfl⟩

theorem property_of_not_mem {properties : Fields DataType} {name : String}
    (h : name ∉ properties.names) (rest : DataType) : property properties rest name = rest := by
  rw [Fields.mem_names_iff, not_exists] at h
  rw [property, Option.eq_none_iff_forall_not_mem.mpr h]
  rfl

theorem element_eq (front : List DataType) (rest : DataType) (i : Nat) :
    element front rest i ∈ front ∨ element front rest i = rest := by
  unfold element
  cases hget : front[i]? with
  | none => exact .inr rfl
  | some t => exact .inl (List.mem_of_getElem? hget)

theorem element_of_le {front : List DataType} {i : Nat} (h : front.length ≤ i)
    (rest : DataType) : element front rest i = rest := by
  rw [element, List.getElem?_eq_none h]
  rfl

section Inversion

variable {S : NumberSet} {t : DataType}

/-- A type of an object, other than a union and the type of everything, is an object type. -/
theorem Describes.eq_object {members : List (String × Json)}
    (h : t.Describes (some (.object members))) (ht : t.Over S) (hunion : t.isUnion = false)
    (hany : t.isAny = false) :
    ∃ properties rest required notes,
      t = DataType.object properties rest required notes := by
  cases h with
  | any => cases hany
  | literal hsame =>
    cases ht with
    | literal hscalar => exact (Json.isScalar_of_same hsame hscalar).elim
  | primitive hkind => cases hkind
  | object => exact ⟨_, _, _, _, rfl⟩
  | union => cases hunion

theorem Describes.eq_array {items : List Json} (h : t.Describes (some (.array items)))
    (ht : t.Over S) (hunion : t.isUnion = false) (hany : t.isAny = false) :
    ∃ front rest minimum notes, t = DataType.array front rest minimum notes := by
  cases h with
  | any => cases hany
  | literal hsame =>
    cases ht with
    | literal hscalar => exact (Json.isScalar_of_same hsame hscalar).elim
  | primitive hkind => cases hkind
  | array => exact ⟨_, _, _, _, rfl⟩
  | union => cases hunion

end Inversion

section Notes

variable {t other : DataType} {notes : Annotations} {v : Option Json} {S : NumberSet}

@[simp] theorem describes_withNotes : (t.withNotes notes).Describes v ↔ t.Describes v := by
  cases t <;> constructor <;> intro h <;> cases h <;> constructor <;> assumption

@[simp] theorem over_withNotes : (t.withNotes notes).Over S ↔ t.Over S := by
  cases t <;> constructor <;> intro h <;> cases h <;> constructor <;> assumption

@[simp] theorem describes_mergeNotes : (t.mergeNotes other).Describes v ↔ t.Describes v := by
  unfold mergeNotes
  split
  · rfl
  · exact describes_withNotes

@[simp] theorem over_mergeNotes : (t.mergeNotes other).Over S ↔ t.Over S := by
  unfold mergeNotes
  split
  · rfl
  · exact over_withNotes

end Notes

section Build

variable {S : NumberSet} {properties : List (String × DataType)} {front : List DataType}
  {rest : DataType} {required : List String} {minimum : Nat} {v : Option Json}

theorem Over.property (hprops : ∀ p ∈ properties, p.2.Over S) (hrest : rest.Over S)
    (name : String) : (DataType.property properties rest name).Over S := by
  rcases property_eq properties rest name with ⟨p, hp, heq⟩ | heq
  · rw [heq]
    exact hprops p hp
  · rw [heq]
    exact hrest

theorem Over.element (hfront : ∀ t ∈ front, t.Over S) (hrest : rest.Over S) (i : Nat) :
    (DataType.element front rest i).Over S := by
  rcases element_eq front rest i with hmem | heq
  · exact hfront _ hmem
  · rw [heq]
    exact hrest

theorem over_ofObject (hprops : ∀ p ∈ properties, p.2.Over S) (hrest : rest.Over S) :
    (ofObject properties rest required).Over S := by
  unfold ofObject
  dsimp only
  split
  · exact .never
  · exact .object hprops hrest

/-- Objects that a type describes require nothing that cannot exist. -/
theorem describes_ofObject (h : (object properties rest required {}).Describes v) :
    (ofObject properties rest required).Describes v := by
  cases h with
  | object hpresent heach =>
    unfold ofObject
    dsimp only
    split
    · rename_i hany
      obtain ⟨name, hname, hnever⟩ := List.any_eq_true.mp hany
      obtain ⟨v, hv⟩ := hpresent name ((NameSet.mem_ofList _ _).mp hname)
      rw [(heach name v hv).isNever] at hnever
      cases hnever
    · refine .object ?_ heach
      intro name hname
      exact hpresent name ((NameSet.mem_ofList _ _).mp hname)

theorem over_ofArray (hfront : ∀ t ∈ front, t.Over S) (hrest : rest.Over S) :
    (ofArray front rest minimum).Over S := by
  unfold ofArray
  dsimp only
  split
  · exact .never
  · split
    · refine .array ?_ .never
      intro t ht
      exact hfront t ((List.takeWhile_sublist _).subset ht)
    · exact .array hfront hrest

/-- The first type that ends a list of possible elements is the empty one. -/
theorem isNever_of_takeWhile_lt (rest : DataType)
    (h : (front.takeWhile fun t => !t.isNever).length < front.length) :
    (element front rest (front.takeWhile fun t => !t.isNever).length).isNever = true := by
  induction front with
  | nil => cases h
  | cons t others ih =>
    cases ht : t.isNever with
    | true =>
      simp only [List.takeWhile_cons, ht, Bool.not_true, Bool.false_eq_true, if_false]
      exact ht
    | false =>
      simp only [List.takeWhile_cons, ht, Bool.not_false, if_true, List.length_cons] at h ⊢
      exact ih (Nat.lt_of_succ_lt_succ h)

/-- An array type is empty only if an element that it requires is impossible. -/
theorem exists_isNever_element
    (h : ((front.take minimum).any isNever || (decide (front.length < minimum) && rest.isNever)) =
      true) : ∃ i < minimum, (element front rest i).isNever = true := by
  rw [Bool.or_eq_true, List.any_eq_true, Bool.and_eq_true, decide_eq_true_eq] at h
  rcases h with ⟨t, ht, hnever⟩ | ⟨hlt, hnever⟩
  · obtain ⟨i, hi, rfl⟩ := List.getElem_of_mem ht
    rw [List.length_take] at hi
    refine ⟨i, by omega, ?_⟩
    rw [element, List.getElem?_eq_getElem (by omega)]
    rwa [List.getElem_take] at hnever
  · refine ⟨front.length, hlt, ?_⟩
    rwa [element_of_le (Nat.le_refl _)]

/-- The elements in front of the end of the possible ones are described as before. -/
theorem element_takeWhile {i : Nat}
    (hi : i < (front.takeWhile fun t => !t.isNever).length) :
    element (front.takeWhile fun t => !t.isNever) bottom i = element front rest i := by
  have hprefix : (front.takeWhile fun t => !t.isNever) <+: front := List.takeWhile_prefix _
  rw [element, element, List.getElem?_eq_getElem hi, hprefix.getElem hi,
    List.getElem?_eq_getElem (Nat.lt_of_lt_of_le hi hprefix.length_le)]
  rfl

/-- Arrays that a type describes have no elements that cannot exist. -/
theorem describes_ofArray (h : (array front rest minimum {}).Describes v) :
    (ofArray front rest minimum).Describes v := by
  cases h with
  | @array _ _ _ _ items henough heach =>
    -- an element described as one that cannot exist lies beyond the end
    have hbeyond (i : Nat) (hnever : (element front rest i).isNever = true) :
        items.length ≤ i := by
      apply Nat.le_of_not_lt
      intro hi
      rw [(heach i _ (List.getElem?_eq_getElem hi)).isNever] at hnever
      cases hnever
    unfold ofArray
    dsimp only
    split
    · rename_i hbottom
      obtain ⟨i, hi, hnever⟩ := exists_isNever_element hbottom
      have hle := hbeyond i hnever
      omega
    · split
      · rename_i hlt
        have hle := hbeyond _ (isNever_of_takeWhile_lt rest hlt)
        refine .array henough ?_
        intro i v hv
        have hi : i < (front.takeWhile fun t => !t.isNever).length := by
          have hi := (List.getElem?_eq_some_iff.mp hv).1
          omega
        rw [element_takeWhile hi]
        exact heach i v hv
      · exact .array henough heach

end Build

/-- A type describes with a value all that are equal to it. -/
theorem Describes.of_same {S : NumberSet} {t : DataType} {v w : Json}
    (h : t.Describes (some v)) (ht : t.Over S) (hv : v.Over S) (hw : w.Over S)
    (hsame : v.same w = true) : t.Describes (some w) := by
  generalize hx : some v = x at h
  induction h generalizing v w with
  | any => exact .any
  | literal hu =>
    cases hx
    cases ht with
    | literal _ hover =>
      exact .literal (Json.same_trans hw hv hover (Json.same_symm hv hw hsame) hu)
  | primitive hkind =>
    obtain rfl := Option.some.inj hx
    exact .primitive ((Primitive.of?_eq_of_same hsame).symm.trans hkind)
  | nothing => cases hx
  | object hpresent heach ih =>
    cases hx
    cases ht with
    | object hprops hrest =>
    cases hv with
    | object hnodup hall =>
    cases hw with
    | object hnodup' hall' =>
      rw [Json.same_object_iff hnodup hnodup'] at hsame
      constructor
      · intro name hname
        obtain ⟨v, hv⟩ := hpresent name hname
        have hrel := hsame name
        rw [hv] at hrel
        generalize hw : Fields.get? _ name = y at hrel ⊢
        cases hrel with
        | some => exact ⟨_, rfl⟩
      · intro name w hw
        have hrel := hsame name
        rw [hw] at hrel
        generalize hv : Fields.get? _ name = y at hrel
        cases hrel with
        | some hvw =>
          exact ih name _ hv (.property hprops hrest name) (hall _ (Fields.mem_of_get?_eq_some hv))
            (hall' _ (Fields.mem_of_get?_eq_some hw)) hvw rfl
    | _ => cases hsame
  | array henough heach ih =>
    cases hx
    cases ht with
    | array hfront hrest =>
    cases hv with
    | array hall =>
    cases hw with
    | array hall' =>
      rw [Json.same, Json.sameItems_iff] at hsame
      obtain ⟨hlength, hitems⟩ := hsame
      constructor
      · rw [← hlength]
        exact henough
      · intro i w hw
        obtain ⟨hi, rfl⟩ := List.getElem?_eq_some_iff.mp hw
        have hv := List.getElem?_eq_getElem (hlength ▸ hi)
        exact ih i _ hv (.element hfront hrest i) (hall _ (List.mem_of_getElem? hv))
          (hall' _ (List.mem_of_getElem? hw)) (hitems i _ _ hv hw) rfl
    | _ => cases hsame
  | union hmem _ ih =>
    cases ht with
    | union heach => exact .union hmem (ih (heach _ hmem) hv hw hsame hx)

end DataType

end JsonPath
