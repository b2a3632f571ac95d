import JsonPath.Proofs.Syntax.WellFormed

/-!
Equality of documents. It is symmetric on documents without repeated names. Numbers of different
forms are compared as doubles, so equality need not be transitive; it is on documents whose
numbers come from a set on which the equality of numbers is.
-/

namespace JsonPath

namespace Fields

variable {α : Type}

theorem get?_eq_some_of_mem {fields : Fields α} (hnames : fields.names.Nodup) {name : String}
    {value : α} (h : (name, value) ∈ fields) : fields.get? name = some value := by
  induction fields with
  | nil => cases h
  | cons entry rest ih =>
    obtain ⟨key, first⟩ := entry
    obtain ⟨hkey, hrest⟩ := List.nodup_cons.mp hnames
    rcases List.mem_cons.mp h with h | h
    · cases h
      exact if_pos rfl
    · have hne : key ≠ name := by
        intro heq
        subst heq
        exact hkey (List.mem_map.mpr ⟨_, h, rfl⟩)
      rw [get?, if_neg hne]
      exact ih hrest h

theorem mem_of_get?_eq_some {fields : Fields α} {name : String} {value : α}
    (h : fields.get? name = some value) : (name, value) ∈ fields := by
  induction fields with
  | nil => cases h
  | cons entry rest ih =>
    obtain ⟨key, first⟩ := entry
    rw [get?] at h
    split at h
    · rename_i hkey
      cases h
      subst hkey
      exact List.mem_cons_self
    · exact List.mem_cons_of_mem _ (ih h)

theorem mem_names_iff {fields : Fields α} {name : String} :
    name ∈ fields.names ↔ ∃ value, fields.get? name = some value := by
  induction fields with
  | nil => simp [names, get?]
  | cons entry rest ih =>
    obtain ⟨key, first⟩ := entry
    by_cases hkey : key = name
    · subst hkey
      simp [names, get?]
    · have hkey' : ¬ name = key := fun h => hkey h.symm
      simp only [names, get?, List.map_cons, List.mem_cons, hkey, hkey', if_false, false_or] at ih ⊢
      exact ih

/-- Fields that are related name by name have the same names. -/
theorem mem_names_of_rel {β : Type} {r : α → β → Prop} {a : Fields α} {b : Fields β}
    (h : ∀ name, Option.Rel r (a.get? name) (b.get? name)) (name : String) :
    name ∈ a.names ↔ name ∈ b.names := by
  rw [mem_names_iff, mem_names_iff]
  have hrel := h name
  generalize a.get? name = x at hrel ⊢
  generalize b.get? name = y at hrel ⊢
  cases hrel <;> simp

theorem length_names (fields : Fields α) : fields.names.length = fields.length := List.length_map _

end Fields

theorem Double.order_eq_symm {a b : Double} (h : a.order b = .eq) : b.order a = .eq := by
  unfold order at h ⊢
  rw [Std.compare_eq_eq_iff_eq] at h ⊢
  exact h.symm

theorem Number.order_eq_symm {a b : Number} (h : a.order b = .eq) : b.order a = .eq := by
  cases a <;> cases b
  case int.int =>
    unfold order at h ⊢
    rw [Std.compare_eq_eq_iff_eq] at h ⊢
    exact h.symm
  all_goals exact Double.order_eq_symm h

theorem Number.order_self (a : Number) : a.order a = .eq := by
  cases a <;> exact Std.compare_eq_eq_iff_eq.mpr rfl

/-- Numbers among which equality is transitive. -/
structure NumberSet where
  Mem : Number → Prop
  trans : ∀ {a b c}, Mem a → Mem b → Mem c → a.order b = .eq → b.order c = .eq → a.order c = .eq

/-- The whole numbers, which compare exactly. -/
def NumberSet.whole : NumberSet where
  Mem n := ∃ i h, n = .int i h
  trans := by
    rintro _ _ _ ⟨i, _, rfl⟩ ⟨j, _, rfl⟩ ⟨k, _, rfl⟩ hij hjk
    rw [Number.order, Std.compare_eq_eq_iff_eq] at hij hjk ⊢
    exact hij.trans hjk

namespace Json

/-- No object inside the value repeats a name, and all numbers belong to the set. -/
inductive Over (S : NumberSet) : Json → Prop
  | null : Over S .null
  | bool (b : Bool) : Over S (.bool b)
  | number {n : Number} (mem : S.Mem n) : Over S (.number n)
  | string (s : String) : Over S (.string s)
  | array {items : List Json} (all : ∀ item ∈ items, item.Over S) : Over S (.array items)
  | object {members : List (String × Json)} (nodup : (Fields.names members).Nodup)
      (all : ∀ member ∈ members, member.2.Over S) : Over S (.object members)

theorem Over.mono {S T : NumberSet} {v : Json} (h : ∀ n, S.Mem n → T.Mem n) (hv : v.Over S) :
    v.Over T := by
  induction hv with
  | null => exact .null
  | bool b => exact .bool b
  | number hmem => exact .number (h _ hmem)
  | string s => exact .string s
  | array _ ih => exact .array ih
  | object hnodup _ ih => exact .object hnodup ih

/-- What passes from the items and the members of a value to the value holds of all values. -/
theorem parts_induction {motive : Json → Prop} (null : motive .null)
    (bool : ∀ b, motive (.bool b)) (number : ∀ n, motive (.number n))
    (string : ∀ s, motive (.string s))
    (array : ∀ items, (∀ item ∈ items, motive item) → motive (.array items))
    (object : ∀ members : List (String × Json), (∀ member ∈ members, motive member.2) →
      motive (.object members)) (v : Json) : motive v := by
  refine @Json.rec motive (fun items => ∀ item ∈ items, motive item)
    (fun members => ∀ member ∈ members, motive member.2) (fun member => motive member.2) null bool
    number string array object (List.forall_mem_nil _) ?_ (List.forall_mem_nil _) ?_
    (fun _ _ hvalue => hvalue) v
  · intro item rest hitem hrest
    exact List.forall_mem_cons.mpr ⟨hitem, hrest⟩
  · intro member rest hmember hrest
    exact List.forall_mem_cons.mpr ⟨hmember, hrest⟩

theorem wellFormedItems_iff {items : List Json} :
    WellFormedItems items ↔ ∀ item ∈ items, item.WellFormed := by
  induction items with
  | nil => simp [WellFormedItems]
  | cons item rest ih => rw [WellFormedItems, ih, List.forall_mem_cons]

theorem wellFormedMembers_iff {members : List (String × Json)} :
    WellFormedMembers members ↔ ∀ member ∈ members, member.2.WellFormed := by
  induction members with
  | nil => simp [WellFormedMembers]
  | cons member rest ih => rw [WellFormedMembers, ih, List.forall_mem_cons]

theorem Over.wellFormed {S : NumberSet} {v : Json} (hv : v.Over S) : v.WellFormed := by
  induction hv with
  | null | bool | number | string => trivial
  | array _ ih => exact wellFormedItems_iff.mpr ih
  | object hnodup _ ih => exact ⟨hnodup, wellFormedMembers_iff.mpr ih⟩

theorem sameItems_iff {a b : List Json} :
    sameItems a b = true ↔
      a.length = b.length ∧
        ∀ (i : Nat) (v w : Json), a[i]? = some v → b[i]? = some w → v.same w = true := by
  induction a generalizing b with
  | nil => cases b <;> simp [sameItems]
  | cons first rest ih =>
    cases b with
    | nil => simp [sameItems]
    | cons other others =>
      rw [sameItems, Bool.and_eq_true, ih]
      constructor
      · intro h
        obtain ⟨hfirst, hlength, hrest⟩ := h
        refine ⟨congrArg (· + 1) hlength, ?_⟩
        intro i v w hv hw
        cases i with
        | zero =>
          cases hv
          cases hw
          exact hfirst
        | succ i => exact hrest i v w hv hw
      · intro h
        obtain ⟨hlength, hall⟩ := h
        refine ⟨hall 0 first other rfl rfl, Nat.succ.inj hlength, ?_⟩
        intro i v w hv hw
        exact hall (i + 1) v w hv hw

theorem sameMembers_iff {a : List (String × Json)} {b : Fields Json} :
    sameMembers a b = true ↔
      ∀ member ∈ a, ∃ w, b.get? member.1 = some w ∧ member.2.same w = true := by
  induction a with
  | nil => simp [sameMembers]
  | cons member rest ih =>
    obtain ⟨name, v⟩ := member
    rw [sameMembers, Bool.and_eq_true, ih, List.forall_mem_cons]
    refine and_congr_left fun _ => ?_
    cases b.get? name with
    | none => simp
    | some w => simp

/-- Equal objects have the same names, with equal values. -/
theorem same_object_iff {a b : Fields Json} (ha : a.names.Nodup) (hb : b.names.Nodup) :
    (object a).same (object b) = true ↔
      ∀ name, Option.Rel (fun v w => v.same w = true) (a.get? name) (b.get? name) := by
  rw [same, Bool.and_eq_true, beq_iff_eq, sameMembers_iff]
  constructor
  · intro h name
    obtain ⟨hlength, hmembers⟩ := h
    have hsubset : a.names ⊆ b.names := by
      intro other hother
      obtain ⟨v, hv⟩ := Fields.mem_names_iff.mp hother
      obtain ⟨w, hw, -⟩ := hmembers _ (Fields.mem_of_get?_eq_some hv)
      exact Fields.mem_names_iff.mpr ⟨w, hw⟩
    cases hv : a.get? name with
    | some v =>
      obtain ⟨w, hw, hsame⟩ := hmembers _ (Fields.mem_of_get?_eq_some hv)
      rw [hw]
      exact .some hsame
    | none =>
      cases hw : b.get? name with
      | none => exact .none
      | some w =>
        -- with this name the second object would have more names than the first
        have hname : name ∉ a.names := by
          intro hmem
          obtain ⟨v, hv'⟩ := Fields.mem_names_iff.mp hmem
          rw [hv] at hv'
          cases hv'
        have hmore : name :: a.names ⊆ b.names :=
          List.cons_subset.mpr ⟨Fields.mem_names_iff.mpr ⟨w, hw⟩, hsubset⟩
        have hle := (List.nodup_cons.mpr ⟨hname, ha⟩).length_le_of_subset hmore
        rw [List.length_cons, Fields.length_names, Fields.length_names] at hle
        omega
  · intro h
    have hnames := Fields.mem_names_of_rel h
    have hle := ha.length_le_of_subset fun name hname => (hnames name).mp hname
    have hge := hb.length_le_of_subset fun name hname => (hnames name).mpr hname
    simp only [Fields.length_names] at hle hge
    refine ⟨Nat.le_antisymm hle hge, ?_⟩
    intro member hmember
    have hrel := h member.1
    rw [Fields.get?_eq_some_of_mem ha hmember] at hrel
    cases hw : b.get? member.1 with
    | none => rw [hw] at hrel; cases hrel
    | some w =>
      rw [hw] at hrel
      cases hrel with
      | some hsame => exact ⟨w, rfl, hsame⟩

/-- A value without repeated names equals itself. -/
theorem WellFormed.same_self {v : Json} (h : v.WellFormed) : v.same v = true := by
  induction v using parts_induction with
  | null => rfl
  | bool | string => simp [same]
  | number =>
    rw [same, beq_iff_eq]
    exact Number.order_self _
  | array items ih =>
    rw [same, sameItems_iff]
    refine ⟨rfl, ?_⟩
    intro i v w hv hw
    obtain rfl := Option.some.inj (hv.symm.trans hw)
    have hmem := List.mem_of_getElem? hv
    exact ih v hmem (wellFormedItems_iff.mp h v hmem)
  | object members ih =>
    obtain ⟨hnodup, hmembers⟩ := h
    rw [same_object_iff hnodup hnodup]
    intro name
    cases hget : Fields.get? members name with
    | none => exact .none
    | some v =>
      have hmem := Fields.mem_of_get?_eq_some hget
      exact .some (ih _ hmem (wellFormedMembers_iff.mp hmembers _ hmem))

/-- Values without repeated names that are equal are equal the other way round. -/
theorem WellFormed.same_symm {a b : Json} (ha : a.WellFormed) (hb : b.WellFormed)
    (h : a.same b = true) : b.same a = true := by
  induction a using parts_induction generalizing b with
  | null => cases b <;> first | rfl | cases h
  | bool | string =>
    cases b <;> try cases h
    simp only [same, beq_iff_eq] at h ⊢
    exact h.symm
  | number =>
    cases b <;> try cases h
    simp only [same, beq_iff_eq] at h ⊢
    exact Number.order_eq_symm h
  | array items ih =>
    cases b with
    | array others =>
      rw [same, sameItems_iff] at h ⊢
      obtain ⟨hlength, hitems⟩ := h
      refine ⟨hlength.symm, ?_⟩
      intro i v w hv hw
      have hmem := List.mem_of_getElem? hw
      exact ih w hmem (wellFormedItems_iff.mp ha w hmem)
        (wellFormedItems_iff.mp hb v (List.mem_of_getElem? hv)) (hitems i w v hw hv)
    | null | bool | number | string | object => cases h
  | object members ih =>
    cases b with
    | object others =>
      obtain ⟨hnodup, hmembers⟩ := ha
      obtain ⟨hnodup', hothers⟩ := hb
      rw [same_object_iff hnodup hnodup'] at h
      rw [same_object_iff hnodup' hnodup]
      intro name
      have hrel := h name
      cases hx : Fields.get? members name <;> cases hy : Fields.get? others name <;>
        rw [hx, hy] at hrel <;> cases hrel
      · exact .none
      · rename_i hsame
        have hmem := Fields.mem_of_get?_eq_some hx
        exact .some (ih _ hmem (wellFormedMembers_iff.mp hmembers _ hmem)
          (wellFormedMembers_iff.mp hothers _ (Fields.mem_of_get?_eq_some hy)) hsame)
    | null | bool | number | string | array => cases h

theorem same_refl {S : NumberSet} {v : Json} (h : v.Over S) : v.same v = true :=
  h.wellFormed.same_self

theorem same_symm {S : NumberSet} {a b : Json} (ha : a.Over S) (hb : b.Over S)
    (h : a.same b = true) : b.same a = true :=
  ha.wellFormed.same_symm hb.wellFormed h

/-- What equals a value that equals a third one equals the third one. -/
theorem same_trans {S : NumberSet} {a b c : Json} (ha : a.Over S) (hb : b.Over S)
    (hc : c.Over S) (hab : a.same b = true) (hbc : b.same c = true) : a.same c = true := by
  induction ha generalizing b c with
  | null => cases hb <;> first | exact hbc | cases hab
  | bool | string =>
    cases hb <;> try cases hab
    cases hc <;> try cases hbc
    simp only [same, beq_iff_eq] at hab hbc ⊢
    exact hab.trans hbc
  | number hmem =>
    cases hb <;> try cases hab
    rename_i hmem'
    cases hc <;> try cases hbc
    rename_i hmem''
    simp only [same, beq_iff_eq] at hab hbc ⊢
    exact S.trans hmem hmem' hmem'' hab hbc
  | @array items _ ih =>
    cases hb with
    | @array items' hitems' =>
      cases hc with
      | @array items'' hitems'' =>
        rw [same, sameItems_iff] at hab hbc ⊢
        obtain ⟨hlength, hall⟩ := hab
        obtain ⟨hlength', hall'⟩ := hbc
        refine ⟨hlength.trans hlength', ?_⟩
        intro i v w hv hw
        obtain ⟨hi, -⟩ := List.getElem?_eq_some_iff.mp hv
        have hx := List.getElem?_eq_getElem (hlength ▸ hi)
        exact ih v (List.mem_of_getElem? hv) (hitems' _ (List.mem_of_getElem? hx))
          (hitems'' w (List.mem_of_getElem? hw)) (hall i v _ hv hx) (hall' i _ w hx hw)
      | _ => cases hbc
    | _ => cases hab
  | @object members hnodup _ ih =>
    cases hb with
    | @object members' hnodup' hmembers' =>
      cases hc with
      | @object members'' hnodup'' hmembers'' =>
        rw [same_object_iff hnodup hnodup'] at hab
        rw [same_object_iff hnodup' hnodup''] at hbc
        rw [same_object_iff hnodup hnodup'']
        intro name
        have hrel := hab name
        have hrel' := hbc name
        cases hx : Fields.get? members name <;> cases hy : Fields.get? members' name <;>
          cases hz : Fields.get? members'' name <;> rw [hx, hy] at hrel <;>
          rw [hy, hz] at hrel' <;> cases hrel <;> cases hrel'
        · exact .none
        · rename_i hsame hsame'
          exact .some (ih _ (Fields.mem_of_get?_eq_some hx)
            (hmembers' _ (Fields.mem_of_get?_eq_some hy))
            (hmembers'' _ (Fields.mem_of_get?_eq_some hz)) hsame hsame')
      | _ => cases hbc
    | _ => cases hab

theorem isScalar_of_same {a b : Json} (h : a.same b = true) (hb : b.IsScalar) : a.IsScalar := by
  cases a <;> cases b <;> trivial

end Json

end JsonPath
