import JsonPath.Proofs.DataType.Meet

/-!
The lattice of types. Types that are built by the functions for it, and by taking such types
apart, are in normal form. Among them the subtype test is a preorder in which unions are joins and
intersections are meets, so that union and intersection are commutative, associative, idempotent
and absorb each other, up to types that are subtypes of each other. A built type describes no more
than any that it is told to be a subtype of.
-/

namespace JsonPath.DataType

variable {S : NumberSet} {P : DataType → Prop} {a b c t u : DataType}

section Difference

theorem normal_subtract (ht : t.Normal S) : (t.subtract u).Normal S := by
  refine subtract_induction (motive := fun t left => t.Normal S → left.Normal S) u
    ?gone ?stays ?boolean ?union ?noted t ht
  case gone => exact fun _ _ _ => .never
  case stays => exact fun _ _ _ _ ht => ht
  case boolean =>
    intro notes _ hleft _
    have htruth (b : Bool) := hleft b (normal_truth b _)
    exact normal_unionOf
      (List.forall_mem_cons.mpr ⟨htruth true, List.forall_mem_singleton.mpr (htruth false)⟩)
  case union =>
    intro ms notes _ hleft ht
    apply normal_unionOf
    intro x hx
    obtain ⟨m, hm, rfl⟩ := List.mem_map.mp hx
    exact hleft m hm (ht.members m hm)
  case noted => exact fun _ _ _ h ht => normal_mergeNotes.mpr (h ht)

theorem normal_map_subtract {ms : List DataType} (h : ∀ m ∈ ms, m.Normal S) :
    ∀ x ∈ ms.map (fun m => m.subtract u), x.Normal S := by
  intro x hx
  obtain ⟨m, hm, rfl⟩ := List.mem_map.mp hx
  exact normal_subtract (h m hm)

end Difference

section Values

theorem ofItems_eq (items : List Json) : ofItems items = items.map ofJson := by
  induction items with
  | nil => rfl
  | cons item rest ih => rw [ofItems, ih, List.map_cons]

theorem ofMembers_eq (members : List (String × Json)) :
    ofMembers members = members.map fun member => (member.1, ofJson member.2) := by
  induction members with
  | nil => rfl
  | cons member rest ih =>
    obtain ⟨name, v⟩ := member
    rw [ofMembers, ih, List.map_cons]

theorem normal_ofJson {v : Json} (hv : v.Over S) : (ofJson v).Normal S := by
  induction hv with
  | null => exact .primitive
  | bool b => exact normal_truth b _
  | number hmem => exact .literal trivial (.number hmem) nofun
  | string s => exact .literal trivial (.string s) nofun
  | array _ ih =>
    rw [ofJson, ofItems_eq]
    apply normal_ofArray
    · intro t ht
      obtain ⟨item, hitem, rfl⟩ := List.mem_map.mp ht
      exact ih item hitem
    · exact .never
  | object _ _ ih =>
    rw [ofJson, ofMembers_eq]
    apply normal_ofObject
    · intro p hp
      obtain ⟨member, hmember, rfl⟩ := List.mem_map.mp hp
      exact ih member hmember
    · exact .never

end Values

/-- The types that come from the functions which build types, and their parts. Numbers in
literals belong to the set. -/
inductive Built (S : NumberSet) : DataType → Prop
  | top : Built S top
  | bottom : Built S bottom
  | primitive (kind : Primitive) : Built S (ofPrimitive kind)
  | ofJson {v : Json} (numbers : v.Over S) : Built S (ofJson v)
  | ofObject {properties : List (String × DataType)} {rest : DataType} (required : List String)
      (each : ∀ p ∈ properties, Built S p.2) (others : Built S rest) :
      Built S (ofObject properties rest required)
  | ofArray {front : List DataType} {rest : DataType} (minimum : Nat)
      (each : ∀ t ∈ front, Built S t) (others : Built S rest) :
      Built S (ofArray front rest minimum)
  | unionOf {ts : List DataType} (each : ∀ t ∈ ts, Built S t) : Built S (unionOf ts)
  | intersect {t u : DataType} (left : Built S t) (right : Built S u) : Built S (t.intersect u)
  | subtract {t u : DataType} (left : Built S t) (right : Built S u) : Built S (t.subtract u)
  | withNotes {t : DataType} (notes : Annotations) (built : Built S t) :
      Built S (t.withNotes notes)
  | property {properties : List (String × DataType)} {rest : DataType} {required : List String}
      {notes : Annotations} {p : String × DataType}
      (built : Built S (.object properties rest required notes)) (mem : p ∈ properties) :
      Built S p.2
  | others {properties : List (String × DataType)} {rest : DataType} {required : List String}
      {notes : Annotations} (built : Built S (.object properties rest required notes)) :
      Built S rest
  | element {front : List DataType} {rest t : DataType} {minimum : Nat} {notes : Annotations}
      (built : Built S (.array front rest minimum notes)) (mem : t ∈ front) : Built S t
  | further {front : List DataType} {rest : DataType} {minimum : Nat} {notes : Annotations}
      (built : Built S (.array front rest minimum notes)) : Built S rest
  | member {members : List DataType} {notes : Annotations} {t : DataType}
      (built : Built S (.union members notes)) (mem : t ∈ members) : Built S t

/-- What is found at locations of built types, and what these become when something is changed
there, is built as well. -/
theorem built_closed (S : NumberSet) : Closed (Built S) where
  top := .top
  bottom := .bottom
  primitive := .primitive
  object := .ofObject
  array := .ofArray
  union := .unionOf
  withNotes := .withNotes
  properties h _ := .property h
  others := .others
  front h _ := .element h
  further := .further
  members h _ := .member h

theorem Built.normal (h : t.Built S) : t.Normal S := by
  induction h with
  | top => exact .any
  | bottom => exact .never
  | primitive => exact .primitive
  | ofJson hnumbers => exact normal_ofJson hnumbers
  | ofObject required _ _ iheach ihothers => exact normal_ofObject required iheach ihothers
  | ofArray minimum _ _ iheach ihothers => exact normal_ofArray minimum iheach ihothers
  | unionOf _ ih => exact normal_unionOf ih
  | intersect _ _ ihleft ihright => exact (hasMeets ihleft _ ihright).1
  | subtract _ _ ihleft _ => exact normal_subtract ihleft
  | withNotes _ _ ih => exact normal_withNotes.mpr ih
  | property _ hmem ih =>
    cases ih with
    | object heach _ _ => exact heach _ hmem
  | others _ ih =>
    cases ih with
    | object _ hothers _ => exact hothers
  | element _ hmem ih =>
    cases ih with
    | array heach _ _ _ => exact heach _ hmem
  | further _ ih =>
    cases ih with
    | array _ hothers _ _ => exact hothers
  | member _ hmem ih =>
    cases ih with
    | union heach _ _ => exact heach _ hmem

/-- The subtype test is a preorder, with unions as joins and intersections as meets. -/
structure Ordered (P : DataType → Prop) : Prop where
  refl : ∀ a, P a → a.isSubtypeOf a = true
  trans : ∀ a b c, P a → P b → P c → a.isSubtypeOf b = true → b.isSubtypeOf c = true →
    a.isSubtypeOf c = true
  member_unionOf : ∀ ts : List DataType, (∀ t ∈ ts, P t) →
    ∀ t ∈ ts, t.isSubtypeOf (unionOf ts) = true
  unionOf_least : ∀ (ts : List DataType) (c : DataType), (∀ t ∈ ts, P t) → P c →
    (∀ t ∈ ts, t.isSubtypeOf c = true) → (unionOf ts).isSubtypeOf c = true
  intersect_left : ∀ a b, P a → P b → (a.intersect b).isSubtypeOf a = true
  intersect_right : ∀ a b, P a → P b → (a.intersect b).isSubtypeOf b = true
  intersect_greatest : ∀ a b c, P a → P b → P c → c.isSubtypeOf a = true →
    c.isSubtypeOf b = true → c.isSubtypeOf (a.intersect b) = true

/-- Union and intersection are commutative, associative, idempotent and absorb each other. -/
structure Identities (P : DataType → Prop) : Prop where
  unionOf_comm : ∀ a b, P a → P b → (unionOf [a, b]).equivalent (unionOf [b, a]) = true
  unionOf_assoc : ∀ a b c, P a → P b → P c →
    (unionOf [unionOf [a, b], c]).equivalent (unionOf [a, unionOf [b, c]]) = true
  unionOf_self : ∀ a, P a → (unionOf [a, a]).equivalent a = true
  unionOf_intersect : ∀ a b, P a → P b → (unionOf [a, a.intersect b]).equivalent a = true
  intersect_comm : ∀ a b, P a → P b → (a.intersect b).equivalent (b.intersect a) = true
  intersect_assoc : ∀ a b c, P a → P b → P c →
    ((a.intersect b).intersect c).equivalent (a.intersect (b.intersect c)) = true
  intersect_self : ∀ a, P a → (a.intersect a).equivalent a = true
  intersect_unionOf : ∀ a b, P a → P b → (a.intersect (unionOf [a, b])).equivalent a = true

section Laws

theorem ordered_normal (S : NumberSet) : Ordered (Normal S) where
  refl _ := isSubtypeOf_refl
  trans _ _ _ := isSubtypeOf_trans
  member_unionOf _ hts :=
    (unionOf_isSubtypeOf_iff hts (normal_unionOf hts)).mp (isSubtypeOf_refl (normal_unionOf hts))
  unionOf_least _ _ hts hc := (unionOf_isSubtypeOf_iff hts hc).mpr
  intersect_left a b ha hb := by
    have hmeet := hasMeets ha b hb
    exact ((hmeet.isSubtypeOf_iff hmeet.1).mp (isSubtypeOf_refl hmeet.1)).1
  intersect_right a b ha hb := by
    have hmeet := hasMeets ha b hb
    exact ((hmeet.isSubtypeOf_iff hmeet.1).mp (isSubtypeOf_refl hmeet.1)).2
  intersect_greatest a b c ha hb hc hca hcb :=
    ((hasMeets ha b hb).isSubtypeOf_iff hc).mpr ⟨hca, hcb⟩

theorem Ordered.mono {Q : DataType → Prop} (h : Ordered Q) (hPQ : ∀ t, P t → Q t) :
    Ordered P where
  refl a ha := h.refl a (hPQ a ha)
  trans a b c ha hb hc := h.trans a b c (hPQ a ha) (hPQ b hb) (hPQ c hc)
  member_unionOf ts hts := h.member_unionOf ts fun t ht => hPQ t (hts t ht)
  unionOf_least ts c hts hc := h.unionOf_least ts c (fun t ht => hPQ t (hts t ht)) (hPQ c hc)
  intersect_left a b ha hb := h.intersect_left a b (hPQ a ha) (hPQ b hb)
  intersect_right a b ha hb := h.intersect_right a b (hPQ a ha) (hPQ b hb)
  intersect_greatest a b c ha hb hc := h.intersect_greatest a b c (hPQ a ha) (hPQ b hb) (hPQ c hc)

theorem equivalent_of_isSubtypeOf (hab : a.isSubtypeOf b = true) (hba : b.isSubtypeOf a = true) :
    a.equivalent b = true :=
  Bool.and_eq_true_iff.mpr ⟨hab, hba⟩

theorem forall_mem_pair {α : Type} {P : α → Prop} {a b : α} (ha : P a) (hb : P b) :
    ∀ x ∈ [a, b], P x :=
  List.forall_mem_cons.mpr ⟨ha, List.forall_mem_singleton.mpr hb⟩

theorem Ordered.left_unionOf (h : Ordered P) (ha : P a) (hb : P b) :
    a.isSubtypeOf (unionOf [a, b]) = true :=
  h.member_unionOf _ (forall_mem_pair ha hb) a List.mem_cons_self

theorem Ordered.right_unionOf (h : Ordered P) (ha : P a) (hb : P b) :
    b.isSubtypeOf (unionOf [a, b]) = true :=
  h.member_unionOf _ (forall_mem_pair ha hb) b (List.mem_cons_of_mem _ List.mem_cons_self)

theorem Ordered.unionOf_pair_least (h : Ordered P) (ha : P a) (hb : P b) (hc : P c)
    (hac : a.isSubtypeOf c = true) (hbc : b.isSubtypeOf c = true) :
    (unionOf [a, b]).isSubtypeOf c = true :=
  h.unionOf_least _ c (forall_mem_pair ha hb) hc (forall_mem_pair hac hbc)

/-- The identities follow from the order, for types that union and intersection do not leave. -/
theorem Ordered.identities (h : Ordered P) (hunion : ∀ ⦃a b⦄, P a → P b → P (unionOf [a, b]))
    (hmeet : ∀ ⦃a b⦄, P a → P b → P (a.intersect b)) : Identities P where
  unionOf_comm a b ha hb := by
    have hle {a b : DataType} (ha : P a) (hb : P b) :
        (unionOf [a, b]).isSubtypeOf (unionOf [b, a]) = true :=
      h.unionOf_pair_least ha hb (hunion hb ha) (h.right_unionOf hb ha) (h.left_unionOf hb ha)
    exact equivalent_of_isSubtypeOf (hle ha hb) (hle hb ha)
  unionOf_assoc a b c ha hb hc := by
    have hab := hunion ha hb
    have hbc := hunion hb hc
    have hleft := hunion hab hc
    have hright := hunion ha hbc
    refine equivalent_of_isSubtypeOf ?_ ?_
    · have hb' := h.trans b _ _ hb hbc hright (h.left_unionOf hb hc) (h.right_unionOf ha hbc)
      have hc' := h.trans c _ _ hc hbc hright (h.right_unionOf hb hc) (h.right_unionOf ha hbc)
      exact h.unionOf_pair_least hab hc hright
        (h.unionOf_pair_least ha hb hright (h.left_unionOf ha hbc) hb') hc'
    · have ha' := h.trans a _ _ ha hab hleft (h.left_unionOf ha hb) (h.left_unionOf hab hc)
      have hb' := h.trans b _ _ hb hab hleft (h.right_unionOf ha hb) (h.left_unionOf hab hc)
      exact h.unionOf_pair_least ha hbc hleft ha'
        (h.unionOf_pair_least hb hc hleft hb' (h.right_unionOf hab hc))
  unionOf_self a ha :=
    equivalent_of_isSubtypeOf (h.unionOf_pair_least ha ha ha (h.refl a ha) (h.refl a ha))
      (h.left_unionOf ha ha)
  unionOf_intersect a b ha hb :=
    equivalent_of_isSubtypeOf
      (h.unionOf_pair_least ha (hmeet ha hb) ha (h.refl a ha) (h.intersect_left a b ha hb))
      (h.left_unionOf ha (hmeet ha hb))
  intersect_comm a b ha hb := by
    have hle {a b : DataType} (ha : P a) (hb : P b) :
        (a.intersect b).isSubtypeOf (b.intersect a) = true :=
      h.intersect_greatest b a _ hb ha (hmeet ha hb) (h.intersect_right a b ha hb)
        (h.intersect_left a b ha hb)
    exact equivalent_of_isSubtypeOf (hle ha hb) (hle hb ha)
  intersect_assoc a b c ha hb hc := by
    have hab := hmeet ha hb
    have hbc := hmeet hb hc
    have hleft := hmeet hab hc
    have hright := hmeet ha hbc
    have hleftAB := h.intersect_left (a.intersect b) c hab hc
    have hrightBC := h.intersect_right a (b.intersect c) ha hbc
    refine equivalent_of_isSubtypeOf ?_ ?_
    · have ha' := h.trans _ _ a hleft hab ha hleftAB (h.intersect_left a b ha hb)
      have hb' := h.trans _ _ b hleft hab hb hleftAB (h.intersect_right a b ha hb)
      have hc' := h.intersect_right (a.intersect b) c hab hc
      exact h.intersect_greatest a _ _ ha hbc hleft ha'
        (h.intersect_greatest b c _ hb hc hleft hb' hc')
    · have ha' := h.intersect_left a (b.intersect c) ha hbc
      have hb' := h.trans _ _ b hright hbc hb hrightBC (h.intersect_left b c hb hc)
      have hc' := h.trans _ _ c hright hbc hc hrightBC (h.intersect_right b c hb hc)
      exact h.intersect_greatest _ c _ hab hc hright
        (h.intersect_greatest a b _ ha hb hright ha' hb') hc'
  intersect_self a ha :=
    equivalent_of_isSubtypeOf (h.intersect_left a a ha ha)
      (h.intersect_greatest a a a ha ha ha (h.refl a ha) (h.refl a ha))
  intersect_unionOf a b ha hb :=
    equivalent_of_isSubtypeOf (h.intersect_left a _ ha (hunion ha hb))
      (h.intersect_greatest a _ a ha (hunion ha hb) ha (h.refl a ha) (h.left_unionOf ha hb))

/-- Built types are a lattice, up to types that are subtypes of each other. -/
theorem built_lattice (S : NumberSet) : Ordered (Built S) ∧ Identities (Built S) := by
  have hordered : Ordered (Built S) := (ordered_normal S).mono fun _ => Built.normal
  refine ⟨hordered, hordered.identities ?_ ?_⟩
  · intro a b ha hb
    exact .unionOf (forall_mem_pair ha hb)
  · intro a b ha hb
    exact .intersect ha hb

end Laws

section Inclusion

variable {v : Option Json}

/-- A subtype describes nothing that the other type does not describe. -/
theorem describes_of_isSubtypeOf (ha : a.Built S) (hb : b.Built S) (hv : Json.Held S v)
    (hsub : a.isSubtypeOf b = true) (h : a.Describes v) : b.Describes v :=
  h.of_isSubtypeOf ha.normal.over hb.normal.over hv hsub

/-- Types that are subtypes of each other describe the same. -/
theorem describes_iff_of_equivalent (ha : a.Built S) (hb : b.Built S) (hv : Json.Held S v)
    (h : a.equivalent b = true) : a.Describes v ↔ b.Describes v := by
  obtain ⟨hab, hba⟩ := Bool.and_eq_true_iff.mp h
  constructor
  · intro hdescribes
    exact hdescribes.of_isSubtypeOf ha.normal.over hb.normal.over hv hab
  · intro hdescribes
    exact hdescribes.of_isSubtypeOf hb.normal.over ha.normal.over hv hba

/-- Objects that hold a truth value under `done` and nothing else. -/
def doneOnly : DataType := ofObject [("done", ofPrimitive .boolean)] bottom ["done"]

/-- Objects with any members, where `done` is a text or one of the two truth values. -/
def doneOrText : DataType :=
  ofObject [("done", unionOf [ofBool true, ofPrimitive .string, ofBool false])] top []

theorem describes_of_isSubtypeOf_done :
    doneOnly.Built .whole ∧ doneOrText.Built .whole ∧
    Json.Held .whole (some (.object [("done", .bool true)])) ∧
    doneOnly.isSubtypeOf doneOrText = true ∧
    doneOnly.Describes (some (.object [("done", .bool true)])) ∧
    doneOrText.Describes (some (.object [("done", .bool true)])) := by
  have hdone : doneOnly.Built .whole :=
    .ofObject _ (List.forall_mem_singleton.mpr (.primitive _)) .bottom
  have htruth (b : Bool) : (ofBool b).Built .whole := .ofJson (.bool b)
  have hunion : ∀ t ∈ [ofBool true, ofPrimitive .string, ofBool false], t.Built .whole :=
    List.forall_mem_cons.mpr ⟨htruth true, forall_mem_pair (.primitive _) (htruth false)⟩
  have hother : doneOrText.Built .whole :=
    .ofObject _ (List.forall_mem_singleton.mpr (.unionOf hunion)) .top
  have hnumbers : (Json.object [("done", .bool true)]).Over .whole :=
    .object (by decide) (List.forall_mem_singleton.mpr (.bool true))
  have hsub : doneOnly.isSubtypeOf doneOrText = true := by decide +kernel
  have hdescribes : doneOnly.Describes (some (.object [("done", .bool true)])) := by
    refine describes_ofObject (.object ?_ ?_)
    · exact List.forall_mem_singleton.mpr ⟨_, rfl⟩
    · intro name v hv
      obtain ⟨rfl, rfl⟩ : name = "done" ∧ v = .bool true := by
        simpa using Fields.mem_of_get?_eq_some hv
      exact .primitive rfl
  exact ⟨hdone, hother, hnumbers.held, hsub, hdescribes,
    describes_of_isSubtypeOf hdone hother hnumbers.held hsub hdescribes⟩

end Inclusion

end JsonPath.DataType
