import JsonPath.Proofs.Schema.Acceptance

/-!
How what is decided about a value compares with a property of the value, such as being described by
a type. What is accepted has to have the property. Unless only that is asked for, what has the
property has to be accepted, and what does not has to be rejected.
-/

namespace JsonPath.JsonSchema

section Lists

variable {α β : Type} {R : α → β → Prop} {items : List α} {results : List β}

theorem rel_mono {R' : α → β → Prop} {a : Option α} {b : Option β} (h : Option.Rel R a b)
    (hR : ∀ x y, a = some x → R x y → R' x y) : Option.Rel R' a b := by
  cases h with
  | none => exact .none
  | some hab => exact .some (hR _ _ rfl hab)

theorem rel_map_left {γ : Type} {f : γ → α} {a : Option γ} {b : Option β} :
    Option.Rel R (a.map f) b ↔ Option.Rel (fun x y => R (f x) y) a b := by
  cases a <;> cases b <;> simp

theorem exists_of_rel_left (h : ∀ i : Nat, Option.Rel R items[i]? results[i]?) {a : α} (ha : a ∈ items) :
    ∃ b ∈ results, R a b := by
  obtain ⟨i, hi⟩ := List.mem_iff_getElem?.mp ha
  have hrel := h i
  rw [hi] at hrel
  generalize hresult : results[i]? = result at hrel
  cases hrel with
  | some hab => exact ⟨_, List.mem_of_getElem? hresult, hab⟩

theorem exists_of_rel_right (h : ∀ i : Nat, Option.Rel R items[i]? results[i]?) {b : β}
    (hb : b ∈ results) : ∃ a ∈ items, R a b := by
  obtain ⟨i, hi⟩ := List.mem_iff_getElem?.mp hb
  have hrel := h i
  rw [hi] at hrel
  generalize hitem : items[i]? = item at hrel
  cases hrel with
  | some hab => exact ⟨_, List.mem_of_getElem? hitem, hab⟩

theorem length_eq_of_rel (h : ∀ i : Nat, Option.Rel R items[i]? results[i]?) :
    items.length = results.length := by
  apply Nat.le_antisymm <;> apply Nat.le_of_not_lt <;> intro hlt
  · have hrel := h results.length
    rw [List.getElem?_eq_getElem hlt, List.getElem?_eq_none (Nat.le_refl _)] at hrel
    cases hrel
  · have hrel := h items.length
    rw [List.getElem?_eq_getElem hlt, List.getElem?_eq_none (Nat.le_refl _)] at hrel
    cases hrel

end Lists

/-- What is accepted has the property, and what is not rejected as well, unless `wide` is set. -/
structure Judged (wide : Bool) (accepted rejected P : Prop) : Prop where
  covers : accepted → P
  accepts : wide = false → P → accepted
  rejects : wide = false → ¬ P → rejected

section Judged

variable {wide : Bool} {a r a' r' P Q : Prop}

theorem Judged.congr (h : Judged wide a r P) (hPQ : P ↔ Q) : Judged wide a r Q where
  covers ha := hPQ.mp (h.covers ha)
  accepts hwide hQ := h.accepts hwide (hPQ.mpr hQ)
  rejects hwide hQ := h.rejects hwide fun hP => hQ (hPQ.mp hP)

theorem Judged.and (h : Judged wide a r P) (h' : Judged wide a' r' Q) :
    Judged wide (a ∧ a') (r ∨ r') (P ∧ Q) where
  covers ha := ⟨h.covers ha.1, h'.covers ha.2⟩
  accepts hwide hPQ := ⟨h.accepts hwide hPQ.1, h'.accepts hwide hPQ.2⟩
  rejects hwide hPQ := by
    by_cases hP : P
    · exact .inr (h'.rejects hwide fun hQ => hPQ ⟨hP, hQ⟩)
    · exact .inl (h.rejects hwide hP)

theorem Judged.change (h : Judged wide a r P) (ha : a' → a) (ha' : wide = false → a → a')
    (hr : wide = false → r → r') : Judged wide a' r' P where
  covers := fun h' => h.covers (ha h')
  accepts hwide hP := ha' hwide (h.accepts hwide hP)
  rejects hwide hP := hr hwide (h.rejects hwide hP)

/-- It is enough to cover what is accepted if nothing more is asked for. -/
theorem judged_of_wide (hwide : wide = true) (h : a → P) : Judged wide a r P where
  covers := h
  accepts hfalse := nomatch hwide.symm.trans hfalse
  rejects hfalse := nomatch hwide.symm.trans hfalse

/-- What always holds has to be accepted. -/
theorem judged_of_true (hP : P) (ha : wide = false → a) : Judged wide a r P where
  covers _ := hP
  accepts hwide _ := ha hwide
  rejects _ hnot := absurd hP hnot

/-- What never holds has to be rejected. -/
theorem judged_of_false (hP : ¬ P) (ha : ¬ a) (hr : wide = false → r) : Judged wide a r P where
  covers h := absurd h ha
  accepts _ h := absurd h hP
  rejects hwide _ := hr hwide

/-- What is chosen from a list is described by one of the results for the list, if something else
that is asked of it is judged along with each choice. -/
theorem judged_exists {α β : Type} {items : List α} {results : List β} {R : α → β → Prop}
    {accepted rejected : α → Prop} {described : β → Prop} {m f : Prop}
    (hrel : ∀ i : Nat, Option.Rel R items[i]? results[i]?)
    (h : ∀ x y, R x y → Judged wide (accepted x ∧ m) (rejected x ∨ f) (described y)) :
    Judged wide ((∃ x ∈ items, accepted x) ∧ m) ((∀ x ∈ items, rejected x) ∨ f)
      (∃ y ∈ results, described y) where
  covers hboth := by
    obtain ⟨⟨x, hx, haccepted⟩, hm⟩ := hboth
    obtain ⟨y, hy, hxy⟩ := exists_of_rel_left hrel hx
    exact ⟨y, hy, (h x y hxy).covers ⟨haccepted, hm⟩⟩
  accepts hwide hresult := by
    obtain ⟨y, hy, hdescribed⟩ := hresult
    obtain ⟨x, hx, hxy⟩ := exists_of_rel_right hrel hy
    have hboth := (h x y hxy).accepts hwide hdescribed
    exact ⟨⟨x, hx, hboth.1⟩, hboth.2⟩
  rejects hwide hnone := by
    by_cases hf : f
    · exact .inr hf
    · refine .inl fun x hx => ?_
      obtain ⟨y, hy, hxy⟩ := exists_of_rel_left hrel hx
      have hrejects := (h x y hxy).rejects hwide fun hdescribed => hnone ⟨y, hy, hdescribed⟩
      exact hrejects.resolve_right hf

end Judged

/-- How the decision about a demand compares with a property. -/
abbrev Document.Judges (d : Document) (wide : Bool) (x : Demand) (P : Prop) : Prop :=
  Judged wide (d.Decides x true) (d.Decides x false) P

section Demands

variable {d : Document} {wide : Bool} {x : Demand} {P : Prop}

theorem judges_holds (b : Bool) : d.Judges wide (.holds b) (b = true) where
  covers h := (decides_holds.mp h).symm
  accepts _ h := decides_holds.mpr h.symm
  rejects _ h := decides_holds.mpr (eq_false_of_ne_true h).symm

theorem judges_true (hP : P) : d.Judges wide (.holds true) P :=
  judged_of_true hP fun _ => .holds true

theorem judges_schema {l : Location} {v value : Json} :
    d.Judges wide (.schema l v value) P ↔ d.Judges wide (d.demand l v value) P := by
  unfold Document.Judges
  rw [decides_schema, decides_schema]

section Lists

variable {α : Type} {demands : List Demand} {items : List α} {Q : α → Prop}

theorem judges_all
    (h : ∀ i : Nat, Option.Rel (fun x item => d.Judges wide x (Q item)) demands[i]? items[i]?) :
    d.Judges wide (.all demands) (∀ item ∈ items, Q item) where
  covers hall item hitem := by
    obtain ⟨x, hx, hjudges⟩ := exists_of_rel_right h hitem
    exact hjudges.covers (decides_all_true.mp hall x hx)
  accepts hwide hQ := by
    refine decides_all_true.mpr ?_
    intro x hx
    obtain ⟨item, hitem, hjudges⟩ := exists_of_rel_left h hx
    exact hjudges.accepts hwide (hQ item hitem)
  rejects hwide hQ := by
    simp only [Classical.not_forall] at hQ
    obtain ⟨item, hitem, hnot⟩ := hQ
    obtain ⟨x, hx, hjudges⟩ := exists_of_rel_right h hitem
    exact decides_all_false.mpr ⟨x, hx, hjudges.rejects hwide hnot⟩

theorem judges_any
    (h : ∀ i : Nat, Option.Rel (fun x item => d.Judges wide x (Q item)) demands[i]? items[i]?) :
    d.Judges wide (.any demands) (∃ item ∈ items, Q item) where
  covers hany := by
    obtain ⟨x, hx, htrue⟩ := decides_any_true.mp hany
    obtain ⟨item, hitem, hjudges⟩ := exists_of_rel_left h hx
    exact ⟨item, hitem, hjudges.covers htrue⟩
  accepts hwide hQ := by
    obtain ⟨item, hitem, hQ⟩ := hQ
    obtain ⟨x, hx, hjudges⟩ := exists_of_rel_right h hitem
    exact decides_any_true.mpr ⟨x, hx, hjudges.accepts hwide hQ⟩
  rejects hwide hQ := by
    refine decides_any_false.mpr ?_
    intro x hx
    obtain ⟨item, hitem, hjudges⟩ := exists_of_rel_left h hx
    exact hjudges.rejects hwide fun hitemQ => hQ ⟨item, hitem, hitemQ⟩

/-- That exactly one demand is met is not told from that one is, unless there is no more than one. -/
theorem judges_one
    (h : ∀ i : Nat, Option.Rel (fun x item => d.Judges wide x (Q item)) demands[i]? items[i]?)
    (hone : wide = false → demands.length ≤ 1) :
    d.Judges wide (.one demands) (∃ item ∈ items, Q item) := by
  -- without demands none is met, and with a single one both ways of counting agree
  have hfew (b : Bool) (hwide : wide = false) (hany : d.Decides (.any demands) b) :
      d.Decides (.one demands) b := by
    match demands, hone hwide with
    | [], _ =>
      have hnone : d.Decides (.one []) (([] : List Bool).count true == 1) := .one rfl nofun
      cases b with
      | true =>
        obtain ⟨_, hmem, -⟩ := decides_any_true.mp hany
        cases hmem
      | false => exact hnone
    | [x], _ =>
      refine decides_one_singleton.mpr ?_
      cases b with
      | true =>
        obtain ⟨y, hy, htrue⟩ := decides_any_true.mp hany
        rwa [List.mem_singleton.mp hy] at htrue
      | false => exact decides_any_false.mp hany _ List.mem_cons_self
  refine (judges_any h).change ?_ (hfew true) (hfew false)
  intro hmet
  exact decides_any_true.mpr (exists_of_decides_one hmet rfl)

/-- Each item of a list demands something. -/
theorem judges_all_map {f : α → Demand} (h : ∀ item ∈ items, d.Judges wide (f item) (Q item)) :
    d.Judges wide (.all (items.map f)) (∀ item ∈ items, Q item) := by
  apply judges_all
  intro i
  rw [List.getElem?_map, rel_map_left]
  generalize hitem : items[i]? = item
  cases item with
  | none => exact .none
  | some item => exact .some (h item (List.mem_of_getElem? hitem))

end Lists

/-- The opposite of a demand is judged by the opposite property, if all that it decides is told. -/
theorem judges_not (h : d.Judges false x P) : d.Judges wide (.not x) (¬ P) where
  covers hnot hP := nomatch (decides_not.mp hnot).unique (h.accepts rfl hP)
  accepts _ hP := decides_not.mpr (h.rejects rfl hP)
  rejects _ hP := decides_not.mpr (h.accepts rfl (Classical.not_not.mp hP))

/-- Something is demanded along with what is known to hold. -/
theorem Judged.met {a r : Prop} (h : Judged wide a r P) (hx : d.Decides x true) :
    Judged wide (d.Decides x true ∧ a) (d.Decides x false ∨ r) P :=
  h.change (·.2) (fun _ ha => ⟨hx, ha⟩) fun _ => .inr

theorem judged_of_unmet {a r : Prop} (hx : d.Decides x false) (hP : ¬ P) :
    Judged wide (d.Decides x true ∧ a) (d.Decides x false ∨ r) P :=
  judged_of_false hP (fun ha => nomatch ha.1.unique hx) fun _ => .inl hx

theorem judges_unknown (hwide : wide = true) : d.Judges wide .unknown P :=
  judged_of_wide hwide fun h => absurd h not_decides_unknown

end Demands

section Keywords

/-- What the keywords demand of a value is met, as far as the schema has them. -/
def Document.Meets (d : Document) (l : Location) (members : Fields Json) (w : Json)
    (keywords : List String) : Prop :=
  ∀ keyword ∈ keywords, ∀ v, members.get? keyword = some v →
    d.Decides (d.keywordDemand l members w keyword v) true

/-- What one of the keywords demands of a value is not met. -/
def Document.Fails (d : Document) (l : Location) (members : Fields Json) (w : Json)
    (keywords : List String) : Prop :=
  ∃ keyword ∈ keywords, ∃ v, members.get? keyword = some v ∧
    d.Decides (d.keywordDemand l members w keyword v) false

/-- How what the keywords demand of a value compares with a property. -/
abbrev Document.Expresses (d : Document) (wide : Bool) (l : Location) (members : Fields Json)
    (w : Json) (keywords : List String) (P : Prop) : Prop :=
  Judged wide (d.Meets l members w keywords) (d.Fails l members w keywords) P

variable {d : Document} {wide : Bool} {l : Location} {members : Fields Json} {w : Json}
  {keyword : String} {keywords others : List String} {P Q : Prop}

theorem meets_append : d.Meets l members w (keywords ++ others) ↔
    d.Meets l members w keywords ∧ d.Meets l members w others :=
  List.forall_mem_append

theorem fails_append : d.Fails l members w (keywords ++ others) ↔
    d.Fails l members w keywords ∨ d.Fails l members w others := by
  simp only [Document.Fails, List.mem_append, or_and_right, exists_or]

theorem expresses_append (h : d.Expresses wide l members w keywords P)
    (h' : d.Expresses wide l members w others Q) :
    d.Expresses wide l members w (keywords ++ others) (P ∧ Q) := by
  unfold Document.Expresses
  rw [meets_append, fails_append]
  exact h.and h'

/-- A keyword that is judged along with others. -/
theorem expresses_cons {v : Json} (hv : members.get? keyword = some v)
    (h : Judged wide
      (d.Decides (d.keywordDemand l members w keyword v) true ∧ d.Meets l members w keywords)
      (d.Decides (d.keywordDemand l members w keyword v) false ∨ d.Fails l members w keywords) P) :
    d.Expresses wide l members w (keyword :: keywords) P := by
  refine h.change ?_ ?_ ?_
  · intro hmeets
    have hmeets' := List.forall_mem_cons.mp hmeets
    exact ⟨hmeets'.1 v hv, hmeets'.2⟩
  · rintro _ ⟨hdecides, hmeets⟩
    refine List.forall_mem_cons.mpr ⟨?_, hmeets⟩
    intro u hu
    obtain rfl := Option.some.inj (hv.symm.trans hu)
    exact hdecides
  · rintro _ (hdecides | ⟨other, hother, hfails⟩)
    · exact ⟨keyword, List.mem_cons_self, v, hv, hdecides⟩
    · exact ⟨other, List.mem_cons_of_mem _ hother, hfails⟩

/-- Without it a keyword demands nothing. -/
theorem meets_absent (habsent : ∀ keyword ∈ keywords, members.get? keyword = none) :
    d.Meets l members w keywords := by
  intro keyword hkeyword v hv
  rw [habsent keyword hkeyword] at hv
  cases hv

/-- A keyword that the schema has is judged by what it demands. -/
theorem expresses_present {v : Json} (hv : members.get? keyword = some v)
    (h : d.Judges wide (d.keywordDemand l members w keyword v) P) :
    d.Expresses wide l members w [keyword] P :=
  expresses_cons hv (h.change (·.1) (fun _ hdecides => ⟨hdecides, nofun⟩) fun _ => .inl)

theorem expresses_keyword
    (h : ∀ v, members.get? keyword = some v → d.Judges wide (d.keywordDemand l members w keyword v) P)
    (habsent : members.get? keyword = none → P) :
    d.Expresses wide l members w [keyword] P := by
  cases hv : members.get? keyword with
  | none => exact judged_of_true (habsent hv) fun _ => meets_absent (by simpa using hv)
  | some v => exact expresses_present hv (h v hv)

/-- Keywords that demand nothing of a value. -/
theorem expresses_nothing (h : wide = false → d.Meets l members w keywords) :
    d.Expresses wide l members w keywords True :=
  judged_of_true trivial h

/-- The keywords are all that a schema demands. -/
theorem judges_keywords (hnodup : members.names.Nodup)
    (h : d.Expresses wide l members w keywords P)
    (hall : wide = false → ∀ keyword ∈ members.names, keyword ∈ keywords) :
    d.Judges wide (d.demand l (.object members) w) P := by
  refine h.change ?_ ?_ ?_
  · intro hdemand keyword _ v hv
    exact decides_all_true.mp hdemand _ (List.mem_map_of_mem (Fields.mem_of_get?_eq_some hv))
  · intro hwide hmeets
    refine decides_all_true.mpr ?_
    intro x hx
    obtain ⟨⟨keyword, v⟩, hmember, rfl⟩ := List.mem_map.mp hx
    have hname := hall hwide keyword (List.mem_map_of_mem hmember)
    exact hmeets keyword hname v (Fields.get?_eq_some_of_mem hnodup hmember)
  · rintro _ ⟨keyword, -, v, hv, hfalse⟩
    exact decides_all_false.mpr
      ⟨_, List.mem_map_of_mem (Fields.mem_of_get?_eq_some hv), hfalse⟩

end Keywords

end JsonPath.JsonSchema
