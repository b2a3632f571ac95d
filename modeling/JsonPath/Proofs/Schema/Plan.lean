import JsonPath.Schema.Conversion

/-!
What plans make when they are told which types the schemas that they ask for may have. What a plan
makes does not depend on how it is put together from smaller ones.
-/

namespace JsonPath.Plan

variable {α β : Type} {A B : Location → Json → DataType → Prop} {P : Location → Json → Prop}
  {wide : Bool}

instance : LawfulMonad Plan := by
  refine LawfulMonad.mk' Plan ?_ (fun _ _ => rfl) ?_
  · intro α p
    induction p with
    | done => rfl
    | widening next ih => exact congrArg widening ih
    | asking l v next ih => exact congrArg (asking l v) (funext ih)
  · intro α β γ p f g
    induction p with
    | done => rfl
    | widening next ih => exact congrArg widening ih
    | asking l v next ih => exact congrArg (asking l v) (funext ih)

/-- The plan asks for no schemas but those with the property, whatever types these have. -/
def Asks (P : Location → Json → Prop) : Plan α → Prop
  | done _ => True
  | widening next => next.Asks P
  | asking l v next => P l v ∧ ∀ t, (next t).Asks P

/-- The plan may make the result, with types of schemas that are told by `A`. Only if `wide` is set
it may say that the result is not exact. -/
def Makes (A : Location → Json → DataType → Prop) (wide : Bool) : Plan α → α → Prop
  | done result, a => a = result
  | widening next, a => wide = true ∧ next.Makes A wide a
  | asking l v next, a => ∃ t, A l v t ∧ (next t).Makes A wide a

section Asks

theorem asks_pure (a : α) : (pure a : Plan α).Asks P := trivial

theorem asks_widen : widen.Asks P := trivial

theorem asks_widenIf (condition : Bool) : (widenIf condition).Asks P := by
  cases condition <;> trivial

theorem asks_anything : anything.Asks P := trivial

theorem asks_node {l : Location} {v : Json} (h : P l v) : (node l v).Asks P :=
  ⟨h, fun _ => trivial⟩

theorem Asks.bind {p : Plan α} {f : α → Plan β} (hp : p.Asks P) (hf : ∀ a, (f a).Asks P) :
    (p >>= f).Asks P := by
  induction p with
  | done a => exact hf a
  | widening next ih => exact ih hp
  | asking l v next ih => exact ⟨hp.1, fun t => ih t (hp.2 t)⟩

theorem Asks.map {p : Plan α} (hp : p.Asks P) (f : α → β) : (f <$> p).Asks P := by
  rw [← bind_pure_comp]
  exact hp.bind fun _ => trivial

theorem asks_mapM {f : α → Plan β} {items : List α} (h : ∀ item ∈ items, (f item).Asks P) :
    (items.mapM f).Asks P := by
  induction items with
  | nil => exact asks_pure _
  | cons item rest ih =>
    obtain ⟨hitem, hrest⟩ := List.forall_mem_cons.mp h
    rw [List.mapM_cons]
    exact hitem.bind fun _ => (ih hrest).bind fun _ => asks_pure _

theorem asks_option_mapM {f : α → Plan β} {item : Option α}
    (h : ∀ a, item = some a → (f a).Asks P) : (item.mapM f).Asks P := by
  cases item with
  | none => exact asks_pure _
  | some a => exact (h a rfl).map some

end Asks

section Makes

@[simp] theorem makes_pure {a b : α} : (pure a : Plan α).Makes A wide b ↔ b = a := Iff.rfl

@[simp] theorem makes_widen {u : Unit} : widen.Makes A wide u ↔ wide = true := by
  simp [widen, Makes]

@[simp] theorem makes_widenIf {condition : Bool} {u : Unit} :
    (widenIf condition).Makes A wide u ↔ (condition = true → wide = true) := by
  cases condition <;> simp [widenIf]

@[simp] theorem makes_node {l : Location} {v : Json} {t : DataType} :
    (node l v).Makes A wide t ↔ A l v t := by
  simp [node, Makes]

@[simp] theorem makes_bind {p : Plan α} {f : α → Plan β} {b : β} :
    (p >>= f).Makes A wide b ↔ ∃ a, p.Makes A wide a ∧ (f a).Makes A wide b := by
  induction p with
  | done a => simp [Bind.bind, Plan.bind, Makes]
  | widening next ih =>
    change wide = true ∧ (next >>= f).Makes A wide b ↔ _
    rw [ih]
    simp [Makes, and_assoc]
  | asking l v next ih =>
    change (∃ t, A l v t ∧ (next t >>= f).Makes A wide b) ↔ _
    simp only [ih, Makes]
    constructor
    · rintro ⟨t, ht, a, ha, hb⟩
      exact ⟨a, ⟨t, ht, ha⟩, hb⟩
    · rintro ⟨a, ⟨t, ht, ha⟩, hb⟩
      exact ⟨t, ht, a, ha, hb⟩

@[simp] theorem makes_map {p : Plan α} {f : α → β} {b : β} :
    (f <$> p).Makes A wide b ↔ ∃ a, p.Makes A wide a ∧ b = f a := by
  rw [← bind_pure_comp, makes_bind]
  rfl

@[simp] theorem makes_anything {t : DataType} :
    anything.Makes A wide t ↔ wide = true ∧ t = .top := by
  simp [anything]

/-- Results are made for the items of a list in turn. -/
theorem makes_mapM {f : α → Plan β} {items : List α} {results : List β}
    (h : (items.mapM f).Makes A wide results) (i : Nat) :
    Option.Rel (fun a b => (f a).Makes A wide b) items[i]? results[i]? := by
  induction items generalizing results i with
  | nil =>
    obtain rfl : results = [] := h
    exact .none
  | cons item rest ih =>
    rw [List.mapM_cons] at h
    simp only [makes_bind, makes_pure] at h
    obtain ⟨b, hb, others, hothers, rfl⟩ := h
    cases i with
    | zero => exact .some hb
    | succ i => exact ih hothers i

/-- Results are made for fields under the names of these. -/
theorem makes_mapM_fields {f : String → α → Plan β} {fields : Fields α} {results : Fields β}
    (h : (fields.mapM fun (name, a) => return (name, ← f name a)).Makes A wide results)
    (name : String) :
    Option.Rel (fun a b => (f name a).Makes A wide b) (fields.get? name) (results.get? name) := by
  induction fields generalizing results with
  | nil =>
    obtain rfl : results = [] := h
    exact .none
  | cons field rest ih =>
    obtain ⟨key, a⟩ := field
    rw [List.mapM_cons] at h
    simp only [makes_bind, makes_pure] at h
    obtain ⟨_, ⟨b, hb, rfl⟩, others, hothers, rfl⟩ := h
    simp only [Fields.get?]
    split
    · rename_i hkey
      subst hkey
      exact .some hb
    · exact ih hothers

@[simp] theorem makes_option_mapM {f : α → Plan β} {item : Option α} {result : Option β} :
    (item.mapM f).Makes A wide result ↔
      Option.Rel (fun a b => (f a).Makes A wide b) item result := by
  cases item with
  | none =>
    change result = none ↔ _
    constructor
    · rintro rfl
      exact .none
    · intro h
      cases h
      rfl
  | some a =>
    change (some <$> f a).Makes A wide result ↔ _
    rw [makes_map]
    constructor
    · rintro ⟨b, hb, rfl⟩
      exact .some hb
    · intro h
      cases h with
      | some hb => exact ⟨_, hb, rfl⟩

/-- Types that are told differently leave what is made with them. -/
theorem Makes.mono {p : Plan α} {a : α} (h : p.Makes A wide a)
    (hAB : ∀ l v t, A l v t → B l v t) : p.Makes B wide a := by
  induction p with
  | done => exact h
  | widening next ih => exact ⟨h.1, ih h.2⟩
  | asking l v next ih =>
    obtain ⟨t, ht, ha⟩ := h
    exact ⟨t, hAB l v t ht, ih t ha⟩

/-- What is made is determined by the types of the schemas. -/
theorem Makes.unique {p : Plan α} {a b : α} (ha : p.Makes A wide a) (hb : p.Makes B wide b)
    (hAB : ∀ l v t u, A l v t → B l v u → t = u) : a = b := by
  induction p with
  | done => exact Eq.trans ha hb.symm
  | widening next ih => exact ih ha.2 hb.2
  | asking l v next ih =>
    obtain ⟨t, ht, ha⟩ := ha
    obtain ⟨u, hu, hb⟩ := hb
    obtain rfl := hAB l v t u ht hu
    exact ih t ha hb

end Makes

end JsonPath.Plan
