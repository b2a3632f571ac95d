import JsonPath.Evaluation.Select

/-!
Reasoning about evaluations. What is shown of an evaluation has the form of a promise: if all
events satisfy one property, then they satisfy another, and the result satisfies a third. Each
way to put evaluations together keeps the promises of its parts.
-/

namespace JsonPath

namespace Traced

variable {α β : Type} {A P : Event → Prop} {Q R : α → Prop}

/-- If `A` holds of all events, then so does `P`, and `Q` holds of the result. -/
def Holds (A P : Event → Prop) (Q : α → Prop) (t : Traced α) : Prop :=
  (∀ e ∈ t.events, A e) → (∀ e ∈ t.events, P e) ∧ Q t.result

theorem Holds.pure {a : α} (h : Q a) : Holds A P Q (Pure.pure a) := by
  intro _
  refine ⟨?_, h⟩
  intro e he
  cases he

theorem Holds.mono {t : Traced α} (h : Holds A P Q t) (hQ : ∀ a, Q a → R a) : Holds A P R t := by
  intro hA
  obtain ⟨hP, hresult⟩ := h hA
  exact ⟨hP, hQ _ hresult⟩

/-- What holds of the result anyway may take the place of what is promised of it. -/
theorem Holds.of_result {t : Traced α} (h : Holds A P Q t) (hR : R t.result) : Holds A P R t := by
  intro hA
  exact ⟨(h hA).1, hR⟩

/-- What holds of the result anyway may be added to what is promised of it. -/
theorem Holds.with_result {t : Traced α} (h : Holds A P Q t) (hR : R t.result) :
    Holds A P (fun a => Q a ∧ R a) t := by
  intro hA
  obtain ⟨hP, hQ⟩ := h hA
  exact ⟨hP, hQ, hR⟩

theorem Holds.bind {Q : β → Prop} {t : Traced α} {f : α → Traced β} (h : Holds A P R t)
    (hf : ∀ a, R a → Holds A P Q (f a)) : Holds A P Q (t >>= f) := by
  intro hA
  have hfirst : ∀ e ∈ t.events, A e := fun e he => hA e (List.mem_append_left _ he)
  have hsecond : ∀ e ∈ (f t.result).events, A e := fun e he => hA e (List.mem_append_right _ he)
  obtain ⟨hP, hR⟩ := h hfirst
  obtain ⟨hP', hQ⟩ := hf _ hR hsecond
  refine ⟨?_, hQ⟩
  intro e he
  rcases List.mem_append.mp he with he | he
  · exact hP e he
  · exact hP' e he

/-- What is promised of two evaluations, one after the other, holds of the result of each. -/
theorem Holds.both {γ : Type} {R : β → Prop} {t : Traced α} {u : Traced β} (f : α → β → γ)
    (ht : Holds A P Q t) (hu : Holds A P R u) :
    Holds A P (fun c => c = f t.result u.result ∧ Q t.result ∧ R u.result)
      (do return f (← t) (← u)) := by
  refine (ht.with_result (R := (· = t.result)) rfl).bind ?_
  rintro _ ⟨hQ, rfl⟩
  refine (hu.with_result (R := (· = u.result)) rfl).bind ?_
  rintro _ ⟨hR, rfl⟩
  exact .pure ⟨rfl, hQ, hR⟩

/-- The event that tells of a result may be relied on for what is said of the result. -/
theorem Holds.note {t : Traced α} {describe : α → Event} (h : Holds A P Q t)
    (hnote : ∀ a, Q a → A (describe a) → P (describe a) ∧ R a) :
    Holds A P R (Traced.note describe t) := by
  intro hA
  have hfirst : ∀ e ∈ t.events, A e := fun e he => hA e (List.mem_append_left _ he)
  have hlast : A (describe t.result) := hA _ (List.mem_append_right _ List.mem_cons_self)
  obtain ⟨hP, hQ⟩ := h hfirst
  obtain ⟨hevent, hR⟩ := hnote _ hQ hlast
  refine ⟨?_, hR⟩
  intro e he
  rcases List.mem_append.mp he with he | he
  · exact hP e he
  · rw [List.mem_singleton.mp he]
    exact hevent

theorem Holds.event {e : Event} (h : P e) : Holds A P (fun _ => True) (Traced.event e) := by
  intro _
  refine ⟨?_, trivial⟩
  intro e' he'
  rw [List.mem_singleton.mp he']
  exact h

/-- The promise about nodes, with a property of each of them. -/
abbrev Selects (A P : Event → Prop) (Q : Node → Prop) (t : Traced (List Node)) : Prop :=
  t.Holds A P fun nodes => ∀ n ∈ nodes, Q n

section Nodes

variable {Q : Node → Prop} {select : Node → Traced (List Node)} {nodes : List Node}

theorem Holds.nil : Selects A P Q (Pure.pure []) := by
  refine .pure ?_
  intro n hn
  cases hn

theorem Holds.append {s t : Traced (List Node)} (hs : s.Selects A P Q)
    (ht : t.Selects A P Q) : (do return (← s) ++ (← t)).Selects A P Q := by
  refine hs.bind ?_
  intro first hfirst
  refine ht.bind ?_
  intro others hothers
  refine .pure ?_
  intro n hn
  rcases List.mem_append.mp hn with hn | hn
  · exact hfirst n hn
  · exact hothers n hn

theorem Holds.collect (h : ∀ n ∈ nodes, (select n).Selects A P Q) :
    (Traced.collect select nodes).Selects A P Q := by
  induction nodes with
  | nil => exact .nil
  | cons n rest ih =>
    refine (h n List.mem_cons_self).append ?_
    exact ih fun m hm => h m (List.mem_cons_of_mem _ hm)

/-- What passes a filter is one of the candidates, and the test has given true for it. -/
theorem Holds.filter {test : Node → Traced Bool}
    (h : ∀ n ∈ nodes, (test n).Holds A P fun passes => passes = true → Q n) :
    (Traced.filter test nodes).Selects A P Q := by
  induction nodes with
  | nil => exact .nil
  | cons n rest ih =>
    refine (h n List.mem_cons_self).bind ?_
    intro passes hpasses
    refine (ih fun m hm => h m (List.mem_cons_of_mem _ hm)).bind ?_
    intro others hothers
    refine .pure ?_
    cases passes with
    | false => exact hothers
    | true =>
      intro m hm
      rcases List.mem_cons.mp hm with rfl | hm
      · exact hpasses rfl
      · exact hothers m hm

end Nodes

end Traced

/-- A call of a function with arguments of the declared kinds only adds remarks. -/
theorem Function.call_holds {A P : Event → Prop} {Q : Result → Prop} {f : Function}
    {name : String} {ranges : List Range} {range : Range} {arguments : List Result}
    (hremark : ∀ w remark, CallWarning.trouble w = .remark remark → P (.warning w))
    (h : Q (f.run arguments).1) : (f.call name ranges range arguments).Holds A P Q := by
  have hremarks : (remarks : List Remark) →
      (remarks.forM fun remark => warn name ranges range (.remark remark)).Holds A P
        fun _ : PUnit => True := by
    intro remarks
    induction remarks with
    | nil => exact .pure trivial
    | cons remark rest ih =>
      refine (Traced.Holds.event (hremark _ remark rfl)).bind ?_
      intro _ _
      exact ih
  refine (hremarks _).bind ?_
  intro _ _
  exact .pure h

/-- The second value is the first one or is somewhere inside it. -/
inductive Json.Reaches : Json → Json → Prop
  | here (v : Json) : Reaches v v
  | child {v w : Json} (below : Step × Json) (mem : below ∈ v.children)
      (rest : below.2.Reaches w) : Reaches v w

section Descend

variable {A P : Event → Prop} {Q : Node → Prop} {select : Node → Traced (List Node)}

mutual

theorem descend_selects (l : Location) : (v : Json) →
    (∀ n : Node, v.Reaches n.value → (select n).Selects A P Q) →
    (descend select l v).Selects A P Q
  | .array items, h => by
    refine .append (h _ (.here _)) (descendItems_selects l 0 items ?_)
    intro item hitem n hn
    obtain ⟨i, hi, rfl⟩ := List.getElem_of_mem hitem
    refine h n (.child (.index i, items[i]) ?_ hn)
    exact List.mem_mapIdx.mpr ⟨i, hi, rfl⟩
  | .object members, h => by
    refine .append (h _ (.here _)) (descendMembers_selects l members ?_)
    intro member hmember n hn
    refine h n (.child (.name member.1, member.2) ?_ hn)
    exact List.mem_map.mpr ⟨member, hmember, rfl⟩
  | .null, h | .bool _, h | .number _, h | .string _, h => h _ (.here _)

theorem descendItems_selects (l : Location) (i : Nat) : (items : List Json) →
    (∀ item ∈ items, ∀ n : Node, item.Reaches n.value → (select n).Selects A P Q) →
    (descendItems select l i items).Selects A P Q
  | [], _ => .nil
  | item :: rest, h => by
    refine .append (descend_selects _ item (h item List.mem_cons_self)) ?_
    exact descendItems_selects l (i + 1) rest fun other hother =>
      h other (List.mem_cons_of_mem _ hother)

theorem descendMembers_selects (l : Location) : (members : List (String × Json)) →
    (∀ member ∈ members, ∀ n : Node, member.2.Reaches n.value → (select n).Selects A P Q) →
    (descendMembers select l members).Selects A P Q
  | [], _ => .nil
  | (name, value) :: rest, h => by
    refine .append (descend_selects _ value (h (name, value) List.mem_cons_self)) ?_
    exact descendMembers_selects l rest fun other hother =>
      h other (List.mem_cons_of_mem _ hother)

end

/-- A segment that does not descend is applied to its input alone. -/
theorem reach_selects {descendant : Bool} {n : Node}
    (h : ∀ m : Node, n.value.Reaches m.value → (descendant = false → m = n) →
      (select m).Selects A P Q) : (reach descendant select n).Selects A P Q := by
  cases descendant with
  | false => exact h n (.here _) fun _ => rfl
  | true =>
    refine descend_selects _ _ ?_
    intro m hm
    refine h m hm ?_
    intro hfalse
    cases hfalse

end Descend

end JsonPath
