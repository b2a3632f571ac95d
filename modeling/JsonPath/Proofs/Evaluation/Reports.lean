import Mathlib.Data.List.Flatten
import Mathlib.Data.List.Nodup
import Mathlib.Data.List.Pairwise
import JsonPath.Proofs.Evaluation.Plain
import JsonPath.Proofs.Evaluation.Since
import JsonPath.Proofs.Syntax.Numbering

/-!
Evaluations that account for what they report. What a segment gives has to be given by its
selectors, and what a path gives by its segments, one after the other. Every way to put evaluations
together keeps this, as long as the elements that they tell of have different numbers.
-/

namespace JsonPath

/-- The elements of some trees have the property and have different numbers. -/
structure Distinct (P : Element → Prop) (ts : List Tree) : Prop where
  nodup : (ts.flatMap Tree.ids).Nodup
  all : ∀ t ∈ ts, t.All P

namespace Distinct

variable {P : Element → Prop} {ts us : List Tree} {x y : Tree} {e : Element}

theorem sublist (h : Distinct P ts) (hus : us.Sublist ts) : Distinct P us :=
  ⟨h.nodup.sublist (hus.flatMap _), fun t ht => h.all t (hus.subset ht)⟩

theorem of_mem (h : Distinct P ts) (hx : x ∈ ts) : Distinct P [x] :=
  h.sublist (List.singleton_sublist.mpr hx)

theorem tail (h : Distinct P (x :: ts)) : Distinct P ts :=
  h.sublist (List.sublist_cons_self x ts)

theorem children (h : Distinct P [.node e us]) : Distinct P us := by
  obtain ⟨hnodup, hall⟩ := h
  rw [List.flatMap_singleton, Tree.ids_node] at hnodup
  exact ⟨(List.nodup_cons.mp hnodup).2, (Tree.all_node.mp (hall _ List.mem_cons_self)).2⟩

theorem element (h : Distinct P [.node e us]) : P e :=
  (Tree.all_node.mp (h.all _ List.mem_cons_self)).1

theorem id_not_mem (h : Distinct P [.node e us]) : e.id ∉ us.flatMap Tree.ids := by
  have hnodup := h.nodup
  rw [List.flatMap_singleton, Tree.ids_node] at hnodup
  exact (List.nodup_cons.mp hnodup).1

/-- Different trees have no numbers in common. -/
theorem disjoint (h : Distinct P ts) (hx : x ∈ ts) (hy : y ∈ ts) (hne : x ≠ y) :
    x.ids.Disjoint y.ids := by
  have hpairwise := (List.nodup_flatMap.mp h.nodup).2
  have : Std.Symm (Function.onFun List.Disjoint Tree.ids) := ⟨fun _ _ h _ hb ha => h ha hb⟩
  exact hpairwise.forall hx hy hne

end Distinct

/-- The reports of the segments of a path hang together. The first segment is given the seed, every
other one what the one before gave, and the last one gives the output. -/
def Path.Chains (p : Path) (seed : Node) (events : List Event) (output : List Node) : Prop :=
  [seed] :: p.segments.map (fun s => events.flatMap (Event.outputOf s)) =
    p.segments.map (fun s => events.flatMap (Event.inputOf s)) ++ [output]

/-- The seed of a path that is reported with its output. It is the seed without a current node for
the path of the whole query, which is reported last, and otherwise the seed for the node for which
the expression around the path is reported next. -/
def Path.Starts (p : Path) (scope : Scope) (seed : Node) (output : List Node)
    (after : List Event) : Prop :=
  after = [] ∧ seed = p.seed scope none ∨ ∃ id current rest,
    after = .expression id current (.nodes output) :: rest ∧ seed = p.seed scope (some current)

/-- What a segment or a path is reported to give is accounted for by the events before. -/
def Event.Accounted (P : Element → Prop) (scope : Scope) (before after : List Event) :
    Event → Prop
  | .segment id _ output => ∃ s, P (.segment s) ∧ s.id = id ∧
    output = (since s.tree.inside before).flatMap (Event.selectedBy s.selectors)
  | .query id output => ∃ p seed, P (.path p) ∧ p.id = id ∧ p.Starts scope seed output after ∧
    p.Chains seed (since p.tree.inside before) output
  | _ => True

/-- All events of a list are accounted for, given what is before and after them. -/
def Accounts (P : Element → Prop) (scope : Scope) (after : List Event) :
    List Event → List Event → Prop
  | _, [] => True
  | before, e :: rest =>
    e.Accounted P scope before (rest ++ after) ∧ Accounts P scope after (before ++ [e]) rest

/-- An evaluation tells of the elements of some trees only and accounts for what it tells, if what
was reported before it ends with none of the elements inside them, which is also true after it. -/
structure Reports {α : Type} (P : Element → Prop) (scope : Scope) (ts : List Tree)
    (t : Traced α) : Prop where
  among : ∀ e ∈ t.events, ∀ id ∈ e.id?, id ∈ ts.flatMap Tree.ids
  accounts : ∀ before after, (∀ x ∈ ts, Clear x.inside before) →
    Accounts P scope after before t.events
  clears : ∀ before, (∀ x ∈ ts, Clear x.inside before) →
    ∀ x ∈ ts, Clear x.inside (before ++ t.events)

section Accounts

variable {P : Element → Prop} {scope : Scope} {before after events more : List Event}

theorem accounts_append : Accounts P scope after before (events ++ more) ↔
    Accounts P scope (more ++ after) before events ∧
      Accounts P scope after (before ++ events) more := by
  induction events generalizing before with
  | nil => simp [Accounts]
  | cons e rest ih => simp [Accounts, ih, and_assoc]

/-- Each of the events is accounted for. -/
theorem Accounts.accounted (h : Accounts P scope after before events) {xs ys : List Event}
    {e : Event} (heq : events = xs ++ e :: ys) :
    e.Accounted P scope (before ++ xs) (ys ++ after) := by
  subst heq
  exact (accounts_append.mp h).2.1

end Accounts

section Reports

variable {α β : Type} {P : Element → Prop} {scope : Scope} {ts us : List Tree} {t : Traced α}

theorem reports_pure {a : α} : Reports P scope ts (pure a) where
  among := List.forall_mem_nil _
  accounts _ _ _ := trivial
  clears before h := by
    rwa [show before ++ (pure a : Traced α).events = before from List.append_nil _]

theorem reports_warning {w : CallWarning} : Reports P scope ts (Traced.event (.warning w)) where
  among := List.forall_mem_singleton.mpr nofun
  accounts _ _ _ := ⟨trivial, trivial⟩
  clears _ h x hx := clear_append (h x hx) (List.forall_mem_singleton.mpr nofun)

theorem Reports.bind {f : α → Traced β} (ht : Reports P scope ts t)
    (hf : ∀ a, Reports P scope ts (f a)) : Reports P scope ts (t >>= f) where
  among := List.forall_mem_append.mpr ⟨ht.among, (hf t.result).among⟩
  accounts before after h :=
    accounts_append.mpr ⟨ht.accounts before _ h, (hf t.result).accounts _ after (ht.clears before h)⟩
  clears before h := by
    have hall := (hf t.result).clears _ (ht.clears before h)
    rwa [List.append_assoc] at hall

theorem Reports.append {s t : Traced (List Node)} (hs : Reports P scope ts s)
    (ht : Reports P scope ts t) : Reports P scope ts (do return (← s) ++ (← t)) :=
  hs.bind fun _ => ht.bind fun _ => reports_pure

theorem reports_collect {select : Node → Traced (List Node)} {nodes : List Node}
    (h : ∀ n, Reports P scope ts (select n)) :
    Reports P scope ts (Traced.collect select nodes) := by
  induction nodes with
  | nil => exact reports_pure
  | cons n rest ih => exact (h n).append ih

theorem reports_filter {test : Node → Traced Bool} {nodes : List Node}
    (h : ∀ n, Reports P scope ts (test n)) : Reports P scope ts (Traced.filter test nodes) := by
  induction nodes with
  | nil => exact reports_pure
  | cons n rest ih => exact (h n).bind fun _ => ih.bind fun _ => reports_pure

theorem Tree.inside_subset (x : Tree) : x.inside ⊆ x.ids := by
  cases x with
  | node e cs =>
    rw [ids_node]
    exact List.subset_cons_self _ _

/-- Of further trees nothing is reported. -/
theorem Reports.weaken (h : Reports P scope us t) (hus : us.Sublist ts) (hts : Distinct P ts) :
    Reports P scope ts t where
  among e he id hid := (hus.flatMap _).subset (h.among e he id hid)
  accounts before after hclear := h.accounts before after fun x hx => hclear x (hus.subset hx)
  clears before hclear x hx := by
    by_cases hmem : x ∈ us
    · exact h.clears before (fun y hy => hclear y (hus.subset hy)) x hmem
    · refine clear_append (hclear x hx) fun e he id hid hinside => ?_
      obtain ⟨y, hy, hyid⟩ := List.mem_flatMap.mp (h.among e he id hid)
      have hne : x ≠ y := by
        rintro rfl
        exact hmem hy
      exact hts.disjoint hx (hus.subset hy) hne (x.inside_subset hinside) hyid

theorem Reports.of_mem {x : Tree} (h : Reports P scope [x] t) (hx : x ∈ ts)
    (hts : Distinct P ts) : Reports P scope ts t :=
  h.weaken (List.singleton_sublist.mpr hx) hts

theorem Reports.cons {x : Tree} (h : Reports P scope ts t) (hts : Distinct P (x :: ts)) :
    Reports P scope (x :: ts) t :=
  h.weaken (List.sublist_cons_self x ts) hts

/-- An element that is reported after what is inside it. -/
theorem Reports.note {e : Element} {cs : List Tree} {describe : α → Event}
    (h : Reports P scope cs t) (hdistinct : Distinct P [.node e cs])
    (hid : ∀ a, (describe a).id? = some e.id)
    (haccounted : ∀ before after, Clear (cs.flatMap Tree.ids) before →
      (describe t.result).Accounted P scope (before ++ t.events) after) :
    Reports P scope [.node e cs] (.note describe t) where
  among := by
    rw [List.flatMap_singleton, Tree.ids_node]
    refine List.forall_mem_append.mpr ⟨?_, List.forall_mem_singleton.mpr ?_⟩
    · intro x hx id hxid
      exact List.mem_cons_of_mem _ (h.among x hx id hxid)
    · intro id hnote
      cases (hid _).symm.trans hnote
      exact List.mem_cons_self
  accounts before after hclear := by
    have hinside : Clear (cs.flatMap Tree.ids) before := hclear _ List.mem_cons_self
    refine accounts_append.mpr ⟨h.accounts before _ fun c hc => hinside.mono ?_, ?_, trivial⟩
    · exact fun id hmem => List.mem_flatMap.mpr ⟨c, hc, c.inside_subset hmem⟩
    · exact haccounted before _ hinside
  clears before _ := by
    refine List.forall_mem_singleton.mpr ?_
    change Clear _ (before ++ (t.events ++ [describe t.result]))
    rw [← List.append_assoc]
    exact clear_concat_of_some (hid _) hdistinct.id_not_mem

end Reports

end JsonPath
