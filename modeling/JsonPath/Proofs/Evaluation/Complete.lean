import JsonPath.Proofs.Evaluation.Accounts

/-!
Every evaluation of a query accounts for all nodes. Filters bring in expressions, which evaluate
paths for other current nodes, so what is reported of selectors and of expressions is shown
together. A path in a filter is reported right before the expression that stands for it, and this
tells for which node it was evaluated.
-/

namespace JsonPath

variable {P : Element → Prop} {scope : Scope}

/-- The evaluation of the expression reports the expression and what is inside it. -/
def Expr.IsReported (P : Element → Prop) (scope : Scope) (e : Expr) : Prop :=
  ∀ current, Reports P scope [e.tree] (e.evaluate scope current)

section Operands

theorem Operands.reports_some : (os : Operands) → (∀ e ∈ os.toList, e.IsReported P scope) →
    Distinct P os.trees → ∀ current, Reports P scope os.trees (os.some scope current)
  | .last operand, hos, h, current => by
    rw [Operands.some, Operands.trees]
    exact (hos operand List.mem_cons_self current).bind fun _ => reports_pure
  | .more operand separator rest, hos, h, current => by
    obtain ⟨hoperand, hrest⟩ := List.forall_mem_cons.mp hos
    rw [Operands.trees] at h ⊢
    rw [Operands.some]
    refine ((hoperand current).of_mem List.mem_cons_self h).bind fun result => ?_
    split
    · exact reports_pure
    · exact ((rest.reports_some hrest h.tail.tail current).cons h.tail).cons h

theorem Operands.reports_all : (os : Operands) → (∀ e ∈ os.toList, e.IsReported P scope) →
    Distinct P os.trees → ∀ current, Reports P scope os.trees (os.all scope current)
  | .last operand, hos, h, current => by
    rw [Operands.all, Operands.trees]
    exact (hos operand List.mem_cons_self current).bind fun _ => reports_pure
  | .more operand separator rest, hos, h, current => by
    obtain ⟨hoperand, hrest⟩ := List.forall_mem_cons.mp hos
    rw [Operands.trees] at h ⊢
    rw [Operands.all]
    refine ((hoperand current).of_mem List.mem_cons_self h).bind fun result => ?_
    split
    · exact ((rest.reports_all hrest h.tail.tail current).cons h.tail).cons h
    · exact reports_pure

theorem Operands.reports_evaluate {trouble : CallTrouble → Traced Unit}
    (htrouble : ∀ t (ts : List Tree), Reports P scope ts (trouble t)) : (os : Operands) →
    (∀ e ∈ os.toList, e.IsReported P scope) → Distinct P os.trees → ∀ current i kinds,
      Reports P scope os.trees (os.evaluate scope current trouble i kinds)
  | .last operand, hos, h, current, i, kind :: _ => by
    rw [Operands.evaluate, Operands.trees]
    refine (hos operand List.mem_cons_self current).bind fun result => ?_
    split
    · exact reports_pure
    · exact (htrouble _ _).bind fun _ => reports_pure
  | .more operand separator rest, hos, h, current, i, kind :: kinds => by
    obtain ⟨hoperand, hrest⟩ := List.forall_mem_cons.mp hos
    rw [Operands.trees] at h ⊢
    rw [Operands.evaluate]
    refine ((hoperand current).of_mem List.mem_cons_self h).bind fun result => ?_
    split
    · have hothers := rest.reports_evaluate htrouble hrest h.tail.tail current (i + 1) kinds
      exact ((hothers.cons h.tail).cons h).bind fun _ => reports_pure
    · exact (htrouble _ _).bind fun _ => reports_pure
  | .last _, _, _, _, _, [] | .more .., _, _, _, _, [] => by
    rw [Operands.evaluate]
    exact reports_pure

end Operands

section Expressions

variable {current : Node}

/-- Remarks on a call are reported as warnings only. -/
theorem Function.reports_call {f : Function} {name : String} {ranges : List Range} {range : Range}
    {arguments : List Result} {ts : List Tree} :
    Reports P scope ts (f.call name ranges range arguments) := by
  have hremarks (remarks : List Remark) : Reports P scope ts
      (remarks.forM fun remark => warn name ranges range (.remark remark)) := by
    induction remarks with
    | nil => exact reports_pure
    | cons remark rest ih => exact reports_warning.bind fun _ => ih
  exact (hremarks _).bind fun _ => reports_pure

/-- An expression that is reported after what is inside it. -/
theorem Reports.expression {e : Expr} {cs : List Tree} {t : Traced Result}
    (h : Reports P scope cs t) (hdistinct : Distinct P [.node (.expression e) cs]) :
    Reports P scope [.node (.expression e) cs] (.note (.expression e.id current) t) :=
  h.note hdistinct (fun _ => rfl) fun _ _ _ => trivial

/-- A path in a filter is reported right before the expression that stands for it. -/
theorem Expr.reports_path {id : Nat} {p : Path} (hsegments : ∀ s ∈ p.segments, s.IsNoted P scope)
    (h : Distinct P [(Expr.path id p).tree]) :
    Reports P scope [(Expr.path id p).tree] ((Expr.path id p).evaluate scope current) := by
  rw [Expr.tree] at h ⊢
  have hpath := h.children
  obtain ⟨hreports, -⟩ := p.follow_reports (p.seed scope (some current)) hsegments hpath.children
  have hevents : ((Expr.path id p).evaluate scope current).events =
      (Traced.note (.query p.id) (p.follow scope (p.seed scope (some current)))).events ++
        [.expression id current (.nodes (p.follow scope (p.seed scope (some current))).result)] := by
    rw [Expr.evaluate]
    change (_ ++ []) ++ _ = _
    rw [List.append_nil]
    rfl
  refine ⟨?_, fun before after hclear => ?_, fun before _ => ?_⟩
  · rw [hevents, List.flatMap_singleton, Tree.ids_node, List.flatMap_singleton, Tree.ids_node]
    refine List.forall_mem_append.mpr ⟨List.forall_mem_append.mpr ⟨?_, ?_⟩, ?_⟩
    · intro e he i hi
      exact List.mem_cons_of_mem _ (List.mem_cons_of_mem _ (hreports.among e he i hi))
    · exact List.forall_mem_singleton.mpr fun i hi =>
        Option.some.inj hi ▸ List.mem_cons_of_mem _ List.mem_cons_self
    · exact List.forall_mem_singleton.mpr fun i hi => Option.some.inj hi ▸ List.mem_cons_self
  · have hsubset : p.parts.flatMap Tree.ids ⊆ [Tree.node (.path p) p.parts].flatMap Tree.ids := by
      rw [List.flatMap_singleton, Tree.ids_node]
      exact List.subset_cons_self _ _
    have hinside := Clear.mono (hclear _ List.mem_cons_self) hsubset
    rw [hevents]
    refine accounts_append.mpr ⟨p.accounts_note hsegments hpath hinside (.inr ?_), trivial, trivial⟩
    exact ⟨id, current, after, rfl, rfl⟩
  · refine List.forall_mem_singleton.mpr ?_
    rw [hevents, ← List.append_assoc]
    exact clear_concat_of_some rfl h.id_not_mem

end Expressions

-- By induction on the syntax. What is inside an element has other numbers than what is beside it,
-- so that the parts of an element do not disturb what each of them accounts for.
mutual

theorem Path.areNoted : (p : Path) → Distinct P p.parts → ∀ s ∈ p.segments, s.IsNoted P scope
  | .root _ _, _ => List.forall_mem_nil _
  | .step before segment, h => by
    rw [Path.parts] at h
    refine List.forall_mem_append.mpr ⟨before.areNoted ?_, List.forall_mem_singleton.mpr ?_⟩
    · exact h.sublist (List.sublist_append_left _ _)
    · exact segment.isNoted (h.sublist (List.sublist_append_right _ _))

theorem Segment.isNoted : (s : Segment) → Distinct P [s.tree] → s.IsNoted P scope
  | .shorthand _ _ selector, h => by
    refine Segment.isNoted_shorthand (selector.isNoted ?_) h
    rw [Segment.tree] at h
    exact h.children.tail
  | .bracketed _ _ _ selectors _, h => by
    refine Segment.isNoted_bracketed (selectors.areNoted ?_) h
    rw [Segment.tree] at h
    refine h.children.sublist (List.Sublist.trans ?_ (List.sublist_append_left _ _))
    exact (List.sublist_cons_self _ _).trans (List.sublist_append_right _ _)

theorem Selectors.areNoted : (ss : Selectors) → Distinct P ss.trees →
    ∀ s ∈ ss.toList, s.IsNoted P scope
  | .last selector, h => by
    rw [Selectors.trees] at h
    exact List.forall_mem_singleton.mpr (selector.isNoted h)
  | .more selector _ rest, h => by
    rw [Selectors.trees] at h
    refine List.forall_mem_cons.mpr ⟨selector.isNoted (h.of_mem List.mem_cons_self), ?_⟩
    exact rest.areNoted h.tail.tail

theorem Selector.isNoted : (s : Selector) → Distinct P [s.tree] → s.IsNoted P scope
  | .name .., _ | .index .., _ | .slice .., _ | .wildcard .., _ | .missing .., _ => by
    intro input
    rw [Selector.select]
    exact ⟨_, rfl, reports_pure⟩
  | .filter id question test, h => by
    intro input
    rw [Selector.tree] at h ⊢
    rw [Selector.select]
    have htest := test.isReported h.children.tail
    refine ⟨_, rfl, reports_filter fun n => ?_⟩
    exact ((htest n).cons h.children).bind fun _ => reports_pure

theorem Expr.isReported : (e : Expr) → Distinct P [e.tree] → e.IsReported P scope
  | .or id first operator rest, h => by
    intro current
    rw [Expr.tree] at h ⊢
    rw [Expr.evaluate]
    have hfirst := first.isReported (h.children.of_mem List.mem_cons_self) current
    have hoperands := rest.areReported h.children.tail.tail
    refine Reports.expression ?_ h
    refine (hfirst.of_mem List.mem_cons_self h.children).bind fun result => ?_
    split
    · exact reports_pure
    · have hrest := rest.reports_some hoperands h.children.tail.tail current
      exact ((hrest.cons h.children.tail).cons h.children).bind fun _ => reports_pure
  | .and id first operator rest, h => by
    intro current
    rw [Expr.tree] at h ⊢
    rw [Expr.evaluate]
    have hfirst := first.isReported (h.children.of_mem List.mem_cons_self) current
    have hoperands := rest.areReported h.children.tail.tail
    refine Reports.expression ?_ h
    refine (hfirst.of_mem List.mem_cons_self h.children).bind fun result => ?_
    split
    · have hrest := rest.reports_all hoperands h.children.tail.tail current
      exact ((hrest.cons h.children.tail).cons h.children).bind fun _ => reports_pure
    · exact reports_pure
  | .not id bang inner, h => by
    intro current
    rw [Expr.tree] at h ⊢
    rw [Expr.evaluate]
    have hinner := inner.isReported h.children.tail current
    refine Reports.expression ?_ h
    exact (hinner.cons h.children).bind fun _ => reports_pure
  | .comparison id left operator op right, h => by
    intro current
    rw [Expr.tree] at h ⊢
    rw [Expr.evaluate]
    have hleft := left.isReported (h.children.of_mem List.mem_cons_self) current
    have hright := right.isReported h.children.tail.tail current
    refine Reports.expression ?_ h
    refine (hleft.of_mem List.mem_cons_self h.children).bind fun _ => ?_
    exact ((hright.cons h.children.tail).cons h.children).bind fun _ => reports_pure
  | .path id p, h => by
    intro current
    refine Expr.reports_path (p.areNoted ?_) h
    rw [Expr.tree] at h
    exact h.children.children
  | .call id name opening arguments closing, h => by
    intro current
    rw [Expr.tree] at h ⊢
    rw [Expr.evaluate]
    have hsub : arguments.trees.Sublist
        (.leaf name :: .leaf opening :: arguments.trees ++ [.leaf closing]) :=
      (List.Sublist.cons _ (.cons _ (.refl _))).trans (List.sublist_append_left _ _)
    have harguments (trouble : CallTrouble → Traced Unit)
        (htrouble : ∀ t (ts : List Tree), Reports P scope ts (trouble t)) (kinds : List Kind) :=
      (arguments.reports_evaluate (h.children.sublist hsub) htrouble current kinds).weaken hsub
        h.children
    refine Reports.expression ?_ h
    dsimp only
    split
    · exact reports_warning.bind fun _ => reports_pure
    · split
      · exact reports_warning.bind fun _ => reports_pure
      · refine (harguments _ (fun _ _ => reports_warning) _).bind fun results => ?_
        cases results with
        | some results => exact Function.reports_call
        | none => exact reports_pure
  | .literal .., h | .missing .., h => by
    intro current
    rw [Expr.tree] at h ⊢
    rw [Expr.evaluate]
    exact Reports.expression reports_pure h
  | .parens id opening inner closing, h => by
    intro current
    rw [Expr.tree] at h ⊢
    rw [Expr.evaluate]
    have hmem : inner.tree ∈ [.leaf opening, inner.tree, .leaf closing] :=
      List.mem_cons_of_mem _ List.mem_cons_self
    have hinner := inner.isReported (h.children.of_mem hmem) current
    exact Reports.expression (hinner.of_mem hmem h.children) h

theorem Operands.areReported : (os : Operands) → Distinct P os.trees →
    ∀ e ∈ os.toList, e.IsReported P scope
  | .last operand, h => by
    rw [Operands.trees] at h
    exact List.forall_mem_singleton.mpr (operand.isReported h)
  | .more operand _ rest, h => by
    rw [Operands.trees] at h
    refine List.forall_mem_cons.mpr ⟨operand.isReported (h.of_mem List.mem_cons_self), ?_⟩
    exact rest.areReported h.tail.tail

theorem Arguments.reports_evaluate : (as : Arguments) → Distinct P as.trees →
    ∀ {trouble : CallTrouble → Traced Unit},
    (∀ t (ts : List Tree), Reports P scope ts (trouble t)) → ∀ current kinds,
      Reports P scope as.trees (as.evaluate scope current trouble kinds)
  | .none, _, _, _, _, _ => by
    rw [Arguments.evaluate]
    exact reports_pure
  | .some operands, h, _, htrouble, current, kinds => by
    rw [Arguments.trees] at h ⊢
    rw [Arguments.evaluate]
    exact operands.reports_evaluate htrouble (operands.areReported h) h current 0 kinds

end

section Queries

variable {q : Query} {environment : Environment} {document : Json}

/-- Every report in the evaluation of a query is accounted for by the reports around it. -/
theorem Query.accounted_of_nodup (hids : q.tree.ids.Nodup) {before after : List Event} {e : Event}
    (heq : (q.trace environment document).events = before ++ e :: after) :
    e.Accounted (· ∈ q.tree.elements) ⟨environment, document⟩ before after := by
  have hdistinct : Distinct (· ∈ q.tree.elements) [q.tree] := by
    refine ⟨?_, List.forall_mem_singleton.mpr fun e he => he⟩
    rwa [List.flatMap_singleton]
  have hpath : Distinct (· ∈ q.tree.elements) [.node (.path q.path) q.path.parts] :=
    hdistinct.children.of_mem List.mem_cons_self
  have haccounts : Accounts (· ∈ q.tree.elements) ⟨environment, document⟩ [] []
      (q.trace environment document).events :=
    q.path.accounts_note (q.path.areNoted hpath.children) hpath clear_nil (.inl ⟨rfl, rfl⟩)
  have haccounted := haccounts.accounted heq
  rwa [List.nil_append, List.append_nil] at haccounted

end Queries

/-- In an evaluation a segment is reported to give, in order, what its selectors were reported to
give since its evaluation began. What the segments of a path were reported to be given since the
evaluation of the path began is the seed for the first one, and for all others what the segment
before gave, and the path is reported to give what the last one gave. The last report is that of
the path of the query with the nodes that the query selects, and these are the same without the
reports. -/
theorem Query.parse_trace_accounts (source : String) (environment : Environment)
    (document : Json) :
    let q := Query.parse source
    let scope : Scope := ⟨environment, document⟩
    (∀ before after id input output,
      (q.trace environment document).events = before ++ .segment id input output :: after →
      ∃ s, .segment s ∈ q.tree.elements ∧ s.id = id ∧
        output = (since s.tree.inside before).flatMap (Event.selectedBy s.selectors)) ∧
    (∀ before after id output,
      (q.trace environment document).events = before ++ .query id output :: after →
      ∃ p seed, .path p ∈ q.tree.elements ∧ p.id = id ∧ p.Starts scope seed output after ∧
        p.Chains seed (since p.tree.inside before) output) ∧
    (q.trace environment document).result = q.find environment document ∧
    (∃ before, (q.trace environment document).events =
      before ++ [.query q.path.id (q.find environment document)]) ∧
    q.find environment document = q.nodes environment document := by
  have hids := Query.parse_ids_nodup source
  generalize Query.parse source = q at hids ⊢
  refine ⟨?_, ?_, rfl, ⟨_, rfl⟩, q.find_eq_nodes environment document⟩
  · intro before after id input output heq
    exact Query.accounted_of_nodup hids heq
  · intro before after id output heq
    exact Query.accounted_of_nodup hids heq

end JsonPath
