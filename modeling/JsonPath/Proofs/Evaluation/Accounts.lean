import JsonPath.Proofs.Evaluation.Reports

/-!
What is reported of an evaluation accounts for all nodes. A segment gives what its selectors give
during its evaluation, and the segments of a path pass nodes on to each other, from the node at
which the path starts to what the path gives. The queries in filters do not interfere, since their
elements have other numbers.
-/

namespace JsonPath

variable {P : Element → Prop} {scope : Scope}

/-- The evaluation of the selector ends with its own report. -/
def Selector.IsNoted (P : Element → Prop) (scope : Scope) (s : Selector) : Prop :=
  ∀ input, ∃ inner, s.select scope input = .note (.selector s.id input) inner ∧
    Reports P scope s.tree.children inner

/-- The evaluation of the segment ends with its own report, and gives what its selectors gave before
it. -/
def Segment.IsNoted (P : Element → Prop) (scope : Scope) (s : Segment) : Prop :=
  ∀ input, ∃ inner, s.select scope input = .note (.segment s.id input) inner ∧
    Reports P scope s.tree.children inner ∧
    inner.result = inner.events.flatMap (Event.selectedBy s.selectors)

namespace Event

variable {e : Event} {s : Segment} {selectors : List Selector}

theorem selectedBy_eq_nil (h : ∀ id ∈ e.id?, id ∉ selectors.map (·.id)) :
    e.selectedBy selectors = [] := by
  cases e with
  | selector id => exact if_neg (h id rfl)
  | query | segment | expression | warning => rfl

theorem inputOf_eq_nil (h : ∀ id ∈ e.id?, id ≠ s.id) : e.inputOf s = [] := by
  cases e with
  | segment id => exact if_neg (h id rfl)
  | query | selector | expression | warning => rfl

theorem outputOf_eq_nil (h : ∀ id ∈ e.id?, id ≠ s.id) : e.outputOf s = [] := by
  cases e with
  | segment id => exact if_neg (h id rfl)
  | query | selector | expression | warning => rfl

end Event

theorem Selector.tree_eq (s : Selector) : s.tree = .node (.selector s) s.tree.children := by
  cases s <;> rw [Selector.tree] <;> rfl

theorem Segment.tree_eq (s : Segment) : s.tree = .node (.segment s) s.tree.children := by
  cases s <;> rw [Segment.tree] <;> rfl

section Selectors

variable {s other : Selector} {ss : Selectors}

theorem Selector.IsNoted.reports (h : s.IsNoted P scope) (hs : Distinct P [s.tree]) (input : Node) :
    Reports P scope [s.tree] (s.select scope input) := by
  obtain ⟨inner, heq, hinner⟩ := h input
  rw [heq]
  rw [s.tree_eq] at hs ⊢
  exact hinner.note hs (fun _ => rfl) fun _ _ _ => trivial

/-- Of what the evaluation of a selector reports, only its own report is about one of the
selectors beside it. -/
theorem Selector.IsNoted.result_eq (h : s.IsNoted P scope) {selectors : List Selector}
    (hs : s ∈ selectors) (hinside : ∀ other ∈ selectors, other.id ∉ s.tree.inside) (input : Node) :
    (s.select scope input).result =
      (s.select scope input).events.flatMap (Event.selectedBy selectors) := by
  obtain ⟨inner, heq, hinner⟩ := h input
  have hnone : inner.events.flatMap (Event.selectedBy selectors) = [] := by
    refine List.flatMap_eq_nil_iff.mpr fun e he => Event.selectedBy_eq_nil fun id hid hmem => ?_
    obtain ⟨other, hother, rfl⟩ := List.mem_map.mp hmem
    exact hinside other hother (hinner.among e he _ hid)
  rw [heq]
  change _ = (inner.events ++ [_]).flatMap _
  rw [List.flatMap_append, hnone, List.nil_append, List.flatMap_singleton]
  exact (if_pos (List.mem_map_of_mem hs)).symm

theorem Selectors.tree_mem : {ss : Selectors} → s ∈ ss.toList → s.tree ∈ ss.trees
  | .last _, h => by
    rw [List.mem_singleton.mp h, Selectors.trees]
    exact List.mem_cons_self
  | .more _ _ _, h => by
    rw [Selectors.trees]
    rcases List.mem_cons.mp h with rfl | h
    · exact List.mem_cons_self
    · exact List.mem_cons_of_mem _ (List.mem_cons_of_mem _ (tree_mem h))

/-- No selector is inside another one beside it. -/
theorem Selectors.not_mem_inside (h : Distinct P ss.trees) (hs : s ∈ ss.toList)
    (hother : other ∈ ss.toList) : other.id ∉ s.tree.inside := by
  have hmem : other.id ∈ other.tree.ids := by
    rw [other.tree_eq, Tree.ids_node]
    exact List.mem_cons_self
  intro hinside
  by_cases heq : s.tree = other.tree
  · have hdistinct := h.sublist (List.singleton_sublist.mpr (tree_mem hother))
    rw [heq] at hinside
    rw [other.tree_eq] at hdistinct
    exact hdistinct.id_not_mem hinside
  · exact h.disjoint (tree_mem hs) (tree_mem hother) heq (Tree.inside_subset _ hinside) hmem

theorem Selectors.reports : (ss : Selectors) → (∀ s ∈ ss.toList, s.IsNoted P scope) →
    Distinct P ss.trees → ∀ input, Reports P scope ss.trees (ss.select scope input)
  | .last s, hss, h, input => by
    rw [Selectors.trees] at h ⊢
    rw [Selectors.select]
    exact (hss s List.mem_cons_self).reports h input
  | .more s comma rest, hss, h, input => by
    obtain ⟨hs, hrest⟩ := List.forall_mem_cons.mp hss
    rw [Selectors.trees] at h ⊢
    rw [Selectors.select]
    have hfirst := hs.reports (h.of_mem List.mem_cons_self) input
    have hothers := rest.reports hrest h.tail.tail input
    exact (hfirst.of_mem List.mem_cons_self h).append ((hothers.cons h.tail).cons h)

theorem Selectors.result_eq (scope : Scope) (input : Node) (selectors : List Selector) :
    (ss : Selectors) → (∀ s ∈ ss.toList, (s.select scope input).result =
      (s.select scope input).events.flatMap (Event.selectedBy selectors)) →
    (ss.select scope input).result =
      (ss.select scope input).events.flatMap (Event.selectedBy selectors)
  | .last s, h => by
    rw [Selectors.select]
    exact h s List.mem_cons_self
  | .more s _ rest, h => by
    obtain ⟨hs, hrest⟩ := List.forall_mem_cons.mp h
    rw [Selectors.select, Traced.append_eq]
    change _ = List.flatMap _ (_ ++ _)
    rw [List.flatMap_append, ← hs, ← rest.result_eq scope input selectors hrest]

end Selectors

section Segments

theorem collect_result_eq {select : Node → Traced (List Node)} {nodes : List Node}
    {pick : Event → List Node} (h : ∀ n, (select n).result = (select n).events.flatMap pick) :
    (Traced.collect select nodes).result = (Traced.collect select nodes).events.flatMap pick := by
  rw [Traced.collect_result, Traced.collect_events, List.flatMap_assoc]
  exact congrArg (List.flatMap · _) (funext h)

theorem Segment.isNoted_shorthand {id : Nat} {dots : Token} {selector : Selector}
    (hselector : selector.IsNoted P scope)
    (h : Distinct P [(Segment.shorthand id dots selector).tree]) :
    (Segment.shorthand id dots selector).IsNoted P scope := by
  intro input
  rw [Segment.tree] at h ⊢
  have hsub : [selector.tree].Sublist [.leaf dots, selector.tree] := .cons _ (.refl _)
  have hdistinct := h.children.sublist hsub
  rw [Segment.select, reach_eq]
  refine ⟨_, rfl, reports_collect fun n =>
    (hselector.reports hdistinct n).weaken hsub h.children, collect_result_eq fun n => ?_⟩
  refine hselector.result_eq List.mem_cons_self (List.forall_mem_singleton.mpr ?_) n
  rw [selector.tree_eq] at hdistinct
  exact hdistinct.id_not_mem

theorem Segment.isNoted_bracketed {id : Nat} {dots : Option Token} {opening closing : Token}
    {selectors : Selectors} (hselectors : ∀ s ∈ selectors.toList, s.IsNoted P scope)
    (h : Distinct P [(Segment.bracketed id dots opening selectors closing).tree]) :
    (Segment.bracketed id dots opening selectors closing).IsNoted P scope := by
  intro input
  rw [Segment.tree] at h ⊢
  have hsub : selectors.trees.Sublist
      (Tree.leaf? dots ++ .leaf opening :: selectors.trees ++ [.leaf closing]) :=
    ((List.sublist_cons_self _ _).trans (List.sublist_append_right _ _)).trans
      (List.sublist_append_left _ _)
  have hdistinct := h.children.sublist hsub
  rw [Segment.select, reach_eq]
  refine ⟨_, rfl, reports_collect fun n =>
    (selectors.reports hselectors hdistinct n).weaken hsub h.children, collect_result_eq fun n => ?_⟩
  refine selectors.result_eq scope n _ fun s hs => (hselectors s hs).result_eq hs ?_ n
  exact fun other hother => Selectors.not_mem_inside hdistinct hs hother

theorem Segment.IsNoted.reports {s : Segment} (h : s.IsNoted P scope) (hs : Distinct P [s.tree])
    (input : Node) : Reports P scope [s.tree] (s.select scope input) := by
  obtain ⟨inner, heq, hinner, hresult⟩ := h input
  rw [heq]
  have hnode := hs
  rw [s.tree_eq] at hnode ⊢
  refine hinner.note hnode (fun _ => rfl) fun before _ hclear => ⟨s, hnode.element, rfl, ?_⟩
  change inner.result =
    (since (s.tree.children.flatMap Tree.ids) (before ++ inner.events)).flatMap _
  rw [since_append hinner.among, List.flatMap_append, ← hresult, flatMap_since_of_clear hclear]
  · rfl
  · intro e he
    exact Event.selectedBy_eq_nil (by simp [he])

/-- Of what the evaluation of a segment reports, only its own report is about the segment. -/
theorem Segment.IsNoted.picks {s : Segment} (h : s.IsNoted P scope) (hs : Distinct P [s.tree])
    (input : Node) :
    (s.select scope input).events.flatMap (Event.inputOf s) = [input] ∧
      (s.select scope input).events.flatMap (Event.outputOf s) =
        (s.select scope input).result := by
  obtain ⟨inner, heq, hinner, -⟩ := h input
  rw [s.tree_eq] at hs
  have hother (e : Event) (he : e ∈ inner.events) (id : Nat) (hid : id ∈ e.id?) : id ≠ s.id := by
    rintro rfl
    exact hs.id_not_mem (hinner.among e he _ hid)
  have hinput : inner.events.flatMap (Event.inputOf s) = [] :=
    List.flatMap_eq_nil_iff.mpr fun e he => Event.inputOf_eq_nil (hother e he)
  have houtput : inner.events.flatMap (Event.outputOf s) = [] :=
    List.flatMap_eq_nil_iff.mpr fun e he => Event.outputOf_eq_nil (hother e he)
  rw [heq]
  change List.flatMap _ (inner.events ++ [_]) = _ ∧ List.flatMap _ (inner.events ++ [_]) = _
  rw [List.flatMap_append, List.flatMap_append, hinput, houtput, List.nil_append, List.nil_append,
    List.flatMap_singleton, List.flatMap_singleton]
  exact ⟨if_pos rfl, if_pos rfl⟩

end Segments

section Paths

variable {seed : Node}

theorem Path.id_mem_parts {s : Segment} : {p : Path} → s ∈ p.segments →
    s.id ∈ p.parts.flatMap Tree.ids
  | .step before segment, h => by
    rw [Path.parts, List.flatMap_append, List.mem_append]
    rcases List.mem_append.mp h with h | h
    · exact .inl (id_mem_parts h)
    · rw [List.mem_singleton.mp h, List.flatMap_singleton, segment.tree_eq, Tree.ids_node]
      exact .inr List.mem_cons_self

/-- Events that tell of no segment of a path make no difference to what the segments report. -/
theorem Path.map_flatMap_append {p : Path} {events more : List Event}
    {pick : Segment → Event → List Node}
    (hpick : ∀ s e, (∀ id ∈ e.id?, id ≠ s.id) → pick s e = [])
    (hmore : ∀ e ∈ more, ∀ id ∈ e.id?, id ∉ p.parts.flatMap Tree.ids) :
    p.segments.map (fun s => (events ++ more).flatMap (pick s)) =
      p.segments.map (fun s => events.flatMap (pick s)) := by
  refine List.map_congr_left fun s hs => ?_
  have hnone : more.flatMap (pick s) = [] := by
    refine List.flatMap_eq_nil_iff.mpr fun e he => hpick s e ?_
    rintro id hid rfl
    exact hmore e he _ hid (id_mem_parts hs)
  rw [List.flatMap_append, hnone, List.append_nil]

/-- All inputs and outputs of a segment are reported in turn. -/
theorem Segment.IsNoted.collect_picks {s : Segment} (h : s.IsNoted P scope)
    (hs : Distinct P [s.tree]) (nodes : List Node) :
    let collected := Traced.collect (fun n => s.select scope n) nodes
    collected.events.flatMap (Event.inputOf s) = nodes ∧
      collected.events.flatMap (Event.outputOf s) = collected.result := by
  dsimp only
  rw [Traced.collect_events, Traced.collect_result, List.flatMap_assoc, List.flatMap_assoc]
  refine ⟨?_, congrArg (List.flatMap · _) (funext fun n => (h.picks hs n).2)⟩
  rw [funext fun n => (h.picks hs n).1, List.flatMap_singleton']

/-- A further segment of a path is given what the segments before gave. -/
theorem Path.Chains.step {before : Path} {segment : Segment} {first second : List Event}
    {found output : List Node} (h : before.Chains seed first found)
    (hfirst : ∀ e ∈ first, ∀ id ∈ e.id?, id ∈ before.parts.flatMap Tree.ids)
    (hsecond : ∀ e ∈ second, ∀ id ∈ e.id?, id ∈ segment.tree.ids)
    (hdisjoint : (before.parts.flatMap Tree.ids).Disjoint segment.tree.ids)
    (hinputs : second.flatMap (Event.inputOf segment) = found)
    (houtputs : second.flatMap (Event.outputOf segment) = output) :
    (Path.step before segment).Chains seed (first ++ second) output := by
  have hmore : ∀ e ∈ second, ∀ id ∈ e.id?, id ∉ before.parts.flatMap Tree.ids :=
    fun e he id hid hmem => hdisjoint hmem (hsecond e he id hid)
  have hother {pick : Event → List Node}
      (hpick : ∀ e, (∀ id ∈ e.id?, id ≠ segment.id) → pick e = []) : first.flatMap pick = [] := by
    refine List.flatMap_eq_nil_iff.mpr fun e he => hpick e ?_
    rintro id hid rfl
    refine hdisjoint (hfirst e he _ hid) ?_
    rw [segment.tree_eq, Tree.ids_node]
    exact List.mem_cons_self
  rw [Path.Chains, Path.segments, List.map_append, List.map_append,
    Path.map_flatMap_append (fun s e => Event.outputOf_eq_nil) hmore,
    Path.map_flatMap_append (fun s e => Event.inputOf_eq_nil) hmore, List.map_singleton,
    List.map_singleton, List.flatMap_append, List.flatMap_append,
    hother fun e => Event.outputOf_eq_nil, hother fun e => Event.inputOf_eq_nil, hinputs,
    houtputs, ← List.cons_append, h]
  simp

/-- The segments of a path pass nodes on to each other. -/
theorem Path.follow_reports (seed : Node) : (p : Path) → (∀ s ∈ p.segments, s.IsNoted P scope) →
    Distinct P p.parts → Reports P scope p.parts (p.follow scope seed) ∧
      p.Chains seed (p.follow scope seed).events (p.follow scope seed).result
  | .root _ _, _, _ => by
    rw [Path.follow]
    exact ⟨reports_pure, rfl⟩
  | .step before segment, hsegments, h => by
    rw [Path.segments] at hsegments
    obtain ⟨hbefore, hsegment⟩ := List.forall_mem_append.mp hsegments
    have hnoted := hsegment segment List.mem_cons_self
    rw [Path.parts] at h
    have hfirst : before.parts.Sublist (before.parts ++ [segment.tree]) :=
      List.sublist_append_left _ _
    have hlast := h.of_mem (List.mem_append_right _ List.mem_cons_self)
    obtain ⟨hreports, hchains⟩ := before.follow_reports seed hbefore (h.sublist hfirst)
    have hcollect (nodes : List Node) :
        Reports P scope [segment.tree] (.collect (fun n => segment.select scope n) nodes) :=
      reports_collect (hnoted.reports hlast)
    have hsecond := (hcollect (before.follow scope seed).result).among
    rw [List.flatMap_singleton] at hsecond
    have hdisjoint := List.disjoint_of_nodup_append (List.flatMap_append ▸ h.nodup)
    rw [List.flatMap_singleton] at hdisjoint
    obtain ⟨hinputs, houtputs⟩ := hnoted.collect_picks hlast (before.follow scope seed).result
    rw [Path.follow, Path.parts]
    refine ⟨(hreports.weaken hfirst h).bind fun nodes => ?_, ?_⟩
    · exact (hcollect nodes).of_mem (List.mem_append_right _ List.mem_cons_self) h
    · exact hchains.step hreports.among hsecond hdisjoint hinputs houtputs

/-- The report of a path, after those of its segments. -/
theorem Path.accounts_note {p : Path} (hsegments : ∀ s ∈ p.segments, s.IsNoted P scope)
    (h : Distinct P [.node (.path p) p.parts]) {before after : List Event}
    (hclear : Clear (p.parts.flatMap Tree.ids) before)
    (hstarts : p.Starts scope seed (p.follow scope seed).result after) :
    Accounts P scope after before
      (Traced.note (.query p.id) (p.follow scope seed)).events := by
  obtain ⟨hreports, hchains⟩ := p.follow_reports seed hsegments h.children
  refine accounts_append.mpr ⟨hreports.accounts before _ fun c hc => hclear.mono ?_, ⟨?_, trivial⟩⟩
  · exact fun id hmem => List.mem_flatMap.mpr ⟨c, hc, c.inside_subset hmem⟩
  · refine ⟨p, seed, h.element, rfl, hstarts, ?_⟩
    change p.Chains seed (since (p.parts.flatMap Tree.ids) (before ++ (p.follow scope seed).events)) _
    rw [since_append hreports.among]
    -- what was reported before tells of no segment
    have hnone {pick : Segment → Event → List Node}
        (hpick : ∀ s e, (∀ id ∈ e.id?, id ≠ s.id) → pick s e = []) (s : Segment) :
        (since (p.parts.flatMap Tree.ids) before).flatMap (pick s) = [] :=
      flatMap_since_of_clear hclear fun e he => hpick s e (by simp [he])
    unfold Path.Chains at hchains ⊢
    simpa only [List.flatMap_append, hnone fun s e => Event.outputOf_eq_nil,
      hnone fun s e => Event.inputOf_eq_nil, List.nil_append] using hchains

end Paths

end JsonPath
