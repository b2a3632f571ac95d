import JsonPath.Proofs.Analysis.Static
import JsonPath.Proofs.DataType.Known
import JsonPath.Proofs.Evaluation.Coverage

/-!
Static analysis for a document that is known. If all selectors are names, indices from the front
and wildcards, then the type of a query is that of the values it selects, and the type of each
selector that of the values which the selector puts out. That the types describe these values
follows step by step as for any document; that they describe nothing else follows from where they
come from, since every value inside the input of a segment is gone through.
-/

namespace JsonPath

variable {S : NumberSet} {types : Nat → Option DataType} {elements : List Element}

/-- The selector is a name, an index from the front or a wildcard. -/
def Selector.isPlain : Selector → Bool
  | .wildcard _ _ => true
  | selector => selector.step?.isSome

/-- The nodes that the selector with a number has put out. -/
def Event.selected (id : Nat) (events : List Event) : List Node :=
  events.flatMap fun
    | .selector other _ output => if other = id then output else []
    | _ => []

theorem Event.mem_selected {id : Nat} {events : List Event} {n : Node} :
    n ∈ selected id events ↔
      ∃ input output, Event.selector id input output ∈ events ∧ n ∈ output := by
  unfold selected
  rw [List.mem_flatMap]
  constructor
  · rintro ⟨e, he, hn⟩
    cases e with
    | selector other input output =>
      dsimp only at hn
      split at hn
      · rename_i hid
        subst hid
        exact ⟨input, output, he, hn⟩
      · cases hn
    | query | segment | expression | warning => cases hn
  · rintro ⟨input, output, he, hn⟩
    refine ⟨_, he, ?_⟩
    dsimp only
    rw [if_pos rfl]
    exact hn

/-- The values of nodes, as types tell of them. -/
def ValueIn (nodes : List Node) (v : Option Json) : Prop := ∃ n ∈ nodes, v = some n.value

namespace Selector

variable {selector : Selector} {s : TypeScope} {incoming : DataType}

theorem isPlain_cases (h : selector.isPlain = true) :
    (∃ id token, selector = .wildcard id token) ∨ ∃ step, selector.step? = some step := by
  cases selector with
  | wildcard id token => exact .inl ⟨id, token, rfl⟩
  | name | index | slice | filter | missing => exact .inr (Option.isSome_iff_exists.mp h)

theorem type_of_step? {step : Step} (h : selector.step? = some step) :
    selector.type s incoming = (incoming.atStep step).present := by
  cases selector with
  | name =>
    cases h
    rw [Selector.type]
  | index id token value =>
    simp only [step?] at h
    split at h
    · rename_i hvalue
      cases h
      rw [Selector.type, if_pos hvalue]
    · cases h
  | slice | wildcard | filter | missing => cases h

/-- A plain selector only reports what it selects. -/
theorem select_eq_note (h : selector.isPlain = true) (scope : Scope) (n : Node) :
    selector.select scope n =
      .note (.selector selector.id n) (pure (selector.select scope n).result) := by
  cases selector with
  | name | index | wildcard =>
    rw [Selector.select]
    rfl
  | slice | filter | missing => cases h

theorem isOf_of_mem_select (h : selector.isPlain = true) {scope : Scope} {n m : Node}
    (hn : n.IsOf S incoming) (hincoming : incoming.Over S)
    (hm : m ∈ (selector.select scope n).result) : m.IsOf S (selector.type s incoming) := by
  rcases isPlain_cases h with ⟨id, token, rfl⟩ | ⟨step, hstep⟩
  · rw [Selector.select] at hm
    rw [Selector.type]
    exact hn.children hincoming hm
  · rw [select_of_step? hstep, Option.mem_toList] at hm
    rw [type_of_step? hstep]
    exact hn.child? hincoming hm

/-- The type of a plain selector comes from what it selects from the nodes that its input comes
from. -/
theorem type_gathers (h : selector.isPlain = true) (scope : Scope) {input : Node → Prop}
    {V : Option Json → Prop} (hincoming : incoming.Gathers S V)
    (hV : ∀ v, V v → ∃ n, input n ∧ v = some n.value) :
    (selector.type s incoming).Gathers S fun v =>
      ∃ n, input n ∧ ValueIn (selector.select scope n).result v := by
  rcases isPlain_cases h with ⟨id, token, rfl⟩ | ⟨step, hstep⟩
  · rw [Selector.type]
    refine hincoming.children.mono ?_
    rintro _ ⟨v, below, hv, hbelow, rfl⟩
    obtain ⟨n, hn, heq⟩ := hV _ hv
    cases heq
    refine ⟨n, hn, ⟨below.2, n.location ++ [below.1]⟩, ?_, rfl⟩
    rw [Selector.select]
    exact List.mem_map.mpr ⟨below, hbelow, rfl⟩
  · rw [type_of_step? hstep]
    refine (hincoming.atStep step).present.mono ?_
    rintro w ⟨⟨v, hv, rfl⟩, hpresent⟩
    obtain ⟨n, hn, rfl⟩ := hV v hv
    obtain ⟨u, hu⟩ := Option.ne_none_iff_exists'.mp hpresent
    have hchild : n.child? step = some ⟨u, n.location ++ [step]⟩ :=
      Option.map_eq_some_iff.mpr ⟨u, hu, rfl⟩
    refine ⟨n, hn, ⟨u, n.location ++ [step]⟩, ?_, hu⟩
    rw [select_of_step? hstep, hchild]
    exact List.mem_cons_self

theorem mem_typed (selector : Selector) :
    ⟨.selector selector, some incoming, selector.type s incoming⟩ ∈ selector.typed s incoming := by
  cases selector <;> exact List.mem_cons_self

/-- A plain selector has no other selectors in it. -/
theorem eq_of_mem_typed (h : selector.isPlain = true) {e : Typed} {other : Selector}
    (he : e ∈ selector.typed s incoming) (helement : e.element = .selector other) :
    other = selector ∧ e.type = selector.type s incoming := by
  cases selector with
  | name | index | wildcard =>
    rcases List.mem_cons.mp he with rfl | he
    · cases helement
      exact ⟨rfl, rfl⟩
    · obtain ⟨token, -, rfl⟩ := List.mem_map.mp he
      cases helement
  | slice | filter | missing => cases h

end Selector

theorem Selectors.types_eq (s : TypeScope) (incoming : DataType) (selectors : Selectors) :
    selectors.types s incoming =
      selectors.toList.map fun selector => selector.type s incoming := by
  cases selectors with
  | last => rfl
  | more _ _ rest => rw [types, rest.types_eq s incoming, toList, List.map_cons]

theorem Selectors.mem_typed {s : TypeScope} {incoming whole : DataType} {selector : Selector} :
    (selectors : Selectors) → selector ∈ selectors.toList →
    ⟨.selector selector, some incoming, selector.type s incoming⟩ ∈
      selectors.typed s incoming whole
  | .last other, h => by
    rw [List.mem_singleton.mp h]
    exact other.mem_typed
  | .more other _ rest, h => by
    rcases List.mem_cons.mp h with rfl | h
    · exact List.mem_append_left _ selector.mem_typed
    · exact List.mem_append_right _ (List.mem_cons_of_mem _ (rest.mem_typed h))

theorem Selectors.eq_of_mem_typed {s : TypeScope} {incoming whole : DataType} {e : Typed}
    {selector : Selector} (helement : e.element = .selector selector) : (selectors : Selectors) →
    (∀ other ∈ selectors.toList, other.isPlain = true) → e ∈ selectors.typed s incoming whole →
    selector ∈ selectors.toList ∧ e.type = selector.type s incoming
  | .last other, h, he => by
    obtain ⟨rfl, htype⟩ := Selector.eq_of_mem_typed (h other List.mem_cons_self) he helement
    exact ⟨List.mem_cons_self, htype⟩
  | .more other _ rest, h, he => by
    obtain ⟨hother, hrest⟩ := List.forall_mem_cons.mp h
    rcases List.mem_append.mp he with he | he
    · obtain ⟨rfl, htype⟩ := Selector.eq_of_mem_typed hother he helement
      exact ⟨List.mem_cons_self, htype⟩
    · rcases List.mem_cons.mp he with rfl | he
      · cases helement
      · obtain ⟨hmem, htype⟩ := rest.eq_of_mem_typed helement hrest he
        exact ⟨List.mem_cons_of_mem _ hmem, htype⟩

namespace Segment

variable {s : TypeScope} {incoming before : DataType} {segment : Segment} {selector : Selector}

theorem type_eq (s : TypeScope) (incoming : DataType) (segment : Segment) :
    segment.type s incoming =
      .unionOf (segment.selectors.map fun selector => selector.type s incoming) := by
  cases segment with
  | shorthand => rfl
  | bracketed => rw [type, Selectors.types_eq, selectors]

theorem mem_typed (h : selector ∈ segment.selectors) :
    ⟨.selector selector, some incoming, selector.type s incoming⟩ ∈ segment.typed s incoming := by
  cases segment with
  | shorthand id dots other =>
    rw [List.mem_singleton.mp h]
    exact List.mem_cons_of_mem _ (List.mem_cons_of_mem _ other.mem_typed)
  | bracketed id dots opening selectors closing =>
    simp only [typed, List.mem_cons, List.mem_append]
    exact .inr (.inl (.inr (.inr (selectors.mem_typed h))))

theorem eq_of_mem_typed (h : ∀ other ∈ segment.selectors, other.isPlain = true) {e : Typed}
    (he : e ∈ segment.typed s incoming) (helement : e.element = .selector selector) :
    selector ∈ segment.selectors ∧ e.type = selector.type s incoming := by
  cases segment with
  | shorthand id dots other =>
    simp only [typed, List.mem_cons] at he
    rcases he with rfl | rfl | he
    · cases helement
    · cases helement
    · obtain ⟨rfl, htype⟩ := Selector.eq_of_mem_typed (h other List.mem_cons_self) he helement
      exact ⟨List.mem_cons_self, htype⟩
  | bracketed id dots opening selectors closing =>
    simp only [typed, List.mem_cons, List.mem_append, List.mem_map, List.not_mem_nil,
      or_false] at he
    rcases he with rfl | (⟨_, -, rfl⟩ | rfl | he) | rfl
    · cases helement
    · cases helement
    · cases helement
    · exact selectors.eq_of_mem_typed helement h he
    · cases helement

/-- What a segment is applied to comes from what its input comes from, and from inside that if it
descends. -/
theorem incoming_gathers {V : Option Json → Prop} (h : before.Gathers S V) (segment : Segment) :
    (segment.incoming before).Gathers S fun v =>
      V v ∨ segment.isDescendant = true ∧ DataType.Inside V v := by
  unfold incoming
  split
  · rename_i hdescendant
    refine DataType.Gathers.unionOf_pair (h.mono fun _ hv => .inl hv) ?_
    exact h.descendants.mono fun _ hv => .inr ⟨hdescendant, hv⟩
  · exact h.mono fun _ hv => .inl hv

/-- The node is one of those that a segment is applied to because of some nodes, and what its
selectors do there is part of what the segment does. -/
def Visits (scope : Scope) (nodes : List Node) (segment : Segment) (n : Node) : Prop :=
  ∃ input ∈ nodes, ∀ selector ∈ segment.selectors,
    (selector.select scope n).PartOf (segment.select scope input)

theorem Visits.partOf {scope : Scope} {nodes : List Node} {n : Node}
    (h : segment.Visits scope nodes n) (hmem : selector ∈ segment.selectors) :
    (selector.select scope n).PartOf (Traced.collect (fun n => segment.select scope n) nodes) := by
  obtain ⟨input, hinput, hpart⟩ := h
  have hcollect := @Traced.partOf_collect (fun n => segment.select scope n) nodes input hinput
  exact (hpart selector hmem).trans hcollect

theorem exists_visits {scope : Scope} {nodes : List Node} {v : Option Json}
    (h : ValueIn nodes v ∨ segment.isDescendant = true ∧ DataType.Inside (ValueIn nodes) v) :
    ∃ n, segment.Visits scope nodes n ∧ v = some n.value := by
  rcases h with ⟨input, hinput, rfl⟩ | ⟨hdescendant, v, below, w, ⟨input, hinput, heq⟩, hbelow,
    hw, rfl⟩
  · obtain ⟨n, hvalue, hn⟩ := segment.partOf_select scope (.inl rfl)
    exact ⟨n, ⟨input, hinput, hn⟩, congrArg some hvalue.symm⟩
  · cases heq
    obtain ⟨n, hvalue, hn⟩ :=
      segment.partOf_select scope (.inr ⟨hdescendant, .child below hbelow hw⟩)
    exact ⟨n, ⟨input, hinput, hn⟩, congrArg some hvalue.symm⟩

/-- The type of each selector comes from what the selector selects where it is applied. -/
theorem selector_gathers (hplain : ∀ other ∈ segment.selectors, other.isPlain = true)
    (scope : Scope) {nodes : List Node} (h : before.Gathers S (ValueIn nodes))
    (hmem : selector ∈ segment.selectors) :
    (selector.type s (segment.incoming before)).Gathers S fun v =>
      ∃ n, segment.Visits scope nodes n ∧ ValueIn (selector.select scope n).result v :=
  Selector.type_gathers (hplain selector hmem) scope (incoming_gathers h segment)
    fun _ hv => exists_visits hv

end Segment

/-- The types of a path and of its selectors come from what these select. -/
structure Path.Gathers (S : NumberSet) (s : TypeScope) (scope : Scope) (seed : Node) (p : Path) :
    Prop where
  result : (p.type s).Gathers S (ValueIn (p.follow scope seed).result)
  selectors : ∀ e ∈ p.typed s, ∀ selector, e.element = .selector selector →
    e.type.Gathers S (ValueIn (Event.selected selector.id (p.follow scope seed).events))

/-- All selectors among the elements are plain. -/
def AllPlain (elements : List Element) : Prop :=
  ∀ selector, Element.selector selector ∈ elements → selector.isPlain = true

theorem Segment.isPlain_of_known {s : TypeScope} {incoming : DataType} {segment : Segment}
    (hplain : AllPlain elements)
    (hknown : Typed.AllKnown elements types (segment.typed s incoming)) :
    ∀ selector ∈ segment.selectors, selector.isPlain = true := by
  intro selector hselector
  exact hplain _ (hknown _ (Segment.mem_typed hselector)).1

theorem Path.gathers {s : TypeScope} (scope : Scope) {seed : Node} (hplain : AllPlain elements) :
    (p : Path) → Typed.AllKnown elements types (p.typed s) →
    (p.seedType s).Gathers S (ValueIn [seed]) → p.Gathers S s scope seed
  | .root id identifier, _, hseed => by
    constructor
    case result => exact hseed
    case selectors =>
      intro e he selector helement
      rw [List.mem_singleton.mp he] at helement
      cases helement
  | .step before segment, hknown, hseed => by
    obtain ⟨hknownBefore, hknownSegment⟩ := List.forall_mem_append.mp hknown
    have hbefore : before.Gathers S s scope seed := before.gathers scope hplain hknownBefore hseed
    have hselectors := Segment.isPlain_of_known hplain hknownSegment
    constructor
    case result =>
      rw [Path.type, Segment.type_eq]
      apply DataType.Gathers.unionOf
      intro t ht
      obtain ⟨selector, hmem, rfl⟩ := List.mem_map.mp ht
      refine (Segment.selector_gathers hselectors scope hbefore.result hmem).mono ?_
      rintro v ⟨n, hn, m, hm, rfl⟩
      exact ⟨m, (hn.partOf hmem).result m hm, rfl⟩
    case selectors =>
      intro e he selector helement
      rw [Path.follow]
      rcases List.mem_append.mp he with he | he
      · refine (hbefore.selectors e he selector helement).mono ?_
        rintro v ⟨m, hm, rfl⟩
        obtain ⟨input, output, hevent, hm⟩ := Event.mem_selected.mp hm
        exact ⟨m, Event.mem_selected.mpr ⟨input, output, List.mem_append_left _ hevent, hm⟩, rfl⟩
      · obtain ⟨hmem, htype⟩ := Segment.eq_of_mem_typed hselectors he helement
        rw [htype]
        refine (Segment.selector_gathers hselectors scope hbefore.result hmem).mono ?_
        rintro v ⟨n, hn, m, hm, rfl⟩
        have hevent : Event.selector selector.id n (selector.select scope n).result ∈
            (selector.select scope n).events := by
          rw [Selector.select_eq_note (hselectors selector hmem)]
          exact List.mem_cons_self
        have hpath := List.mem_append_right (before.follow scope seed).events
          ((hn.partOf hmem).events _ hevent)
        exact ⟨m, Event.mem_selected.mpr ⟨n, _, hpath, hm⟩, rfl⟩

/-- The output of a selector is described by its type, and its numbers belong to the set. -/
def Event.OutputIsOf (S : NumberSet) (types : Nat → Option DataType) : Event → Prop
  | .selector id _ output => ∃ t, types id = some t ∧ ∀ n ∈ output, n.IsOf S t
  | _ => True

/-- The type of a path and those of its selectors describe what these select. -/
theorem Path.follow_isOf {s : TypeScope} (scope : Scope) {seed : Node}
    (hplain : AllPlain elements) : (p : Path) → Typed.AllKnown elements types (p.typed s) →
    (p.seedType s).Gathers S (ValueIn [seed]) → seed.IsOf S (p.seedType s) →
    (p.follow scope seed).Selects (fun _ => True) (Event.OutputIsOf S types)
      fun n => n.IsOf S (p.type s)
  | .root _ _, _, _, hseed => .pure (List.forall_mem_singleton.mpr hseed)
  | .step before segment, hknown, hgathers, hseed => by
    obtain ⟨hknownBefore, hknownSegment⟩ := List.forall_mem_append.mp hknown
    have hbefore : before.Gathers S s scope seed :=
      before.gathers scope hplain hknownBefore hgathers
    have hincoming := Segment.incoming_gathers hbefore.result segment
    have hselectors := Segment.isPlain_of_known hplain hknownSegment
    rw [Path.follow]
    refine (before.follow_isOf scope hplain hknownBefore hgathers hseed).bind ?_
    intro nodes hnodes
    refine .collect ?_
    intro input hinput
    refine segment.select_selects ?_ fun _ _ => trivial
    intro n hreaches hchild selector hselector
    have hn := (hnodes input hinput).incoming segment hbefore.result.normal.over hreaches hchild
    have hself := (hknownSegment _ (Segment.mem_typed hselector)).2
    have hplainSelector := hselectors selector hselector
    rw [Selector.select_eq_note hplainSelector]
    refine Traced.Holds.note (Q := fun nodes => ∀ m ∈ nodes,
      m.IsOf S (selector.type s (segment.incoming (before.type s)))) (.pure ?_) ?_
    · intro m hm
      exact Selector.isOf_of_mem_select hplainSelector hn hincoming.normal.over hm
    · intro output houtput _
      refine ⟨⟨_, hself, houtput⟩, ?_⟩
      intro m hm
      obtain ⟨hover, hdescribes⟩ := houtput m hm
      refine ⟨hover, ?_⟩
      rw [Path.type, Segment.type_eq]
      refine DataType.describes_unionOf ?_ hover.held (List.mem_map_of_mem hselector) hdescribes
      intro t ht
      obtain ⟨other, hother, rfl⟩ := List.mem_map.mp ht
      exact (Segment.selector_gathers hselectors scope hbefore.result hother).normal.over

/-- A type that comes from the values of nodes and describes each of them is their type. -/
theorem DataType.Gathers.isTypeOf_nodes {t : DataType} {nodes : List Node}
    (h : t.Gathers S (ValueIn nodes)) (hnodes : ∀ n ∈ nodes, n.IsOf S t) :
    t.IsTypeOf (nodes.map (·.value)) := by
  refine (h.mono ?_).isTypeOf ?_
  · rintro _ ⟨n, hn, rfl⟩
    exact ⟨n.value, List.mem_map_of_mem hn, rfl⟩
  · intro v hv
    obtain ⟨n, hn, rfl⟩ := List.mem_map.mp hv
    exact hnodes n hn

/-- The types of a path and of its selectors are those of the values that these select. -/
theorem Path.isTypeOf {s : TypeScope} (scope : Scope) {seed : Node} {p : Path}
    (hplain : AllPlain elements) (hknown : Typed.AllKnown elements types (p.typed s))
    (hnumbers : seed.value.Over S) (htype : p.seedType s = .ofJson seed.value) :
    (p.type s).IsTypeOf ((p.follow scope seed).result.map (·.value)) ∧
      ∀ e ∈ p.typed s, ∀ selector, e.element = .selector selector →
        e.type.IsTypeOf
          ((Event.selected selector.id (p.follow scope seed).events).map (·.value)) := by
  have hgathers : (p.seedType s).Gathers S (ValueIn [seed]) := by
    rw [htype]
    exact .value hnumbers ⟨seed, List.mem_cons_self, rfl⟩
  have hseed : seed.IsOf S (p.seedType s) := by
    rw [htype]
    have hwell := hnumbers.wellFormed
    have hself := (DataType.describes_ofJson_iff hwell hwell).mpr (Json.same_refl hnumbers)
    exact ⟨hnumbers, hself⟩
  have hpath : p.Gathers S s scope seed := p.gathers scope hplain hknown hgathers
  obtain ⟨hevents, hresult⟩ :=
    p.follow_isOf scope hplain hknown hgathers hseed fun _ _ => trivial
  refine ⟨hpath.result.isTypeOf_nodes hresult, ?_⟩
  intro e he selector helement
  refine (hpath.selectors e he selector helement).isTypeOf_nodes ?_
  intro n hn
  obtain ⟨input, output, hevent, hn⟩ := Event.mem_selected.mp hn
  obtain ⟨t, ht, houtput⟩ := hevents _ hevent
  have hself := (hknown e he).2
  rw [helement] at hself
  cases ht.symm.trans hself
  exact houtput n hn

namespace Query

/-- What static analysis tells of a query for the type of a document is just what the evaluation
on the document comes to: the type of the query is that of the values it selects, and the type of
each selector that of the values it puts out. -/
structure Exact (q : Query) (env : Environment) (document : Json) : Prop where
  result : ∃ t, q.typeOf? env (.ofJson document) q.id = some t ∧
    t.IsTypeOf ((q.find env document).map (·.value))
  selectors : ∀ selector, Element.selector selector ∈ q.tree.elements →
    ∃ t, q.typeOf? env (.ofJson document) selector.id = some t ∧
      t.IsTypeOf ((Event.selected selector.id (q.trace env document).events).map (·.value))

theorem selected_trace (q : Query) (env : Environment) (document : Json) (id : Nat) :
    Event.selected id (q.trace env document).events =
      Event.selected id (q.path.follow ⟨env, document⟩ (.root document)).events := by
  have htrace : (q.trace env document).events =
      (q.path.follow ⟨env, document⟩ (.root document)).events ++
        [.query q.path.id (q.path.follow ⟨env, document⟩ (.root document)).result] := rfl
  rw [htrace, Event.selected, List.flatMap_append]
  exact List.append_nil _

/-- The analysis of a query without slices and filters and with indices from the front is exact
for a document that is known. -/
theorem exact_of_plain {env : Environment} {source : String} {document : Json}
    (hdocument : document.Over S) (hplain : AllPlain (parse source).tree.elements) :
    (parse source).Exact env document := by
  have hids := parse_ids_nodup source
  generalize parse source = q at hplain hids
  have hknown : Typed.AllKnown q.tree.elements (q.typeOf? env (.ofJson document))
      (q.typed env (.ofJson document)) := by
    intro e he
    refine ⟨?_, typeOf?_eq_some hids he⟩
    rw [← q.elements_typed env (.ofJson document)]
    exact List.mem_map_of_mem he
  have htyped := hknown
  simp only [Typed.AllKnown, typed, List.forall_mem_cons, List.forall_mem_append] at htyped
  obtain ⟨⟨-, hquery⟩, -, hknownPath, -⟩ := htyped
  have htype : q.path.seedType ⟨env, .ofJson document, .ofJson document⟩ = .ofJson document := by
    unfold Path.seedType
    rw [ite_self]
  obtain ⟨hresult, hselectors⟩ :=
    @Path.isTypeOf S _ _ _ ⟨env, document⟩ (.root document) _ hplain hknownPath hdocument htype
  refine ⟨⟨_, hquery, hresult⟩, ?_⟩
  intro selector hselector
  rw [← q.elements_typed env (.ofJson document)] at hselector
  obtain ⟨e, he, helement⟩ := List.mem_map.mp hselector
  have htypeOf := (hknown e he).2
  rw [helement] at htypeOf
  simp only [typed, List.mem_cons, List.mem_append, List.not_mem_nil, or_false] at he
  rcases he with rfl | rfl | he | rfl
  · cases helement
  · cases helement
  · rw [selected_trace]
    exact ⟨_, htypeOf, hselectors e he selector helement⟩
  · cases helement

/-- The element is no selector that is not plain. -/
def selectsPlainly : Element → Bool
  | .selector selector => selector.isPlain
  | _ => true

/-- A query with a descendant segment on an array with a truth value and an object with the
other. -/
theorem exact_of_plain_truths :
    (Json.array [.bool true, .object [("a", .bool false)]]).Over .whole ∧
    AllPlain (parse "$..[0, 'a', *]").tree.elements ∧
    (parse "$..[0, 'a', *]").Exact .standard
      (.array [.bool true, .object [("a", .bool false)]]) := by
  have hobject : (Json.object [("a", .bool false)]).Over .whole :=
    .object (by decide) (List.forall_mem_singleton.mpr (.bool false))
  have hdocument : (Json.array [.bool true, .object [("a", .bool false)]]).Over .whole :=
    .array (List.forall_mem_cons.mpr ⟨.bool true, List.forall_mem_singleton.mpr hobject⟩)
  have helements : (parse "$..[0, 'a', *]").tree.elements.all selectsPlainly = true := by
    decide +kernel
  rw [List.all_eq_true] at helements
  have hplain : AllPlain (parse "$..[0, 'a', *]").tree.elements :=
    fun selector hselector => helements _ hselector
  exact ⟨hdocument, hplain, exact_of_plain hdocument hplain⟩

end Query

end JsonPath
