import JsonPath.Proofs.Check.Kinds
import JsonPath.Proofs.Environment.Faithful
import JsonPath.Proofs.Typing.Over

/-!
What the elements of a query produce is described by their types. A document and its type are
taken apart together: whatever a segment or a selector is applied to is described by the type of
its input, and a filter keeps what its narrowed type describes. The exceptions are comparisons in
which absence is not accounted for.
-/

namespace JsonPath

variable {S : NumberSet} {elements : List Element} {types : Nat → Option DataType}

/-- The node's value is described by the type and has numbers of the set. -/
def Node.IsOf (S : NumberSet) (t : DataType) (n : Node) : Prop :=
  n.value.Over S ∧ t.Describes (some n.value)

/-- The values of the result have numbers of the set. -/
def Result.Over (S : NumberSet) : Result → Prop
  | value v => v.Over S
  | nodes ns => ∀ n ∈ ns, n.value.Over S
  | _ => True

theorem Result.Over.single {r : Result} (h : r.Over S) : r.Single S := by
  intro v hv
  cases r with
  | value w =>
    cases hv
    exact h
  | nodes ns =>
    match ns with
    | [n] =>
      cases hv
      exact h n List.mem_cons_self
  | nothing | logical => cases hv

/-- A comparison by which candidates are narrowed accounts for the absence of a value. -/
def Expr.Accounts (types : Nat → Option DataType) (scope : Scope) (current : Node) (left : Expr)
    (op : Comparison) (right : Expr) : Prop :=
  match left.relativeLocation?, right.relativeLocation? with
  | some l, _ => ∀ t, types right.id = some t →
    op.Accounts (current.value.at? l) (right.evaluate scope current).result.single.value? t
  | none, some l => ∀ t, types left.id = some t →
    op.mirror.Accounts (current.value.at? l) (left.evaluate scope current).result.single.value? t
  | none, none => True

/-- What is relied on when an expression has come to a result: calls come to numbers of the set,
and comparisons account for absence. -/
def Expr.Relies (S : NumberSet) (types : Nat → Option DataType) (scope : Scope) (current : Node)
    (result : Result) : Expr → Prop
  | .call _ _ _ _ _ => result.Over S
  | .comparison _ left _ op right => left.Accounts types scope current op right
  | _ => True

/-- What is relied on when an event occurs. -/
def Event.Relies (S : NumberSet) (elements : List Element) (types : Nat → Option DataType)
    (scope : Scope) : Event → Prop
  | .expression id current result =>
    ∀ e, Element.expression e ∈ elements → e.id = id → e.Relies S types scope current result
  | _ => True

/-- The output of an element is described by its type. -/
def Event.IsTyped (types : Nat → Option DataType) : Event → Prop
  | .query id output | .segment id _ output | .selector id _ output =>
    ∃ t, types id = some t ∧ ∀ n ∈ output, t.Describes (some n.value)
  | _ => True

/-- An evaluation scope together with the types in it. -/
structure Scope.Fits (S : NumberSet) (elements : List Element) (scope : Scope) (s : TypeScope) :
    Prop where
  environment : s.environment = scope.environment
  faithful : scope.environment.Faithful
  types : s.Over S elements
  document : (Node.root scope.document).IsOf S s.root

theorem Scope.Fits.filter {scope : Scope} {s : TypeScope} (hs : scope.Fits S elements s)
    {incoming : DataType} (hincoming : incoming.Over S) :
    scope.Fits S elements (s.filter incoming) where
  environment := hs.environment
  faithful := hs.faithful
  types := hs.types.filter hincoming
  document := hs.document

/-- The promise about an evaluation that it produces what the types tell. -/
abbrev Traced.Sound {α : Type} (S : NumberSet) (elements : List Element)
    (types : Nat → Option DataType) (scope : Scope) (Q : α → Prop) (t : Traced α) : Prop :=
  t.Holds (Event.Relies S elements types scope) (Event.IsTyped types) Q

theorem Json.eq_of_asArray? {v : Json} {items : List Json} (h : v.asArray? = some items) :
    v = .array items := by
  cases v <;> cases h
  rfl

theorem DataType.describes_ofJson {v : Json} (h : v.IsScalar) : (ofJson v).Describes (some v) := by
  cases v with
  | null => exact .primitive rfl
  | bool | string => exact .literal (beq_self_eq_true _)
  | number n => exact .literal (beq_iff_eq.mpr n.order_self)
  | array | object => exact h.elim

section Nodes

variable {n m : Node} {t : DataType}

theorem Node.child?_eq_some {step : Step} (h : n.child? step = some m) :
    n.value.child? step = some m.value := by
  obtain ⟨v, hv, rfl⟩ := Option.map_eq_some_iff.mp h
  exact hv

theorem Node.exists_of_mem_children (hn : n.value.Over S) (h : m ∈ n.children) :
    ∃ step, n.value.child? step = some m.value := by
  obtain ⟨below, hbelow, rfl⟩ := List.mem_map.mp h
  exact ⟨below.1, hn.child?_of_mem_children hbelow⟩

theorem Node.IsOf.children (hn : n.IsOf S t) (ht : t.Over S) (h : m ∈ n.children) :
    m.IsOf S t.children := by
  obtain ⟨step, hstep⟩ := exists_of_mem_children hn.1 h
  exact ⟨hn.1.child? hstep, DataType.describes_children ht hn.1 hstep hn.2⟩

theorem Node.IsOf.child? {step : Step} (hn : n.IsOf S t) (ht : t.Over S)
    (h : n.child? step = some m) : m.IsOf S (t.atStep step).present := by
  have hchild := Node.child?_eq_some h
  have hdescribes := DataType.describes_atStep step ht hn.1 hn.2
  rw [hchild] at hdescribes
  have hm := hn.1.child? hchild
  exact ⟨hm, DataType.describes_present ((DataType.over_closed S).atStep step ht) hm hdescribes⟩

theorem Node.IsOf.item {items : List Json} (hn : n.IsOf S t) (ht : t.Over S)
    (hitems : n.value = .array items) {i : Nat} (h : n.child? (.index i) = some m) :
    m.IsOf S t.elements := by
  have hchild := Node.child?_eq_some h
  obtain ⟨hover, hdescribes⟩ := hn
  refine ⟨hover.child? hchild, ?_⟩
  rw [hitems] at hover hdescribes hchild
  exact DataType.describes_elements ht hover (List.mem_of_getElem? hchild) hdescribes

/-- What a segment is applied to is described by the type of its input. -/
theorem Node.IsOf.incoming (segment : Segment) (hn : n.IsOf S t) (ht : t.Over S)
    (h : n.value.Reaches m.value) (hchild : segment.isDescendant = false → m = n) :
    m.IsOf S (segment.incoming t) := by
  unfold Segment.incoming
  cases hdescendant : segment.isDescendant with
  | true => exact ⟨hn.1.reaches h, DataType.describes_reaches ht hn.1 hn.2 h⟩
  | false =>
    rw [hchild hdescendant]
    exact hn

end Nodes

/-- What is known of the result of an expression. -/
structure Expr.Promises (S : NumberSet) (s : TypeScope) (current : Node) (e : Expr)
    (result : Result) : Prop where
  numbers : result.Over S
  described : e.IsComparable → ∀ v, result.single = .value v → (e.type s).Describes (some v)
  located : ∀ l, e.relativeLocation? = some l →
    result.single = .ofValue? (current.value.at? l)
  narrow : ∀ t : DataType, t.Over S → t.Describes (some current.value) →
    (e.narrow s result.holds t).Describes (some current.value)

theorem Expr.Promises.logical {s : TypeScope} {current : Node} {e : Expr} {b : Bool}
    (hcomparable : ¬ e.IsComparable) (hlocation : e.relativeLocation? = none)
    (hnarrow : ∀ t : DataType, t.Over S → t.Describes (some current.value) →
      (e.narrow s b t).Describes (some current.value)) :
    e.Promises S s current (.logical b) where
  numbers := trivial
  described h := absurd h hcomparable
  located l hl := by
    rw [hlocation] at hl
    cases hl
  narrow := hnarrow

/-- A path starts at the document or at the current node, and so does its type. -/
theorem Path.seed_isOf (p : Path) {scope : Scope} {s : TypeScope} (hs : scope.Fits S elements s)
    {current : Node} (hcurrent : current.IsOf S s.current) :
    (p.seed scope (some current)).IsOf S (p.seedType s) := by
  unfold seed seedType
  dsimp only
  split
  · exact hcurrent
  · exact hs.document

theorem Path.follow_relative {p : Path} {l : Location} (h : p.relativeLocation? = some l)
    (scope : Scope) (current : Node) :
    (p.follow scope (p.seed scope (some current))).result.map (·.value) =
      (current.value.at? l).toList := by
  unfold relativeLocation? at h
  split at h
  · rename_i hrelative
    rw [p.follow_location scope _ h, seed, if_pos hrelative]
  · cases h

theorem Result.IsOf.single {t : DataType} {r : Result} {v : Json} (h : r.IsOf t)
    (hv : r.single = .value v) : t.Describes (some v) := by
  cases r with
  | value w =>
    cases hv
    exact h
  | nodes ns =>
    match ns with
    | [n] =>
      cases hv
      exact h n List.mem_cons_self
  | nothing | logical => cases hv

/-- The nodes at a location are tested and compared as the value that is there. -/
theorem Result.nodes_eq {nodes : List Node} {v : Option Json}
    (h : nodes.map (·.value) = v.toList) :
    (Result.nodes nodes).single = .ofValue? v ∧ (Result.nodes nodes).holds = v.isSome := by
  cases v with
  | none =>
    rw [List.map_eq_nil_iff.mp h]
    exact ⟨rfl, rfl⟩
  | some w =>
    obtain ⟨n, rfl, rfl⟩ := List.map_eq_singleton_iff.mp h
    exact ⟨rfl, rfl⟩

theorem Expr.Promises.path {s : TypeScope} {current : Node} {id : Nat} {p : Path}
    {nodes : List Node} (hcurrent : current.value.Over S)
    (hnodes : ∀ n ∈ nodes, n.IsOf S (p.type s))
    (hlocation : ∀ l, p.relativeLocation? = some l →
      nodes.map (·.value) = (current.value.at? l).toList) :
    (Expr.path id p).Promises S s current (.nodes nodes) where
  numbers n hn := (hnodes n hn).1
  described _ v hv := by
    have hresult : (Result.nodes nodes).IsOf (p.type s) := fun n hn => (hnodes n hn).2
    exact hresult.single hv
  located l hl := (Result.nodes_eq (hlocation l hl)).1
  narrow t ht hdescribes := by
    rw [Expr.narrow]
    cases hl : p.relativeLocation? with
    | none => exact hdescribes
    | some l =>
      rw [(Result.nodes_eq (hlocation l hl)).2]
      exact describes_narrowExistence hcurrent ht hdescribes

theorem Result.single_ofValue? (v : Option Json) :
    (Result.ofValue? v).single = .ofValue? v := by
  cases v <;> rfl

theorem Result.compare_of_single {a b c : Result} {op : Comparison} (h : a.single = c.single) :
    a.compare op b = c.compare op b := by
  unfold compare
  rw [h]

/-- The outcome of a comparison is told from the side at which the candidate is narrowed. -/
theorem Expr.Promises.comparison {s : TypeScope} {scope : Scope} {current : Node} {id : Nat}
    {left right : Expr} {operator : Token} {op : Comparison} (hcurrent : current.value.Over S)
    (hcomparableLeft : left.IsComparable) (hcomparableRight : right.IsComparable)
    (hleftType : (left.type s).Over S) (hrightType : (right.type s).Over S)
    (hknownLeft : types left.id = some (left.type s))
    (hknownRight : types right.id = some (right.type s))
    (hleft : left.Promises S s current (left.evaluate scope current).result)
    (hright : right.Promises S s current (right.evaluate scope current).result)
    (haccounts : left.Accounts types scope current op right) :
    (Expr.comparison id left operator op right).Promises S s current
      (.logical ((left.evaluate scope current).result.compare op
        (right.evaluate scope current).result)) := by
  refine .logical nofun rfl ?_
  intro t ht hdescribes
  unfold Expr.Accounts at haccounts
  rw [Expr.narrow]
  cases hl : left.relativeLocation? with
  | some l =>
    rw [hl] at haccounts
    rw [Result.compare_of_single ((hleft.located l hl).trans (Result.single_ofValue? _).symm)]
    refine describes_narrowComparison hcurrent ht hrightType ?_ hdescribes op
      (haccounts _ hknownRight)
    intro w hw
    exact ⟨hright.numbers.single w hw, hright.described hcomparableRight w hw⟩
  | none =>
    cases hr : right.relativeLocation? with
    | none => exact hdescribes
    | some l =>
      rw [hl, hr] at haccounts
      rw [← Result.compare_mirror hleft.numbers.single hright.numbers.single,
        Result.compare_of_single ((hright.located l hr).trans (Result.single_ofValue? _).symm)]
      refine describes_narrowComparison hcurrent ht hleftType ?_ hdescribes op.mirror
        (haccounts _ hknownLeft)
      intro w hw
      exact ⟨hleft.numbers.single w hw, hleft.described hcomparableLeft w hw⟩

namespace Traced

variable {scope : Scope}

/-- An expression is reported with its result. -/
theorem Sound.expression {e : Expr} {current : Node} {Q R : Result → Prop} {t : Traced Result}
    (he : Element.expression e ∈ elements) (h : t.Sound S elements types scope Q)
    (hR : ∀ result, Q result → e.Relies S types scope current result → R result) :
    (Traced.note (.expression e.id current) t).Sound S elements types scope R := by
  refine Holds.note h ?_
  intro result hresult hrelies
  exact ⟨trivial, hR result hresult (hrelies e he rfl)⟩

/-- The event that tells of an output is the only one that the element adds. -/
theorem Sound.output {t : DataType} {describe : List Node → Event} {nodes : Traced (List Node)}
    (h : nodes.Sound S elements types scope fun nodes => ∀ n ∈ nodes, n.IsOf S t)
    (hdescribe : ∀ nodes, (∀ n ∈ nodes, t.Describes (some n.value)) →
      (describe nodes).IsTyped types) :
    (Traced.note describe nodes).Sound S elements types scope fun nodes =>
      ∀ n ∈ nodes, n.IsOf S t := by
  refine Holds.note h ?_
  intro nodes hnodes _
  exact ⟨hdescribe nodes fun n hn => (hnodes n hn).2, hnodes⟩

end Traced

/-- If a type describes the candidate, then so do the types that several tests narrow it to, or one
of these unless `all` is set. -/
def Operands.Keep (S : NumberSet) (s : TypeScope) (current : Node) (all assume : Bool)
    (os : Operands) : Prop :=
  ∀ t : DataType, t.Over S → t.Describes (.some current.value) →
    if all then ∀ u ∈ os.narrowEach s assume t, u.Describes (.some current.value)
    else ∃ u ∈ os.narrowEach s assume t, u.Describes (.some current.value)

section Connectives

variable {scope : Scope} {s : TypeScope} {current : Node} {operand : Expr} {separator : Token}
  {rest : Operands} {result : Result} {all b : Bool}

theorem Operands.Keep.last (h : operand.Promises S s current result) :
    (Operands.last operand).Keep S s current all result.holds := by
  intro t ht hdescribes
  have hkept := h.narrow t ht hdescribes
  cases all with
  | true => exact List.forall_mem_singleton.mpr hkept
  | false => exact ⟨_, List.mem_cons_self, hkept⟩

/-- Where one test is enough, it may be the first. -/
theorem Operands.Keep.first (h : operand.Promises S s current result) (hholds : result.holds = b) :
    (Operands.more operand separator rest).Keep S s current false b := by
  intro t ht hdescribes
  have hkept := h.narrow t ht hdescribes
  rw [hholds] at hkept
  exact ⟨_, List.mem_cons_self, hkept⟩

theorem Operands.Keep.more (h : operand.Promises S s current result)
    (hholds : all = true → result.holds = b) (hrest : rest.Keep S s current all b) :
    (Operands.more operand separator rest).Keep S s current all b := by
  intro t ht hdescribes
  have hkeptRest := hrest t ht hdescribes
  cases all with
  | true =>
    have hkept := h.narrow t ht hdescribes
    rw [hholds rfl] at hkept
    exact List.forall_mem_cons.mpr ⟨hkept, hkeptRest⟩
  | false =>
    obtain ⟨u, hu, hdescribes⟩ := hkeptRest
    exact ⟨u, List.mem_cons_of_mem _ hu, hdescribes⟩

theorem Operands.some_more_typed
    (hoperand : (operand.evaluate scope current).Sound S elements types scope fun result =>
      operand.Promises S s current result)
    (hrest : (rest.some scope current).Sound S elements types scope fun b =>
      rest.Keep S s current (!b) b) :
    ((Operands.more operand separator rest).some scope current).Sound S elements types scope
      fun b => (Operands.more operand separator rest).Keep S s current (!b) b := by
  rw [Operands.some]
  refine hoperand.bind ?_
  intro result hresult
  split
  · rename_i hholds
    exact .pure (.first hresult hholds)
  · rename_i hholds
    refine hrest.mono ?_
    intro b hb
    refine .more hresult ?_ hb
    intro hall
    rw [eq_false_of_ne_true hholds, (Bool.not_eq_true' b).mp hall]

theorem Operands.all_more_typed
    (hoperand : (operand.evaluate scope current).Sound S elements types scope fun result =>
      operand.Promises S s current result)
    (hrest : (rest.all scope current).Sound S elements types scope fun b =>
      rest.Keep S s current b b) :
    ((Operands.more operand separator rest).all scope current).Sound S elements types scope
      fun b => (Operands.more operand separator rest).Keep S s current b b := by
  rw [Operands.all]
  refine hoperand.bind ?_
  intro result hresult
  split
  · rename_i hholds
    refine hrest.mono ?_
    intro b hb
    refine .more hresult ?_ hb
    intro hall
    rw [hholds, hall]
  · rename_i hholds
    exact .pure (.first hresult (eq_false_of_ne_true hholds))

/-- A disjunction evaluates its operands in turn, the first of them as the others. -/
theorem Expr.evaluate_or (id : Nat) :
    (Expr.or id operand separator rest).evaluate scope current =
      .note (.expression id current) do
        return .logical (← (Operands.more operand separator rest).some scope current) := by
  rw [Expr.evaluate, Operands.some]
  congr 1
  simp only [bind, pure]
  split
  · simp only [List.append_nil]
  · simp only [List.append_assoc]

theorem Expr.evaluate_and (id : Nat) :
    (Expr.and id operand separator rest).evaluate scope current =
      .note (.expression id current) do
        return .logical (← (Operands.more operand separator rest).all scope current) := by
  rw [Expr.evaluate, Operands.all]
  congr 1
  simp only [bind, pure]
  split
  · simp only [List.append_assoc]
  · simp only [List.append_nil]

theorem Expr.Promises.or {id : Nat} (hcurrent : current.value.Over S)
    (hoperand : ∀ {t : DataType}, t.Over S → (operand.narrow s b t).Over S)
    (hrest : ∀ {t : DataType}, t.Over S → ∀ u ∈ rest.narrowEach s b t, u.Over S)
    (h : (Operands.more operand separator rest).Keep S s current (!b) b) :
    (Expr.or id operand separator rest).Promises S s current (.logical b) := by
  refine .logical nofun rfl ?_
  intro t ht hdescribes
  exact describes_narrowTogether hcurrent (hoperand ht) (hrest ht) (h t ht hdescribes)

theorem Expr.Promises.and {id : Nat} (hcurrent : current.value.Over S)
    (hoperand : ∀ {t : DataType}, t.Over S → (operand.narrow s b t).Over S)
    (hrest : ∀ {t : DataType}, t.Over S → ∀ u ∈ rest.narrowEach s b t, u.Over S)
    (h : (Operands.more operand separator rest).Keep S s current b b) :
    (Expr.and id operand separator rest).Promises S s current (.logical b) := by
  refine .logical nofun rfl ?_
  intro t ht hdescribes
  exact describes_narrowTogether hcurrent (hoperand ht) (hrest ht) (h t ht hdescribes)

end Connectives

section Evaluation

variable {scope : Scope}

mutual

theorem Path.follow_typed {s : TypeScope} (hs : scope.Fits S elements s) {seed : Node} :
    (p : Path) → p.WellFormed → p.check scope.environment = [] →
    Typed.AllKnown elements types (p.typed s) → seed.IsOf S (p.seedType s) →
    (p.follow scope seed).Sound S elements types scope fun nodes =>
      ∀ n ∈ nodes, n.IsOf S (p.type s)
  | .root _ _, _, _, _, hseed => .pure (List.forall_mem_singleton.mpr hseed)
  | .step before segment, h, hcheck, hknown, hseed => by
    obtain ⟨hbefore, hsegment⟩ := h
    obtain ⟨hcheckBefore, hcheckSegment⟩ := List.append_eq_nil_iff.mp hcheck
    obtain ⟨hknownBefore, hknownSegment⟩ := List.forall_mem_append.mp hknown
    have hover := before.over_type hs.types hknownBefore
    rw [Path.follow]
    refine (before.follow_typed hs hbefore hcheckBefore hknownBefore hseed).bind ?_
    intro nodes hnodes
    refine .collect ?_
    intro n hn
    exact segment.select_typed hs (hnodes n hn) hover hsegment hcheckSegment hknownSegment

theorem Segment.select_typed {s : TypeScope} (hs : scope.Fits S elements s) {input : Node}
    {before : DataType} (hinput : input.IsOf S before) (hover : before.Over S) :
    (segment : Segment) → segment.WellFormed → segment.check scope.environment = [] →
    Typed.AllKnown elements types (segment.typed s (segment.incoming before)) →
    (segment.select scope input).Sound S elements types scope fun nodes =>
      ∀ n ∈ nodes, n.IsOf S (segment.type s (segment.incoming before))
  | .shorthand id dots selector, h, hcheck, hknown => by
    simp only [Typed.AllKnown, Segment.typed, List.forall_mem_cons] at hknown
    obtain ⟨⟨-, hself⟩, -, hknownSelector⟩ := hknown
    have hincoming :=
      (Segment.shorthand id dots selector).has_incoming (DataType.over_algebraic S) hover
    have htype := selector.over_type hs.types hincoming hknownSelector
    rw [Segment.select]
    refine Traced.Sound.output ?_ fun nodes hnodes => ⟨_, hself, hnodes⟩
    refine reach_selects ?_
    intro n hreaches hchild
    have hn := hinput.incoming (.shorthand id dots selector) hover hreaches hchild
    refine (selector.select_typed hs hn hincoming h hcheck hknownSelector).mono ?_
    intro nodes hnodes m hm
    obtain ⟨hvalue, hdescribes⟩ := hnodes m hm
    exact ⟨hvalue, DataType.describes_unionOf (List.forall_mem_singleton.mpr htype) hvalue.held
      List.mem_cons_self hdescribes⟩
  | .bracketed id dots opening selectors closing, h, hcheck, hknown => by
    simp only [Typed.AllKnown, Segment.typed, List.forall_mem_cons, List.forall_mem_append]
      at hknown
    obtain ⟨⟨-, hself⟩, ⟨-, -, hknownSelectors⟩, -⟩ := hknown
    have hincoming := (Segment.bracketed id dots opening selectors closing).has_incoming
      (DataType.over_algebraic S) hover
    have htypes := selectors.over_types hs.types hincoming hknownSelectors
    rw [Segment.select]
    refine Traced.Sound.output ?_ fun nodes hnodes => ⟨_, hself, hnodes⟩
    refine reach_selects ?_
    intro n hreaches hchild
    have hn := hinput.incoming (.bracketed id dots opening selectors closing) hover
      hreaches hchild
    refine (selectors.select_typed hs hn hincoming h hcheck hknownSelectors).mono ?_
    intro nodes hnodes m hm
    obtain ⟨t, ht, hvalue, hdescribes⟩ := hnodes m hm
    exact ⟨hvalue, DataType.describes_unionOf htypes hvalue.held ht hdescribes⟩

theorem Selectors.select_typed {s : TypeScope} (hs : scope.Fits S elements s) {input : Node}
    {incoming whole : DataType} (hinput : input.IsOf S incoming) (hover : incoming.Over S) :
    (selectors : Selectors) → selectors.WellFormed → selectors.check scope.environment = [] →
    Typed.AllKnown elements types (selectors.typed s incoming whole) →
    (selectors.select scope input).Sound S elements types scope fun nodes =>
      ∀ n ∈ nodes, ∃ t ∈ selectors.types s incoming, n.IsOf S t
  | .last selector, h, hcheck, hknown => by
    refine (selector.select_typed hs hinput hover h hcheck hknown).mono ?_
    intro nodes hnodes n hn
    exact ⟨_, List.mem_cons_self, hnodes n hn⟩
  | .more selector _ rest, h, hcheck, hknown => by
    obtain ⟨hselector, hrest⟩ := h
    obtain ⟨hcheckSelector, hcheckRest⟩ := List.append_eq_nil_iff.mp hcheck
    simp only [Typed.AllKnown, Selectors.typed, List.forall_mem_cons, List.forall_mem_append]
      at hknown
    obtain ⟨hknownSelector, -, hknownRest⟩ := hknown
    rw [Selectors.select]
    refine .append ?_ ?_
    · refine (selector.select_typed hs hinput hover hselector hcheckSelector hknownSelector).mono ?_
      intro nodes hnodes n hn
      exact ⟨_, List.mem_cons_self, hnodes n hn⟩
    · refine (rest.select_typed hs hinput hover hrest hcheckRest hknownRest).mono ?_
      intro nodes hnodes n hn
      obtain ⟨t, ht, hnode⟩ := hnodes n hn
      exact ⟨t, List.mem_cons_of_mem _ ht, hnode⟩

theorem Selector.select_typed {s : TypeScope} (hs : scope.Fits S elements s) {input : Node}
    {incoming : DataType} (hinput : input.IsOf S incoming) (hover : incoming.Over S) :
    (selector : Selector) → selector.WellFormed → selector.check scope.environment = [] →
    Typed.AllKnown elements types (selector.typed s incoming) →
    (selector.select scope input).Sound S elements types scope fun nodes =>
      ∀ n ∈ nodes, n.IsOf S (selector.type s incoming)
  | .name id token value, _, _, hknown => by
    obtain ⟨-, hself⟩ := (List.forall_mem_cons.mp hknown).1
    rw [Selector.select]
    refine Traced.Sound.output (.pure ?_) fun nodes hnodes => ⟨_, hself, hnodes⟩
    intro n hn
    exact hinput.child? hover (Option.mem_toList.mp hn)
  | .index id token value, _, _, hknown => by
    obtain ⟨-, hself⟩ := (List.forall_mem_cons.mp hknown).1
    rw [Selector.select]
    refine Traced.Sound.output (.pure ?_) fun nodes hnodes => ⟨_, hself, hnodes⟩
    intro n hn
    obtain ⟨items, hitems, hn⟩ := Option.bind_eq_some_iff.mp (Option.mem_toList.mp hn)
    obtain ⟨i, hi, hchild⟩ := Option.bind_eq_some_iff.mp hn
    rw [Selector.type]
    split
    · rename_i hvalue
      obtain rfl : value.toNat = i := by simpa [position?, hvalue] using hi
      exact hinput.child? hover hchild
    · exact hinput.item hover (Json.eq_of_asArray? hitems) hchild
  | .slice id start colon stop step, _, _, hknown => by
    obtain ⟨-, hself⟩ := (List.forall_mem_cons.mp hknown).1
    rw [Selector.select]
    refine Traced.Sound.output (.pure ?_) fun nodes hnodes => ⟨_, hself, hnodes⟩
    intro n hn
    unfold Node.slice at hn
    split at hn
    · rename_i hitems
      obtain ⟨i, -, hchild⟩ := List.mem_filterMap.mp hn
      exact hinput.item hover hitems hchild
    · cases hn
  | .wildcard id token, _, _, hknown => by
    obtain ⟨-, hself⟩ := (List.forall_mem_cons.mp hknown).1
    rw [Selector.select]
    refine Traced.Sound.output (.pure ?_) fun nodes hnodes => ⟨_, hself, hnodes⟩
    intro n hn
    exact hinput.children hover hn
  | .filter id question test, h, hcheck, hknown => by
    simp only [Typed.AllKnown, Selector.typed, List.forall_mem_cons] at hknown
    obtain ⟨⟨-, hself⟩, -, hknownTest⟩ := hknown
    obtain ⟨hcheckTest, -⟩ := List.append_eq_nil_iff.mp hcheck
    rw [Selector.select]
    refine Traced.Sound.output ?_ fun nodes hnodes => ⟨_, hself, hnodes⟩
    refine .filter ?_
    intro n hn
    have hcurrent := hinput.children hover hn
    refine (test.evaluate_typed (hs.filter hover) hcurrent h hcheckTest hknownTest).bind ?_
    intro result hresult
    refine .pure ?_
    intro hholds
    refine ⟨hcurrent.1, ?_⟩
    have hnarrow := hresult.narrow _ ((DataType.over_closed S).children hover) hcurrent.2
    rw [hholds] at hnarrow
    exact hnarrow
  | .missing _ _, h, _, _ => h.elim

/-- What an expression comes to is described by its type, and the candidates for which it comes
to that are described by the narrowed type. -/
theorem Expr.evaluate_typed {s : TypeScope} (hs : scope.Fits S elements s) {current : Node}
    (hcurrent : current.IsOf S s.current) : (e : Expr) → e.WellFormed →
    e.check scope.environment = [] → Typed.AllKnown elements types (e.typed s) →
    (e.evaluate scope current).Sound S elements types scope fun result =>
      e.Promises S s current result
  | .or id first operator rest, h, hcheck, hknown => by
    obtain ⟨hfirst, hrest⟩ := h
    obtain ⟨hcheckBoth, hcheckRest⟩ := List.append_eq_nil_iff.mp hcheck
    obtain ⟨hcheckFirst, -⟩ := List.append_eq_nil_iff.mp hcheckBoth
    have hmem := (Expr.known hknown).1
    simp only [Typed.AllKnown, Expr.typed, List.forall_mem_cons, List.forall_mem_append] at hknown
    obtain ⟨-, hknownFirst, -, hknownRest⟩ := hknown
    rw [Expr.evaluate_or]
    refine Traced.Sound.expression hmem ?_ fun _ hresult _ => hresult
    refine (Operands.some_more_typed
      (first.evaluate_typed hs hcurrent hfirst hcheckFirst hknownFirst)
      (rest.some_typed hs hcurrent hrest hcheckRest hknownRest)).bind ?_
    intro b hb
    exact .pure (.or hcurrent.1 (first.over_narrow hs.types b · hknownFirst)
      (rest.over_narrowEach hs.types b · hknownRest) hb)
  | .and id first operator rest, h, hcheck, hknown => by
    obtain ⟨hfirst, hrest⟩ := h
    obtain ⟨hcheckBoth, hcheckRest⟩ := List.append_eq_nil_iff.mp hcheck
    obtain ⟨hcheckFirst, -⟩ := List.append_eq_nil_iff.mp hcheckBoth
    have hmem := (Expr.known hknown).1
    simp only [Typed.AllKnown, Expr.typed, List.forall_mem_cons, List.forall_mem_append] at hknown
    obtain ⟨-, hknownFirst, -, hknownRest⟩ := hknown
    rw [Expr.evaluate_and]
    refine Traced.Sound.expression hmem ?_ fun _ hresult _ => hresult
    refine (Operands.all_more_typed
      (first.evaluate_typed hs hcurrent hfirst hcheckFirst hknownFirst)
      (rest.all_typed hs hcurrent hrest hcheckRest hknownRest)).bind ?_
    intro b hb
    exact .pure (.and hcurrent.1 (first.over_narrow hs.types b · hknownFirst)
      (rest.over_narrowEach hs.types b · hknownRest) hb)
  | .not id bang inner, h, hcheck, hknown => by
    obtain ⟨hcheckInner, -⟩ := List.append_eq_nil_iff.mp hcheck
    have hmem := (Expr.known hknown).1
    simp only [Typed.AllKnown, Expr.typed, List.forall_mem_cons] at hknown
    obtain ⟨-, -, hknownInner⟩ := hknown
    rw [Expr.evaluate]
    refine Traced.Sound.expression hmem ?_ fun _ hresult _ => hresult
    refine (inner.evaluate_typed hs hcurrent h hcheckInner hknownInner).bind ?_
    intro a ha
    refine .pure (.logical nofun rfl ?_)
    intro t ht hdescribes
    have hkept := ha.narrow t ht hdescribes
    rw [Expr.narrow, Bool.not_not]
    exact hkept
  | .comparison id left operator op right, h, hcheck, hknown => by
    obtain ⟨hcomparableLeft, hcomparableRight, hleft, hright⟩ := h
    obtain ⟨hcheckLeft, hcheckRight⟩ := List.append_eq_nil_iff.mp hcheck
    obtain ⟨-, hcheckLeft⟩ := List.append_eq_nil_iff.mp hcheckLeft
    obtain ⟨-, hcheckRight⟩ := List.append_eq_nil_iff.mp hcheckRight
    have hmem := (Expr.known hknown).1
    simp only [Typed.AllKnown, Expr.typed, List.forall_mem_cons, List.forall_mem_append] at hknown
    obtain ⟨-, hknownLeft, -, hknownRight⟩ := hknown
    rw [Expr.evaluate]
    refine Traced.Sound.expression hmem
      (.both (fun a b => Result.logical (a.compare op b))
        (left.evaluate_typed hs hcurrent hleft hcheckLeft hknownLeft)
        (right.evaluate_typed hs hcurrent hright hcheckRight hknownRight)) ?_
    rintro _ ⟨rfl, hpromisesLeft, hpromisesRight⟩ haccounts
    have hleftType := left.over_type hs.types hknownLeft
    have hrightType := right.over_type hs.types hknownRight
    exact .comparison hcurrent.1 hcomparableLeft hcomparableRight hleftType hrightType
      (Expr.known hknownLeft).2 (Expr.known hknownRight).2 hpromisesLeft hpromisesRight haccounts
  | .path id p, h, hcheck, hknown => by
    have hmem := (Expr.known hknown).1
    simp only [Typed.AllKnown, Expr.typed, List.forall_mem_cons] at hknown
    obtain ⟨-, ⟨-, hself⟩, hknownPath⟩ := hknown
    have hseed := p.seed_isOf hs hcurrent
    have hlocation (l : Location) (hl : p.relativeLocation? = some l) :=
      p.follow_relative hl scope current
    rw [Expr.evaluate]
    refine Traced.Sound.expression hmem ?_ fun _ hresult _ => hresult
    have houtput : (Traced.note (.query p.id)
        (p.follow scope (p.seed scope (some current)))).Sound S elements types scope
          fun nodes => ∀ n ∈ nodes, n.IsOf S (p.type s) :=
      Traced.Sound.output (p.follow_typed hs h hcheck hknownPath hseed)
        fun nodes hnodes => ⟨_, hself, hnodes⟩
    refine Traced.Holds.bind (R := fun nodes => (∀ n ∈ nodes, n.IsOf S (p.type s)) ∧
      ∀ l, p.relativeLocation? = some l →
        nodes.map (·.value) = (current.value.at? l).toList) ?_ ?_
    · exact houtput.with_result hlocation
    · intro nodes hnodes
      exact .pure (.path hcurrent.1 hnodes.1 hnodes.2)
  | .call id name opening arguments closing, h, hcheck, hknown => by
    obtain ⟨hname, harguments⟩ := h
    obtain ⟨hcheckArguments, hcheckCall⟩ := List.append_eq_nil_iff.mp hcheck
    obtain ⟨f, hf, hcount, hsuits⟩ := checkCall_eq_nil hcheckCall hname
    have hmem := (Expr.known hknown).1
    simp only [Typed.AllKnown, Expr.typed, List.forall_mem_cons, List.forall_mem_append] at hknown
    obtain ⟨-, -, -, hknownArguments, -⟩ := hknown
    have hfits := (arguments.evaluate_fits hs.faithful.honest current
      (warn name.text (arguments.toList.map Expr.range) (name.range.cover closing.range))
      f.parameters harguments hcheckArguments hcount hsuits).result
    have hevaluate := arguments.evaluate_typed hs hcurrent
      (warn name.text (arguments.toList.map Expr.range) (name.range.cover closing.range))
      (fun _ => .event trivial) f.parameters harguments hcheckArguments hknownArguments
    rw [Expr.evaluate_call hf hcount]
    refine Traced.Sound.expression (Q := fun result => result.IsOf f.type) hmem ?_ ?_
    · refine (hevaluate.of_result (R := fun results => ∃ given, results = some given ∧
        Result.haveKinds f.parameters given = true) hfits).bind ?_
      rintro _ ⟨results, rfl, hresults⟩
      exact f.call_holds (fun _ _ _ => trivial) ((hs.faithful _ f hf).type results hresults)
    · intro result hresult hover
      have htype : (Expr.call id name opening arguments closing).type s = f.type := by
        rw [Expr.type, hs.environment, hf]
        rfl
      refine ⟨hover, ?_, nofun, fun _ _ hdescribes => hdescribes⟩
      intro _ v hv
      rw [htype]
      exact hresult.single hv
  | .literal id token value, h, _, hknown => by
    obtain ⟨hmem, -⟩ := Expr.known hknown
    rw [Expr.evaluate]
    refine Traced.Sound.expression hmem (.pure ?_) fun _ hresult _ => hresult
    constructor
    case numbers => exact hs.types.literals _ _ value hmem
    case described =>
      intro _ v hv
      cases hv
      exact DataType.describes_ofJson h
    case located => nofun
    case narrow => exact fun _ _ hdescribes => hdescribes
  | .parens id opening inner closing, h, hcheck, hknown => by
    obtain ⟨hcheckInner, -⟩ := List.append_eq_nil_iff.mp hcheck
    have hmem := (Expr.known hknown).1
    simp only [Typed.AllKnown, Expr.typed, List.forall_mem_cons, List.forall_mem_append] at hknown
    obtain ⟨-, -, hknownInner, -⟩ := hknown
    rw [Expr.evaluate]
    refine Traced.Sound.expression hmem
      (inner.evaluate_typed hs hcurrent h hcheckInner hknownInner) ?_
    intro a ha _
    exact ⟨ha.numbers, nofun, nofun, ha.narrow⟩
  | .missing _ _, h, _, _ => h.elim

/-- If one operand holds, it keeps the candidate, and otherwise all do. -/
theorem Operands.some_typed {s : TypeScope} (hs : scope.Fits S elements s) {current : Node}
    (hcurrent : current.IsOf S s.current) {whole : DataType} : (os : Operands) → os.WellFormed →
    os.checkTests scope.environment = [] → Typed.AllKnown elements types (os.typed s whole) →
    (os.some scope current).Sound S elements types scope fun b => os.Keep S s current (!b) b
  | .last operand, h, hcheck, hknown => by
    obtain ⟨hcheckOperand, -⟩ := List.append_eq_nil_iff.mp hcheck
    rw [Operands.some]
    refine (operand.evaluate_typed hs hcurrent h hcheckOperand hknown).bind ?_
    intro result hresult
    exact .pure (.last hresult)
  | .more operand _ rest, h, hcheck, hknown => by
    obtain ⟨hoperand, hrest⟩ := h
    obtain ⟨hcheckBoth, hcheckRest⟩ := List.append_eq_nil_iff.mp hcheck
    obtain ⟨hcheckOperand, -⟩ := List.append_eq_nil_iff.mp hcheckBoth
    simp only [Typed.AllKnown, Operands.typed, List.forall_mem_cons, List.forall_mem_append]
      at hknown
    obtain ⟨hknownOperand, -, hknownRest⟩ := hknown
    exact Operands.some_more_typed
      (operand.evaluate_typed hs hcurrent hoperand hcheckOperand hknownOperand)
      (rest.some_typed hs hcurrent hrest hcheckRest hknownRest)

/-- If all operands hold, all keep the candidate, and otherwise one does. -/
theorem Operands.all_typed {s : TypeScope} (hs : scope.Fits S elements s) {current : Node}
    (hcurrent : current.IsOf S s.current) {whole : DataType} : (os : Operands) → os.WellFormed →
    os.checkTests scope.environment = [] → Typed.AllKnown elements types (os.typed s whole) →
    (os.all scope current).Sound S elements types scope fun b => os.Keep S s current b b
  | .last operand, h, hcheck, hknown => by
    obtain ⟨hcheckOperand, -⟩ := List.append_eq_nil_iff.mp hcheck
    rw [Operands.all]
    refine (operand.evaluate_typed hs hcurrent h hcheckOperand hknown).bind ?_
    intro result hresult
    exact .pure (.last hresult)
  | .more operand _ rest, h, hcheck, hknown => by
    obtain ⟨hoperand, hrest⟩ := h
    obtain ⟨hcheckBoth, hcheckRest⟩ := List.append_eq_nil_iff.mp hcheck
    obtain ⟨hcheckOperand, -⟩ := List.append_eq_nil_iff.mp hcheckBoth
    simp only [Typed.AllKnown, Operands.typed, List.forall_mem_cons, List.forall_mem_append]
      at hknown
    obtain ⟨hknownOperand, -, hknownRest⟩ := hknown
    exact Operands.all_more_typed
      (operand.evaluate_typed hs hcurrent hoperand hcheckOperand hknownOperand)
      (rest.all_typed hs hcurrent hrest hcheckRest hknownRest)

theorem Operands.evaluate_typed {s : TypeScope} (hs : scope.Fits S elements s) {current : Node}
    (hcurrent : current.IsOf S s.current) {whole : DataType} (trouble : CallTrouble → Traced Unit)
    (htrouble : ∀ x, (trouble x).Sound S elements types scope fun _ => True) (i : Nat) :
    (os : Operands) → (kinds : List Kind) → os.WellFormed → os.check scope.environment = [] →
    Typed.AllKnown elements types (os.typed s whole) →
    (os.evaluate scope current trouble i kinds).Sound S elements types scope fun _ => True
  | .last operand, [], _, _, _ => by
    rw [Operands.evaluate]
    exact .pure trivial
  | .last operand, kind :: kinds, h, hcheck, hknown => by
    rw [Operands.evaluate]
    refine (operand.evaluate_typed hs hcurrent h hcheck hknown).bind ?_
    intro a _
    split
    · exact .pure trivial
    · refine (htrouble _).bind ?_
      intro _ _
      exact .pure trivial
  | .more operand _ rest, [], _, _, _ => by
    rw [Operands.evaluate]
    exact .pure trivial
  | .more operand _ rest, kind :: kinds, h, hcheck, hknown => by
    obtain ⟨hoperand, hrest⟩ := h
    obtain ⟨hcheckOperand, hcheckRest⟩ := List.append_eq_nil_iff.mp hcheck
    simp only [Typed.AllKnown, Operands.typed, List.forall_mem_cons, List.forall_mem_append]
      at hknown
    obtain ⟨hknownOperand, -, hknownRest⟩ := hknown
    rw [Operands.evaluate]
    refine (operand.evaluate_typed hs hcurrent hoperand hcheckOperand hknownOperand).bind ?_
    intro a _
    split
    · refine (rest.evaluate_typed hs hcurrent trouble htrouble (i + 1) kinds hrest hcheckRest
        hknownRest).bind ?_
      intro _ _
      exact .pure trivial
    · refine (htrouble _).bind ?_
      intro _ _
      exact .pure trivial

theorem Arguments.evaluate_typed {s : TypeScope} (hs : scope.Fits S elements s) {current : Node}
    (hcurrent : current.IsOf S s.current) {whole : DataType} (trouble : CallTrouble → Traced Unit)
    (htrouble : ∀ x, (trouble x).Sound S elements types scope fun _ => True) :
    (as : Arguments) → (kinds : List Kind) → as.WellFormed → as.check scope.environment = [] →
    Typed.AllKnown elements types (as.typed s whole) →
    (as.evaluate scope current trouble kinds).Sound S elements types scope fun _ => True
  | .none, _, _, _, _ => .pure trivial
  | .some operands, kinds, h, hcheck, hknown =>
    operands.evaluate_typed hs hcurrent trouble htrouble 0 kinds h hcheck hknown

end

end Evaluation

end JsonPath
