import JsonPath.Proofs.Environment.Honest
import JsonPath.Proofs.Evaluation.Plain
import JsonPath.Proofs.Evaluation.Trace
import JsonPath.Proofs.Json.Locations

/-!
Nodes where they say. A node is one step below another one where it is selected by a name, an index,
a slice, a wildcard or a filter, and any number of steps where a segment descends. So the location of
every node that is selected, or reported on the way, leads from the root of the document to the value
of the node, from whichever node the queries inside filters start.
-/

namespace JsonPath

namespace Node

variable {document : Json} {n m : Node}

/-- The location of the node leads to its value. -/
def IsAt (document : Json) (n : Node) : Prop := document.at? n.location = some n.value

theorem root_isAt (document : Json) : (root document).IsAt document := rfl

theorem IsAt.child? {step : Step} (hn : n.IsAt document) (h : n.child? step = some m) :
    m.IsAt document := by
  obtain ⟨v, hv, rfl⟩ := Option.map_eq_some_iff.mp h
  rw [IsAt] at hn ⊢
  rw [Json.at?_append, hn, Option.bind_some, Json.at?, hv]
  rfl

theorem IsAt.item? {index : Int} (hn : n.IsAt document) (h : n.item? index = some m) :
    m.IsAt document := by
  obtain ⟨items, -, h⟩ := Option.bind_eq_some_iff.mp h
  obtain ⟨i, -, hchild⟩ := Option.bind_eq_some_iff.mp h
  exact hn.child? hchild

theorem IsAt.slice {start stop step : Option Int} (hn : n.IsAt document)
    (h : m ∈ n.slice start stop step) : m.IsAt document := by
  unfold Node.slice at h
  split at h
  · obtain ⟨i, -, hchild⟩ := List.mem_filterMap.mp h
    exact hn.child? hchild
  · cases h

/-- The children of a node are the nodes one step below. -/
theorem mem_children_iff (hn : n.value.WellFormed) :
    m ∈ n.children ↔ ∃ step, n.child? step = some m := by
  unfold children child?
  rw [List.mem_map]
  constructor
  · rintro ⟨below, hbelow, rfl⟩
    exact ⟨below.1, by rw [hn.mem_children_iff.mp hbelow]; rfl⟩
  · rintro ⟨step, h⟩
    obtain ⟨v, hv, rfl⟩ := Option.map_eq_some_iff.mp h
    exact ⟨(step, v), Json.mem_children_of_child? hv, rfl⟩

theorem IsAt.children (hdocument : document.WellFormed) (hn : n.IsAt document)
    (h : m ∈ n.children) : m.IsAt document := by
  obtain ⟨step, hstep⟩ := (mem_children_iff (hdocument.at? hn)).mp h
  exact hn.child? hstep

section Within

/-- What is at a location and below is the value there, and what is at each of its children and
below. -/
theorem within_eq (l : Location) (v : Json) :
    within l v = ⟨v, l⟩ :: v.children.flatMap fun below => within (l ++ [below.1]) below.2 := by
  cases v with
  | array items =>
    have hitems (i : Nat) (items : List Json) : withinItems l i items =
        (items.mapIdx fun k item => (Step.index (i + k), item)).flatMap
          fun below => within (l ++ [below.1]) below.2 := by
      induction items generalizing i with
      | nil => rfl
      | cons item rest ih =>
        rw [withinItems, ih, List.mapIdx_cons, List.flatMap_cons]
        simp only [Nat.add_zero, Nat.add_assoc, Nat.add_comm 1]
    rw [within, hitems]
    simp only [Nat.zero_add, Json.children]
  | object members =>
    have hmembers (members : List (String × Json)) : withinMembers l members =
        (members.map fun member => (Step.name member.1, member.2)).flatMap
          fun below => within (l ++ [below.1]) below.2 := by
      induction members with
      | nil => rfl
      | cons member rest ih =>
        rw [withinMembers, ih, List.map_cons, List.flatMap_cons]
    rw [within, hmembers, Json.children]
  | null | bool | number | string => rfl

/-- What is at a location and below is found by going on from there. -/
theorem mem_within_iff {l : Location} {v : Json} (hv : v.WellFormed) :
    n ∈ within l v ↔ ∃ below, n.location = l ++ below ∧ v.at? below = some n.value := by
  induction v using Json.children_induction generalizing l with
  | step v ih =>
    rw [within_eq, List.mem_cons, List.mem_flatMap]
    constructor
    · rintro (rfl | ⟨below, hbelow, hn⟩)
      · exact ⟨[], (List.append_nil l).symm, rfl⟩
      · have hchild := hv.mem_children_iff.mp hbelow
        obtain ⟨rest, hlocation, hrest⟩ := (ih below hbelow (hv.child? hchild)).mp hn
        refine ⟨below.1 :: rest, by rw [hlocation, List.append_assoc]; rfl, ?_⟩
        rw [Json.at?, hchild]
        exact hrest
    · rintro ⟨below, hlocation, hbelow⟩
      cases below with
      | nil =>
        obtain ⟨value, location⟩ := n
        cases hbelow
        exact .inl (congrArg (Node.mk _) (hlocation.trans (List.append_nil l)))
      | cons step rest =>
        obtain ⟨child, hchild, hrest⟩ := Option.bind_eq_some_iff.mp hbelow
        have hmem : (step, child) ∈ v.children := Json.mem_children_of_child? hchild
        refine .inr ⟨(step, child), hmem, (ih _ hmem (hv.child? hchild)).mpr ?_⟩
        exact ⟨rest, by rw [hlocation, List.append_assoc]; rfl, hrest⟩

end Within

/-- What a segment is applied to is where it says, as its input is. -/
theorem IsAt.visited {descendant : Bool} (hdocument : document.WellFormed) (hn : n.IsAt document)
    (h : m ∈ n.visited descendant) : m.IsAt document := by
  cases descendant with
  | false =>
    rw [List.mem_singleton.mp h]
    exact hn
  | true =>
    obtain ⟨below, hlocation, hbelow⟩ := (mem_within_iff (hdocument.at? hn)).mp h
    rw [IsAt] at hn ⊢
    rw [hlocation, Json.at?_append, hn]
    exact hbelow

end Node

namespace Result

/-- The nodes that a result consists of, if it does. -/
def found : Result → List Node
  | nodes ns => ns
  | _ => []

def IsAt (document : Json) (r : Result) : Prop := ∀ n ∈ r.found, n.IsAt document

variable {document : Json} {r result : Result} {kind : Kind}

theorem isAt_of_found_eq_nil (h : r.found = []) : r.IsAt document := by
  rw [IsAt, h]
  exact List.forall_mem_nil _

theorem found_single (ns : List Node) : (nodes ns).single.found = [] := by
  match ns with
  | [] => rfl
  | [_] => rfl
  | _ :: _ :: _ => rfl

theorem found_empty (kind : Kind) : (empty kind).found = [] := by
  cases kind <;> rfl

/-- A result that is taken for another kind consists of no further nodes. -/
theorem IsAt.coerce? (hr : r.IsAt document) (h : r.coerce? kind = some result) :
    result.IsAt document := by
  cases kind with
  | value =>
    cases r with
    | nodes ns =>
      cases h
      exact isAt_of_found_eq_nil (found_single ns)
    | value | nothing | logical =>
      cases h <;> exact isAt_of_found_eq_nil rfl
  | logical => cases r <;> cases h <;> exact isAt_of_found_eq_nil rfl
  | nodes =>
    cases r with
    | nodes =>
      cases h
      exact hr
    | value | nothing | logical => cases h

end Result

/-- Given nodes that are where they say, the function comes to such nodes only. -/
def Function.KeepsPlaces (document : Json) (f : Function) : Prop :=
  ∀ arguments, (∀ r ∈ arguments, r.IsAt document) → (f.run arguments).1.IsAt document

/-- No argument makes the function come to nodes. -/
theorem Function.keepsPlaces_of_found_eq_nil {f : Function} {document : Json}
    (h : ∀ arguments, (f.run arguments).1.found = []) : f.KeepsPlaces document :=
  fun arguments _ => Result.isAt_of_found_eq_nil (h arguments)

namespace Environment

variable {document : Json}

/-- All functions keep to nodes that are where they say. -/
def KeepsPlaces (document : Json) (env : Environment) : Prop :=
  ∀ name f, env.function? name = some f → f.KeepsPlaces document

/-- The standard functions never come to nodes. -/
theorem standard_keepsPlaces : standard.KeepsPlaces document := by
  refine forall_standard ?count ?length ?fits ?value
  case count =>
    refine Function.keepsPlaces_of_found_eq_nil fun arguments => ?_
    simp only [Function.count]
    split <;> rfl
  case length =>
    refine Function.keepsPlaces_of_found_eq_nil fun arguments => ?_
    simp only [Function.length]
    split <;> rfl
  case fits =>
    refine fun test => Function.keepsPlaces_of_found_eq_nil fun arguments => ?_
    simp only [Function.fits]
    split
    · split <;> rfl
    · rfl
  case value =>
    refine Function.keepsPlaces_of_found_eq_nil fun arguments => ?_
    simp only [Function.value]
    split
    · exact Result.found_single _
    · rfl

end Environment

namespace Event

/-- The nodes to which an element is applied and those that it selects. -/
def shown : Event → List Node
  | query _ output => output
  | segment _ input output | selector _ input output => input :: output
  | expression _ current _ => [current]
  | warning _ => []

/-- The nodes that an expression comes to. -/
def reached : Event → List Node
  | expression _ _ result => result.found
  | _ => []

/-- Every node that is shown is where it says, and so is every node that an expression comes to, if
the functions keep to that. -/
structure IsAt (scope : Scope) (e : Event) : Prop where
  shown : ∀ n ∈ e.shown, n.IsAt scope.document
  reached : scope.environment.KeepsPlaces scope.document → ∀ n ∈ e.reached, n.IsAt scope.document

end Event

variable {scope : Scope}

/-- The promise about an evaluation that all nodes are where they say. -/
abbrev Traced.Places {α : Type} (scope : Scope) (Q : α → Prop) (t : Traced α) : Prop :=
  t.Holds (fun _ => True) (Event.IsAt scope) Q

/-- What is promised of the results of expressions, if the functions keep to it. -/
abbrev Scope.Trusts (scope : Scope) (r : Result) : Prop :=
  scope.environment.KeepsPlaces scope.document → r.IsAt scope.document

namespace Traced.Places

variable {nodes : Traced (List Node)} {n input : Node}

/-- What an element selects is shown together with what it is applied to. -/
theorem output {describe : List Node → Event} {given : List Node}
    (hgiven : ∀ n ∈ given, n.IsAt scope.document)
    (hshown : ∀ ns, (describe ns).shown = given ++ ns) (hreached : ∀ ns, (describe ns).reached = [])
    (h : nodes.Places scope fun ns => ∀ n ∈ ns, n.IsAt scope.document) :
    (note describe nodes).Places scope fun ns => ∀ n ∈ ns, n.IsAt scope.document := by
  refine Holds.note h fun ns hns _ => ⟨⟨?_, fun _ => ?_⟩, hns⟩
  · rw [hshown]
    exact List.forall_mem_append.mpr ⟨hgiven, hns⟩
  · rw [hreached]
    exact List.forall_mem_nil _

theorem query {id : Nat} (h : nodes.Places scope fun ns => ∀ n ∈ ns, n.IsAt scope.document) :
    (note (.query id) nodes).Places scope fun ns => ∀ n ∈ ns, n.IsAt scope.document :=
  output (List.forall_mem_nil _) (fun _ => rfl) (fun _ => rfl) h

theorem segment {id : Nat} (hinput : input.IsAt scope.document)
    (h : nodes.Places scope fun ns => ∀ n ∈ ns, n.IsAt scope.document) :
    (note (.segment id input) nodes).Places scope fun ns => ∀ n ∈ ns, n.IsAt scope.document :=
  output (List.forall_mem_singleton.mpr hinput) (fun _ => rfl) (fun _ => rfl) h

theorem selector {id : Nat} (hinput : input.IsAt scope.document)
    (h : nodes.Places scope fun ns => ∀ n ∈ ns, n.IsAt scope.document) :
    (note (.selector id input) nodes).Places scope fun ns => ∀ n ∈ ns, n.IsAt scope.document :=
  output (List.forall_mem_singleton.mpr hinput) (fun _ => rfl) (fun _ => rfl) h

theorem expression {id : Nat} {current : Node} {t : Traced Result}
    (hcurrent : current.IsAt scope.document) (h : t.Places scope scope.Trusts) :
    (note (.expression id current) t).Places scope scope.Trusts :=
  Holds.note h fun _ hr _ => ⟨⟨List.forall_mem_singleton.mpr hcurrent, hr⟩, hr⟩

theorem pure_result {r : Result} (h : r.found = []) :
    (pure r : Traced Result).Places scope scope.Trusts :=
  .pure fun _ => Result.isAt_of_found_eq_nil h

/-- The warnings about calls show no nodes. -/
theorem warn (function : String) (arguments : List Range) (call : Range) (trouble : CallTrouble) :
    (JsonPath.warn function arguments call trouble).Places scope fun _ => True :=
  Holds.event ⟨List.forall_mem_nil _, fun _ => List.forall_mem_nil _⟩

end Traced.Places

section Evaluation

theorem Path.seed_isAt {current : Node} (hcurrent : current.IsAt scope.document) (p : Path) :
    (p.seed scope (some current)).IsAt scope.document := by
  dsimp only [Path.seed]
  split
  · exact hcurrent
  · exact Node.root_isAt _

mutual

theorem Path.follow_places (hdocument : scope.document.WellFormed) {seed : Node}
    (hseed : seed.IsAt scope.document) : (p : Path) →
    (p.follow scope seed).Places scope fun ns => ∀ n ∈ ns, n.IsAt scope.document
  | .root _ _ => by
    rw [Path.follow]
    exact .pure (List.forall_mem_singleton.mpr hseed)
  | .step before segment => by
    rw [Path.follow]
    refine (before.follow_places hdocument hseed).bind ?_
    intro nodes hnodes
    refine .collect ?_
    intro n hn
    exact segment.select_places hdocument (hnodes n hn)

theorem Segment.select_places (hdocument : scope.document.WellFormed) {input : Node}
    (hinput : input.IsAt scope.document) : (s : Segment) →
    (s.select scope input).Places scope fun ns => ∀ n ∈ ns, n.IsAt scope.document
  | .shorthand _ _ selector => by
    rw [Segment.select, reach_eq]
    apply Traced.Places.segment hinput
    refine .collect ?_
    intro n hn
    exact selector.select_places hdocument (hinput.visited hdocument hn)
  | .bracketed _ _ _ selectors _ => by
    rw [Segment.select, reach_eq]
    apply Traced.Places.segment hinput
    refine .collect ?_
    intro n hn
    exact selectors.select_places hdocument (hinput.visited hdocument hn)

theorem Selectors.select_places (hdocument : scope.document.WellFormed) {input : Node}
    (hinput : input.IsAt scope.document) : (ss : Selectors) →
    (ss.select scope input).Places scope fun ns => ∀ n ∈ ns, n.IsAt scope.document
  | .last selector => by
    rw [Selectors.select]
    exact selector.select_places hdocument hinput
  | .more selector _ rest => by
    rw [Selectors.select]
    exact .append (selector.select_places hdocument hinput) (rest.select_places hdocument hinput)

/-- Each kind of selector goes from a node that is where it says to such nodes. -/
theorem Selector.select_places (hdocument : scope.document.WellFormed) {input : Node}
    (hinput : input.IsAt scope.document) : (s : Selector) →
    (s.select scope input).Places scope fun ns => ∀ n ∈ ns, n.IsAt scope.document
  | .name _ _ _ => by
    rw [Selector.select]
    apply Traced.Places.selector hinput
    exact .pure fun n hn => hinput.child? (Option.mem_toList.mp hn)
  | .index _ _ _ => by
    rw [Selector.select]
    apply Traced.Places.selector hinput
    exact .pure fun n hn => hinput.item? (Option.mem_toList.mp hn)
  | .slice _ _ _ _ _ => by
    rw [Selector.select]
    apply Traced.Places.selector hinput
    exact .pure fun n hn => hinput.slice hn
  | .wildcard _ _ => by
    rw [Selector.select]
    apply Traced.Places.selector hinput
    exact .pure fun n hn => hinput.children hdocument hn
  | .filter _ _ test => by
    rw [Selector.select]
    apply Traced.Places.selector hinput
    refine .filter ?_
    intro n hn
    have hcandidate := hinput.children hdocument hn
    refine (test.evaluate_places hdocument hcandidate).bind ?_
    intro result _
    exact .pure fun _ => hcandidate
  | .missing _ _ => by
    rw [Selector.select]
    apply Traced.Places.selector hinput
    exact .pure (List.forall_mem_nil _)

/-- A path inside an expression starts at the candidate or at the root, and both are where they
say. -/
theorem Expr.evaluate_places (hdocument : scope.document.WellFormed) {current : Node}
    (hcurrent : current.IsAt scope.document) : (e : Expr) →
    (e.evaluate scope current).Places scope scope.Trusts
  | .or _ first _ rest => by
    rw [Expr.evaluate]
    apply Traced.Places.expression hcurrent
    refine (first.evaluate_places hdocument hcurrent).bind ?_
    intro result _
    split
    · exact Traced.Places.pure_result rfl
    · refine (rest.some_places hdocument hcurrent).bind ?_
      intro b _
      exact Traced.Places.pure_result rfl
  | .and _ first _ rest => by
    rw [Expr.evaluate]
    apply Traced.Places.expression hcurrent
    refine (first.evaluate_places hdocument hcurrent).bind ?_
    intro result _
    split
    · refine (rest.all_places hdocument hcurrent).bind ?_
      intro b _
      exact Traced.Places.pure_result rfl
    · exact Traced.Places.pure_result rfl
  | .not _ _ inner => by
    rw [Expr.evaluate]
    apply Traced.Places.expression hcurrent
    refine (inner.evaluate_places hdocument hcurrent).bind ?_
    intro result _
    exact Traced.Places.pure_result rfl
  | .comparison _ left _ _ right => by
    rw [Expr.evaluate]
    apply Traced.Places.expression hcurrent
    refine (left.evaluate_places hdocument hcurrent).bind ?_
    intro a _
    refine (right.evaluate_places hdocument hcurrent).bind ?_
    intro b _
    exact Traced.Places.pure_result rfl
  | .path _ p => by
    rw [Expr.evaluate]
    apply Traced.Places.expression hcurrent
    have hseed := p.seed_isAt hcurrent
    refine (Traced.Places.query (p.follow_places hdocument hseed)).bind ?_
    intro nodes hnodes
    exact .pure fun _ => hnodes
  | .call _ name _ arguments closing => by
    rw [Expr.evaluate]
    apply Traced.Places.expression hcurrent
    dsimp only
    split
    · refine (Traced.Places.warn _ _ _ _).bind ?_
      intro _ _
      exact Traced.Places.pure_result rfl
    · rename_i f hf
      split
      · refine (Traced.Places.warn _ _ _ _).bind ?_
        intro _ _
        exact Traced.Places.pure_result (Result.found_empty _)
      · refine (arguments.evaluate_places hdocument hcurrent (Traced.Places.warn _ _ _) _).bind ?_
        intro results hresults
        cases results with
        | none => exact Traced.Places.pure_result (Result.found_empty _)
        | some results =>
          refine f.call_holds ?_ fun hkeeps => hkeeps _ f hf results (hresults hkeeps results rfl)
          intro w remark _
          exact ⟨List.forall_mem_nil _, fun _ => List.forall_mem_nil _⟩
  | .literal _ _ _ => by
    rw [Expr.evaluate]
    apply Traced.Places.expression hcurrent
    exact Traced.Places.pure_result rfl
  | .parens _ _ inner _ => by
    rw [Expr.evaluate]
    apply Traced.Places.expression hcurrent
    exact inner.evaluate_places hdocument hcurrent
  | .missing _ _ => by
    rw [Expr.evaluate]
    apply Traced.Places.expression hcurrent
    exact Traced.Places.pure_result rfl

theorem Operands.some_places (hdocument : scope.document.WellFormed) {current : Node}
    (hcurrent : current.IsAt scope.document) : (os : Operands) →
    (os.some scope current).Places scope fun _ => True
  | .last operand => by
    rw [Operands.some]
    refine (operand.evaluate_places hdocument hcurrent).bind ?_
    intro result _
    exact .pure trivial
  | .more operand _ rest => by
    rw [Operands.some]
    refine (operand.evaluate_places hdocument hcurrent).bind ?_
    intro result _
    split
    · exact .pure trivial
    · exact rest.some_places hdocument hcurrent

theorem Operands.all_places (hdocument : scope.document.WellFormed) {current : Node}
    (hcurrent : current.IsAt scope.document) : (os : Operands) →
    (os.all scope current).Places scope fun _ => True
  | .last operand => by
    rw [Operands.all]
    refine (operand.evaluate_places hdocument hcurrent).bind ?_
    intro result _
    exact .pure trivial
  | .more operand _ rest => by
    rw [Operands.all]
    refine (operand.evaluate_places hdocument hcurrent).bind ?_
    intro result _
    split
    · exact rest.all_places hdocument hcurrent
    · exact .pure trivial

theorem Operands.evaluate_places (hdocument : scope.document.WellFormed) {current : Node}
    (hcurrent : current.IsAt scope.document) {trouble : CallTrouble → Traced Unit}
    (htrouble : ∀ t, (trouble t).Places scope fun _ => True) (i : Nat) : (os : Operands) →
    (kinds : List Kind) → (os.evaluate scope current trouble i kinds).Places scope fun results =>
      scope.environment.KeepsPlaces scope.document →
        ∀ rs, results = .some rs → ∀ r ∈ rs, r.IsAt scope.document
  | .last operand, kind :: _ => by
    rw [Operands.evaluate]
    refine (operand.evaluate_places hdocument hcurrent).bind ?_
    intro result hresult
    split
    · rename_i argument hargument
      refine .pure ?_
      rintro hkeeps _ ⟨⟩
      exact List.forall_mem_singleton.mpr ((hresult hkeeps).coerce? hargument)
    · refine (htrouble _).bind ?_
      intro _ _
      exact .pure nofun
  | .more operand _ rest, kind :: kinds => by
    rw [Operands.evaluate]
    refine (operand.evaluate_places hdocument hcurrent).bind ?_
    intro result hresult
    split
    · rename_i argument hargument
      refine (rest.evaluate_places hdocument hcurrent htrouble (i + 1) kinds).bind ?_
      intro results hresults
      refine .pure ?_
      intro hkeeps rs hrs
      obtain ⟨others, hothers, rfl⟩ := Option.map_eq_some_iff.mp hrs
      exact List.forall_mem_cons.mpr
        ⟨(hresult hkeeps).coerce? hargument, hresults hkeeps others hothers⟩
    · refine (htrouble _).bind ?_
      intro _ _
      exact .pure nofun
  | .last _, [] | .more _ _ _, [] => by
    rw [Operands.evaluate]
    refine .pure ?_
    rintro _ _ ⟨⟩
    exact List.forall_mem_nil _

theorem Arguments.evaluate_places (hdocument : scope.document.WellFormed) {current : Node}
    (hcurrent : current.IsAt scope.document) {trouble : CallTrouble → Traced Unit}
    (htrouble : ∀ t, (trouble t).Places scope fun _ => True) : (as : Arguments) →
    (kinds : List Kind) → (as.evaluate scope current trouble kinds).Places scope fun results =>
      scope.environment.KeepsPlaces scope.document →
        ∀ rs, results = .some rs → ∀ r ∈ rs, r.IsAt scope.document
  | .none, _ => by
    rw [Arguments.evaluate]
    refine .pure ?_
    rintro _ _ ⟨⟩
    exact List.forall_mem_nil _
  | .some operands, kinds => by
    rw [Arguments.evaluate]
    exact operands.evaluate_places hdocument hcurrent htrouble 0 kinds

end

end Evaluation

/-- Every node that a query selects is where it says. So is every node to which an element of the
query is applied on the way and every node that an element selects, and also every node that an
expression comes to if the functions make up no nodes. -/
theorem Query.trace_located (q : Query) (env : Environment) {document : Json}
    (hdocument : document.WellFormed) :
    (∀ n ∈ q.find env document, document.at? n.location = some n.value) ∧
    (∀ e ∈ (q.trace env document).events, ∀ n ∈ e.shown,
      document.at? n.location = some n.value) ∧
    (env.KeepsPlaces document → ∀ e ∈ (q.trace env document).events, ∀ n ∈ e.reached,
      document.at? n.location = some n.value) := by
  have hfollow := @Path.follow_places ⟨env, document⟩ hdocument _ (Node.root_isAt document) q.path
  obtain ⟨hevents, hfound⟩ := (Traced.Places.query hfollow) fun _ _ => trivial
  refine ⟨hfound, fun e he => (hevents e he).shown, fun hkeeps e he => ?_⟩
  exact (hevents e he).reached hkeeps

/-- A filter whose queries start at the candidate and at the root, on candidates at all depths, with
an index from the end and a slice backwards. -/
theorem Query.trace_located_filter :
    let q := Query.parse "$..[?@[-1].b || count($.a[::-1]) == 3]"
    let document := Json.object
      [("a", .array [.bool true, .array [.null, .object [("b", .string "c")]]])]
    document.WellFormed ∧
    (∀ n ∈ q.find .standard document, document.at? n.location = some n.value) ∧
    (∀ e ∈ (q.trace .standard document).events, ∀ n ∈ e.shown,
      document.at? n.location = some n.value) ∧
    ∀ e ∈ (q.trace .standard document).events, ∀ n ∈ e.reached,
      document.at? n.location = some n.value := by
  intro q document
  have hdocument : document.WellFormed := by
    simp [document, Json.WellFormed, Json.WellFormedItems, Json.WellFormedMembers, Fields.names]
  obtain ⟨hfound, hshown, hreached⟩ := q.trace_located .standard hdocument
  exact ⟨hdocument, hfound, hshown, hreached Environment.standard_keepsPlaces⟩

end JsonPath
