import JsonPath.Environment.Standard
import JsonPath.Proofs.Check.Accepted
import JsonPath.Proofs.Syntax.Written

/-!
The range of indices. A bound is stored cut to 64 bits, however many digits it has, and the check
sees only what is stored. Where an environment leaves out the least and the greatest number of 64
bits, this does not matter: the check reports the bounds that are written out of range, and those of
an accepted query are stored as they are written.
-/

namespace JsonPath

def CheckFault.isIndex : CheckFault → Bool
  | .indexOutOfRange _ => true
  | _ => false

/-- The faults that are about indices and bounds. -/
def indexFaults (faults : List (Located CheckFault)) : List (Located CheckFault) :=
  faults.filter (·.what.isIndex)

theorem indexFaults_append (a b : List (Located CheckFault)) :
    indexFaults (a ++ b) = indexFaults a ++ indexFaults b := List.filter_append ..

theorem indexFaults_eq_nil {faults : List (Located CheckFault)}
    (h : ∀ f ∈ faults, f.what.isIndex = false) : indexFaults faults = [] :=
  List.filter_eq_nil_iff.mpr fun f hf => Bool.eq_false_iff.mp (h f hf)

/-- The ends of what 64 bits hold are out of range. -/
structure Environment.Narrow (env : Environment) : Prop where
  lowest : -(2 ^ 63) < env.lowest
  highest : env.highest < 2 ^ 63 - 1

namespace Bound

/-- The number that is written is out of range. -/
def IsOutside (env : Environment) (b : Bound) : Prop :=
  b.exact < env.lowest ∨ env.highest < b.exact

instance (env : Environment) (b : Bound) : Decidable (b.IsOutside env) :=
  inferInstanceAs (Decidable (_ ∨ _))

/-- The fault of a bound that is out of range. -/
def fault (b : Bound) : Located CheckFault := ⟨.indexOutOfRange b.token.text, b.token.range⟩

/-- What the check finds at a bound. -/
def faults (env : Environment) (b : Bound) : List (Located CheckFault) :=
  checkIndex env b.token b.value

variable {env : Environment}

theorem indexFaults_faults (env : Environment) (b : Bound) :
    indexFaults (b.faults env) = b.faults env := by
  unfold faults checkIndex
  split <;> rfl

theorem indexFaults_check (b : Option Bound) :
    indexFaults (check env b) = b.toList.flatMap (faults env) := by
  cases b with
  | none => rfl
  | some b =>
    rw [Option.toList_some, List.flatMap_singleton]
    exact b.indexFaults_faults env

/-- To cut a number to 64 bits keeps it in range or out of range, whichever it is. -/
theorem Written.outside_iff {b : Bound} (h : b.Written) (henv : env.Narrow) :
    (b.value < env.lowest ∨ env.highest < b.value) ↔ b.IsOutside env := by
  have hvalue := h.value
  have hlowest := henv.lowest
  have hhighest := henv.highest
  unfold IsOutside
  omega

theorem Written.faults_eq {b : Bound} (h : b.Written) (henv : env.Narrow) :
    b.faults env = if b.IsOutside env then [b.fault] else [] := by
  have hiff := h.outside_iff henv
  rw [faults, checkIndex]
  simp only [h.present, Bool.not_false, Bool.true_and, Bool.or_eq_true, decide_eq_true_eq, hiff]
  rfl

theorem Written.value_eq {b : Bound} (h : b.Written) (henv : env.Narrow)
    (hinside : ¬b.IsOutside env) : b.value = b.exact := by
  have hvalue := h.value
  have hlowest := henv.lowest
  have hhighest := henv.highest
  unfold IsOutside at hinside
  omega

end Bound

namespace Tree

/-- The indices and the bounds of all slices, in the order in which they are written. -/
def bounds (t : Tree) : List Bound := t.elements.flatMap Element.bounds

theorem bounds_node (e : Element) (cs : List Tree) :
    (node e cs).bounds = e.bounds ++ cs.flatMap bounds := by
  rw [bounds, elements_node, List.flatMap_cons, List.flatMap_assoc]
  rfl

theorem bounds_leaf (t : Token) : (leaf t).bounds = [] := bounds_node _ _

theorem bounds_leaf? (t : Option Token) : (leaf? t).flatMap bounds = [] := by
  cases t with
  | none => rfl
  | some t => exact bounds_leaf t

theorem bounds_leaves (part : Option StepPart) : (StepPart.leaves part).flatMap bounds = [] := by
  cases part with
  | none => rfl
  | some part =>
    rw [StepPart.leaves, List.flatMap_cons, bounds_leaf, Bound.leaf?, bounds_leaf?]
    rfl

end Tree

section Faults

variable {env : Environment}

theorem Expr.indexFaults_testFaults (e : Expr) : indexFaults (e.testFaults env) = [] := by
  refine indexFaults_eq_nil fun f hf => ?_
  unfold testFaults at hf
  repeat' split at hf
  all_goals
    first
    | rw [List.mem_singleton.mp hf]; rfl
    | cases hf

theorem Expr.indexFaults_comparisonFaults (e : Expr) :
    indexFaults (e.comparisonFaults env) = [] := by
  refine indexFaults_eq_nil fun f hf => ?_
  unfold comparisonFaults at hf
  repeat' split at hf
  all_goals
    first
    | rw [List.mem_singleton.mp hf]; rfl
    | cases hf

theorem indexFaults_checkCall (name : Token) (call : Range) (arguments : List Expr) :
    indexFaults (checkCall env name call arguments) = [] := by
  refine indexFaults_eq_nil fun f hf => ?_
  unfold checkCall at hf
  split at hf
  · cases hf
  · split at hf
    · rw [List.mem_singleton.mp hf]
      rfl
    · split at hf
      · rw [List.mem_singleton.mp hf]
        rfl
      · obtain ⟨_, -, hfault⟩ := List.mem_filterMap.mp hf
        dsimp only at hfault
        split at hfault
        · cases hfault
        · rw [← Option.some.inj hfault]
          rfl

mutual

theorem Path.indexFaults_check : (p : Path) →
    indexFaults (p.check env) = (p.parts.flatMap Tree.bounds).flatMap (Bound.faults env)
  | .root _ identifier => by
    rw [Path.parts, List.flatMap_singleton, Tree.bounds_leaf]
    rfl
  | .step before segment => by
    rw [Path.check, indexFaults_append, before.indexFaults_check, segment.indexFaults_check,
      Path.parts, List.flatMap_append, List.flatMap_append, List.flatMap_singleton]

theorem Segment.indexFaults_check : (s : Segment) →
    indexFaults (s.check env) = s.tree.bounds.flatMap (Bound.faults env)
  | .shorthand _ dots selector => by
    rw [Segment.check, selector.indexFaults_check, Segment.tree]
    simp [Tree.bounds_node, Tree.bounds_leaf, Element.bounds]
  | .bracketed _ dots opening selectors closing => by
    rw [Segment.check, selectors.indexFaults_check, Segment.tree]
    simp [Tree.bounds_node, Tree.bounds_leaf, Tree.bounds_leaf?, Element.bounds]

theorem Selectors.indexFaults_check : (ss : Selectors) →
    indexFaults (ss.check env) = (ss.trees.flatMap Tree.bounds).flatMap (Bound.faults env)
  | .last selector => by
    rw [Selectors.check, selector.indexFaults_check, Selectors.trees, List.flatMap_singleton]
  | .more selector comma rest => by
    rw [Selectors.check, indexFaults_append, selector.indexFaults_check, rest.indexFaults_check]
    simp [Selectors.trees, Tree.bounds_leaf]

theorem Selector.indexFaults_check : (s : Selector) →
    indexFaults (s.check env) = s.tree.bounds.flatMap (Bound.faults env)
  | .name _ token _ | .wildcard _ token | .missing _ token => by
    simp [Selector.check, Selector.tree, Tree.bounds_node, Tree.bounds_leaf, Element.bounds,
      Selector.bounds, indexFaults]
  | .index _ token value => by
    have hfaults := (Bound.mk token value).indexFaults_faults env
    rw [Bound.faults] at hfaults
    simpa [Selector.check, Selector.tree, Tree.bounds_node, Tree.bounds_leaf, Element.bounds,
      Selector.bounds, Bound.faults] using hfaults
  | .slice _ start colon stop step => by
    rw [Selector.check, indexFaults_append, indexFaults_append, Bound.indexFaults_check,
      Bound.indexFaults_check, Bound.indexFaults_check]
    simp [Selector.tree, Tree.bounds_node, Tree.bounds_leaf, Tree.bounds_leaf?,
      Tree.bounds_leaves, Bound.leaf?, Element.bounds, Selector.bounds]
  | .filter _ question test => by
    rw [Selector.check, indexFaults_append, test.indexFaults_testFaults, test.indexFaults_check]
    simp [Selector.tree, Tree.bounds_node, Tree.bounds_leaf, Element.bounds, Selector.bounds]

theorem Expr.indexFaults_check : (e : Expr) →
    indexFaults (e.check env) = e.tree.bounds.flatMap (Bound.faults env)
  | .or _ first operator rest | .and _ first operator rest => by
    rw [Expr.check, indexFaults_append, indexFaults_append, first.indexFaults_testFaults,
      first.indexFaults_check, rest.indexFaults_checkTests]
    simp [Expr.tree, Tree.bounds_node, Tree.bounds_leaf, Element.bounds]
  | .not _ bang inner => by
    rw [Expr.check, indexFaults_append, inner.indexFaults_testFaults, inner.indexFaults_check]
    simp [Expr.tree, Tree.bounds_node, Tree.bounds_leaf, Element.bounds]
  | .comparison _ left operator _ right => by
    rw [Expr.check, indexFaults_append, indexFaults_append, indexFaults_append,
      left.indexFaults_comparisonFaults, right.indexFaults_comparisonFaults,
      left.indexFaults_check, right.indexFaults_check]
    simp [Expr.tree, Tree.bounds_node, Tree.bounds_leaf, Element.bounds]
  | .path _ p => by
    rw [Expr.check, p.indexFaults_check]
    simp [Expr.tree, Tree.bounds_node, Element.bounds]
  | .call _ name opening arguments closing => by
    rw [Expr.check, indexFaults_append, indexFaults_checkCall, arguments.indexFaults_check]
    simp [Expr.tree, Tree.bounds_node, Tree.bounds_leaf, Element.bounds]
  | .literal _ token _ | .missing _ token => by
    simp [Expr.check, Expr.tree, Tree.bounds_node, Tree.bounds_leaf, Element.bounds, indexFaults]
  | .parens _ opening inner closing => by
    rw [Expr.check, indexFaults_append, inner.indexFaults_testFaults, inner.indexFaults_check]
    simp [Expr.tree, Tree.bounds_node, Tree.bounds_leaf, Element.bounds]

theorem Operands.indexFaults_checkTests : (os : Operands) →
    indexFaults (os.checkTests env) = (os.trees.flatMap Tree.bounds).flatMap (Bound.faults env)
  | .last operand => by
    rw [Operands.checkTests, indexFaults_append, operand.indexFaults_testFaults,
      operand.indexFaults_check, Operands.trees, List.flatMap_singleton, List.append_nil]
  | .more operand separator rest => by
    rw [Operands.checkTests, indexFaults_append, indexFaults_append,
      operand.indexFaults_testFaults, operand.indexFaults_check, rest.indexFaults_checkTests]
    simp [Operands.trees, Tree.bounds_leaf]

theorem Operands.indexFaults_check : (os : Operands) →
    indexFaults (os.check env) = (os.trees.flatMap Tree.bounds).flatMap (Bound.faults env)
  | .last operand => by
    rw [Operands.check, operand.indexFaults_check, Operands.trees, List.flatMap_singleton]
  | .more operand separator rest => by
    rw [Operands.check, indexFaults_append, operand.indexFaults_check, rest.indexFaults_check]
    simp [Operands.trees, Tree.bounds_leaf]

theorem Arguments.indexFaults_check : (as : Arguments) →
    indexFaults (as.check env) = (as.trees.flatMap Tree.bounds).flatMap (Bound.faults env)
  | .none => rfl
  | .some operands => operands.indexFaults_check

end

end Faults

namespace Query

/-- The indices and the bounds of all slices of a query, at whatever depth. -/
def bounds (q : Query) : List Bound := q.tree.bounds

theorem indexFaults_check (q : Query) (env : Environment) :
    indexFaults (q.check env) = q.bounds.flatMap (Bound.faults env) := by
  have hbounds : q.bounds = q.path.parts.flatMap Tree.bounds := by
    simp [bounds, Query.tree, Path.tree, Tree.bounds_node, Tree.bounds_leaf, Element.bounds]
  rw [hbounds]
  exact q.path.indexFaults_check

theorem bounds_written {source : String} (h : (parse source).faults = []) :
    ∀ b ∈ (parse source).bounds, b.Written := by
  intro b hb
  obtain ⟨e, he, hb⟩ := List.mem_flatMap.mp hb
  have hwritten := parse_written h e he
  cases e with
  | selector s => exact hwritten b hb
  | query | path | segment | expression | token => cases hb

/-- The check of a query takes its bounds for what is written. -/
structure ExactBounds (env : Environment) (source : String) : Prop where
  /-- The faults of indices are those of the bounds that are written out of range, in order. -/
  reported : indexFaults ((parse source).check env) =
    ((parse source).bounds.filter (·.IsOutside env)).map Bound.fault
  outside : ∀ b ∈ (parse source).bounds,
    b.fault ∈ (parse source).check env ↔ b.exact < env.lowest ∨ env.highest < b.exact
  /-- What is written is a whole number, and an accepted query stores just that. -/
  stored : ∀ q, accept env source = .ok q → ∀ b ∈ q.bounds,
    Grammar.Index b.token.text.toList ∧ b.value = b.exact

theorem parse_exactBounds {env : Environment} {source : String} (henv : env.Narrow)
    (h : (parse source).faults = []) : ExactBounds env source := by
  have hwritten := bounds_written h
  have hreported : indexFaults ((parse source).check env) =
      ((parse source).bounds.filter (·.IsOutside env)).map Bound.fault := by
    rw [indexFaults_check]
    generalize (parse source).bounds = bounds at hwritten
    induction bounds with
    | nil => rfl
    | cons b rest ih =>
      obtain ⟨hb, hrest⟩ := List.forall_mem_cons.mp hwritten
      rw [List.flatMap_cons, hb.faults_eq henv, ih hrest, List.filter_cons]
      by_cases houtside : b.IsOutside env <;> simp [houtside]
  refine ⟨hreported, fun b hb => ?_, fun q haccept b hb => ?_⟩
  · have hmem : b.fault ∈ (parse source).check env ↔
        b.fault ∈ indexFaults ((parse source).check env) := by
      rw [indexFaults, List.mem_filter]
      exact (and_iff_left rfl).symm
    rw [hmem, hreported, List.mem_map]
    constructor
    · rintro ⟨other, hother, hfault⟩
      -- The same text is that of the same number.
      have htext : other.token.text = b.token.text :=
        CheckFault.indexOutOfRange.inj (congrArg Located.what hfault)
      have houtside : other.IsOutside env := of_decide_eq_true (List.mem_filter.mp hother).2
      rwa [Bound.IsOutside, Bound.exact, htext] at houtside
    · exact fun houtside => ⟨b, List.mem_filter.mpr ⟨hb, decide_eq_true houtside⟩, rfl⟩
  · obtain rfl := parse_of_accept haccept
    have hnone : ¬b.IsOutside env := by
      intro houtside
      have hfault : b.fault ∈ indexFaults ((parse source).check env) := by
        rw [hreported]
        exact List.mem_map_of_mem (List.mem_filter.mpr ⟨hb, decide_eq_true houtside⟩)
      rw [(wellFormed_of_accept haccept).2] at hfault
      cases hfault
    exact ⟨(hwritten b hb).index, (hwritten b hb).value_eq henv hnone⟩

/-- Bounds of more than 64 bits, as the stop of a slice inside a filter. -/
theorem parse_exactBounds_standard :
    Environment.standard.Narrow ∧
    (parse "$[0,?@[:-99999999999999999999:2]]").faults = [] ∧
    ExactBounds .standard "$[0,?@[:-99999999999999999999:2]]" := by
  have henv : Environment.standard.Narrow := ⟨by decide, by decide⟩
  have hfaults : (parse "$[0,?@[:-99999999999999999999:2]]").faults = [] := by decide +kernel
  exact ⟨henv, hfaults, parse_exactBounds henv hfaults⟩

end Query

end JsonPath
