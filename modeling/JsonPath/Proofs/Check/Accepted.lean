import JsonPath.Check
import JsonPath.Proofs.Syntax.Elements
import JsonPath.Proofs.Syntax.Soundness

/-!
Elements of queries without faults. Whatever is part of an accepted query is well-formed and
passes the check by itself.
-/

namespace JsonPath

/-- Nothing is wrong with the text or the sense of the element. -/
def Element.Accepted (env : Environment) : Element → Prop
  | .path p => p.WellFormed ∧ p.check env = []
  | .segment s => s.WellFormed ∧ s.check env = []
  | .selector s => s.WellFormed ∧ s.check env = []
  | .expression e => e.WellFormed ∧ e.check env = []
  | .query q => q.path.WellFormed ∧ q.check env = []
  | .token _ => True

section Trees

variable {env : Environment}

theorem Token.leaf_accepted (t : Token) : (Tree.leaf t).All (Element.Accepted env) :=
  .leaf trivial

theorem Bound.leaf?_accepted (b : Option Bound) :
    ∀ c ∈ Bound.leaf? b, c.All (Element.Accepted env) :=
  .leaf? fun _ => trivial

theorem StepPart.leaves_accepted (part : Option StepPart) :
    ∀ c ∈ StepPart.leaves part, c.All (Element.Accepted env) := by
  cases part with
  | none =>
    intro c hc
    cases hc
  | some part =>
    exact List.forall_mem_cons.mpr ⟨part.colon.leaf_accepted, Bound.leaf?_accepted part.bound⟩

mutual

theorem Path.parts_accepted : (p : Path) → p.WellFormed → p.check env = [] →
    ∀ c ∈ p.parts, c.All (Element.Accepted env)
  | .root _ identifier, _, _ => List.forall_mem_singleton.mpr identifier.leaf_accepted
  | .step before segment, h, hcheck => by
    obtain ⟨hbefore, hsegment⟩ := h
    obtain ⟨hcheckBefore, hcheckSegment⟩ := List.append_eq_nil_iff.mp hcheck
    refine List.forall_mem_append.mpr ⟨before.parts_accepted hbefore hcheckBefore, ?_⟩
    exact List.forall_mem_singleton.mpr (segment.tree_accepted hsegment hcheckSegment)

theorem Segment.tree_accepted : (s : Segment) → s.WellFormed → s.check env = [] →
    s.tree.All (Element.Accepted env)
  | .shorthand _ dots selector, h, hcheck => by
    refine .node ⟨h, hcheck⟩ ?_
    simp only [List.forall_mem_cons]
    exact ⟨dots.leaf_accepted, selector.tree_accepted h hcheck, List.forall_mem_nil _⟩
  | .bracketed _ dots opening selectors closing, h, hcheck => by
    refine .node ⟨h, hcheck⟩ ?_
    simp only [List.forall_mem_append, List.forall_mem_cons]
    exact ⟨⟨.leaf? fun _ => trivial, opening.leaf_accepted, selectors.trees_accepted h hcheck⟩,
      closing.leaf_accepted, List.forall_mem_nil _⟩

theorem Selectors.trees_accepted : (ss : Selectors) → ss.WellFormed → ss.check env = [] →
    ∀ c ∈ ss.trees, c.All (Element.Accepted env)
  | .last selector, h, hcheck =>
    List.forall_mem_singleton.mpr (selector.tree_accepted h hcheck)
  | .more selector comma rest, h, hcheck => by
    obtain ⟨hselector, hrest⟩ := h
    obtain ⟨hcheckSelector, hcheckRest⟩ := List.append_eq_nil_iff.mp hcheck
    simp only [Selectors.trees, List.forall_mem_cons]
    exact ⟨selector.tree_accepted hselector hcheckSelector, comma.leaf_accepted,
      rest.trees_accepted hrest hcheckRest⟩

theorem Selector.tree_accepted : (s : Selector) → s.WellFormed → s.check env = [] →
    s.tree.All (Element.Accepted env)
  | .name _ token _, h, hcheck | .index _ token _, h, hcheck | .wildcard _ token, h, hcheck =>
    .node ⟨h, hcheck⟩ (List.forall_mem_singleton.mpr token.leaf_accepted)
  | .slice _ start colon stop step, h, hcheck => by
    refine .node ⟨h, hcheck⟩ ?_
    simp only [List.forall_mem_append, List.forall_mem_cons]
    exact ⟨⟨Bound.leaf?_accepted start, colon.leaf_accepted, Bound.leaf?_accepted stop⟩,
      StepPart.leaves_accepted step⟩
  | .filter _ question test, h, hcheck => by
    obtain ⟨hcheckTest, -⟩ := List.append_eq_nil_iff.mp hcheck
    refine .node ⟨h, hcheck⟩ ?_
    simp only [List.forall_mem_cons]
    exact ⟨question.leaf_accepted, test.tree_accepted h hcheckTest, List.forall_mem_nil _⟩
  | .missing _ _, h, _ => h.elim

theorem Expr.tree_accepted : (e : Expr) → e.WellFormed → e.check env = [] →
    e.tree.All (Element.Accepted env)
  | .or _ first operator rest, h, hcheck | .and _ first operator rest, h, hcheck => by
    refine .node ⟨h, hcheck⟩ ?_
    obtain ⟨hfirst, hrest⟩ := h
    obtain ⟨hcheckBoth, hcheckRest⟩ := List.append_eq_nil_iff.mp hcheck
    obtain ⟨hcheckFirst, -⟩ := List.append_eq_nil_iff.mp hcheckBoth
    simp only [List.forall_mem_cons]
    exact ⟨first.tree_accepted hfirst hcheckFirst, operator.leaf_accepted,
      rest.trees_accepted_of_tests hrest hcheckRest⟩
  | .not _ bang inner, h, hcheck => by
    obtain ⟨hcheckInner, -⟩ := List.append_eq_nil_iff.mp hcheck
    refine .node ⟨h, hcheck⟩ ?_
    simp only [List.forall_mem_cons]
    exact ⟨bang.leaf_accepted, inner.tree_accepted h hcheckInner, List.forall_mem_nil _⟩
  | .comparison _ left operator _ right, h, hcheck => by
    refine .node ⟨h, hcheck⟩ ?_
    obtain ⟨-, -, hleft, hright⟩ := h
    obtain ⟨hcheckLeft, hcheckRight⟩ := List.append_eq_nil_iff.mp hcheck
    obtain ⟨-, hcheckLeft⟩ := List.append_eq_nil_iff.mp hcheckLeft
    obtain ⟨-, hcheckRight⟩ := List.append_eq_nil_iff.mp hcheckRight
    simp only [List.forall_mem_cons]
    exact ⟨left.tree_accepted hleft hcheckLeft, operator.leaf_accepted,
      right.tree_accepted hright hcheckRight, List.forall_mem_nil _⟩
  | .path _ p, h, hcheck => by
    refine .node ⟨h, hcheck⟩ (List.forall_mem_singleton.mpr ?_)
    exact .node ⟨h, hcheck⟩ (p.parts_accepted h hcheck)
  | .call _ name opening arguments closing, h, hcheck => by
    refine .node ⟨h, hcheck⟩ ?_
    obtain ⟨-, harguments⟩ := h
    obtain ⟨hcheckArguments, -⟩ := List.append_eq_nil_iff.mp hcheck
    simp only [List.forall_mem_append, List.forall_mem_cons]
    exact ⟨⟨name.leaf_accepted, opening.leaf_accepted,
      arguments.trees_accepted harguments hcheckArguments⟩, closing.leaf_accepted,
      List.forall_mem_nil _⟩
  | .literal _ token _, h, hcheck =>
    .node ⟨h, hcheck⟩ (List.forall_mem_singleton.mpr token.leaf_accepted)
  | .parens _ opening inner closing, h, hcheck => by
    obtain ⟨hcheckInner, -⟩ := List.append_eq_nil_iff.mp hcheck
    refine .node ⟨h, hcheck⟩ ?_
    simp only [List.forall_mem_cons]
    exact ⟨opening.leaf_accepted, inner.tree_accepted h hcheckInner, closing.leaf_accepted,
      List.forall_mem_nil _⟩
  | .missing _ _, h, _ => h.elim

theorem Operands.trees_accepted_of_tests : (os : Operands) → os.WellFormed →
    os.checkTests env = [] → ∀ c ∈ os.trees, c.All (Element.Accepted env)
  | .last operand, h, hcheck => by
    obtain ⟨hcheckOperand, -⟩ := List.append_eq_nil_iff.mp hcheck
    exact List.forall_mem_singleton.mpr (operand.tree_accepted h hcheckOperand)
  | .more operand separator rest, h, hcheck => by
    obtain ⟨hoperand, hrest⟩ := h
    obtain ⟨hcheckBoth, hcheckRest⟩ := List.append_eq_nil_iff.mp hcheck
    obtain ⟨hcheckOperand, -⟩ := List.append_eq_nil_iff.mp hcheckBoth
    simp only [Operands.trees, List.forall_mem_cons]
    exact ⟨operand.tree_accepted hoperand hcheckOperand, separator.leaf_accepted,
      rest.trees_accepted_of_tests hrest hcheckRest⟩

theorem Operands.trees_accepted : (os : Operands) → os.WellFormed → os.check env = [] →
    ∀ c ∈ os.trees, c.All (Element.Accepted env)
  | .last operand, h, hcheck => List.forall_mem_singleton.mpr (operand.tree_accepted h hcheck)
  | .more operand separator rest, h, hcheck => by
    obtain ⟨hoperand, hrest⟩ := h
    obtain ⟨hcheckOperand, hcheckRest⟩ := List.append_eq_nil_iff.mp hcheck
    simp only [Operands.trees, List.forall_mem_cons]
    exact ⟨operand.tree_accepted hoperand hcheckOperand, separator.leaf_accepted,
      rest.trees_accepted hrest hcheckRest⟩

theorem Arguments.trees_accepted : (as : Arguments) → as.WellFormed → as.check env = [] →
    ∀ c ∈ as.trees, c.All (Element.Accepted env)
  | .none, _, _ => List.forall_mem_nil _
  | .some operands, h, hcheck => operands.trees_accepted h hcheck

end

end Trees

namespace Query

variable {env : Environment} {source : String} {q : Query}

/-- Neither the text nor the sense of an accepted query has a fault. -/
theorem wellFormed_of_accept (h : accept env source = .ok q) :
    q.path.WellFormed ∧ q.check env = [] := by
  have hsound := @parse_sound source
  unfold accept at h
  generalize parse source = parsed at h hsound
  dsimp only at h
  split at h
  · cases h
  · rename_i hfaults
    split at h
    · cases h
    · rename_i hcheck
      cases h
      exact ⟨(hsound (List.head?_eq_none_iff.mp hfaults)).2,
        List.head?_eq_none_iff.mp hcheck⟩

theorem parse_of_accept (h : accept env source = .ok q) : parse source = q := by
  unfold accept at h
  generalize parse source = parsed at h
  dsimp only at h
  split at h
  · cases h
  · split at h <;> cases h
    rfl

theorem accept_of_faultless (hfaults : (parse source).faults = [])
    (hcheck : (parse source).check env = []) : accept env source = .ok (parse source) := by
  unfold accept
  generalize parse source = parsed at hfaults hcheck
  dsimp only
  rw [hfaults, hcheck]
  rfl

theorem elements_accepted (h : accept env source = .ok q) :
    q.tree.All (Element.Accepted env) := by
  obtain ⟨hpath, hcheck⟩ := wellFormed_of_accept h
  refine .node ⟨hpath, hcheck⟩ ?_
  simp only [List.forall_mem_cons]
  exact ⟨.node ⟨hpath, hcheck⟩ (q.path.parts_accepted hpath hcheck), q.ending.leaf_accepted,
    List.forall_mem_nil _⟩

end Query

end JsonPath
