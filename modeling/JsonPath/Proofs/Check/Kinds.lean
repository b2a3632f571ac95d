import JsonPath.Proofs.Check.Accepted
import JsonPath.Proofs.Environment.Honest
import JsonPath.Proofs.Evaluation.Singular
import JsonPath.Proofs.Evaluation.Trace

/-!
Evaluation of accepted queries never meets a result of the wrong kind. What an expression comes
to is known from its form and from the functions that it calls, and the check asks for just as
much of it as its use needs. So a call always finds its function and passes it as many arguments
as it declares, of the declared kinds, as long as the functions themselves keep to the kinds
that they declare.
-/

namespace JsonPath

namespace Result

/-- The result stands for a truth value. -/
def IsTest : Result → Prop
  | logical _ => True
  | nodes _ => True
  | _ => False

/-- The result stands for at most one value. -/
def IsComparable : Result → Prop
  | value _ => True
  | nothing => True
  | nodes ns => ns.length ≤ 1
  | logical _ => False

theorem IsTest.coerce? {r : Result} (h : r.IsTest) :
    ∃ result, r.coerce? .logical = some result ∧ result.hasKind .logical = true := by
  cases r with
  | logical b => exact ⟨.logical b, rfl, rfl⟩
  | nodes ns => exact ⟨.logical !ns.isEmpty, rfl, rfl⟩
  | value | nothing => exact h.elim

/-- A result of a kind can be taken for one of it, and nodes also for a truth value. -/
theorem coerce?_of_hasKind {r : Result} {kind asked : Kind} (h : r.hasKind kind = true)
    (hasked : kind = asked ∨ (kind = .nodes ∧ asked = .logical)) :
    ∃ result, r.coerce? asked = some result ∧ result.hasKind asked = true := by
  rcases hasked with rfl | ⟨rfl, rfl⟩
  · cases kind <;> cases r <;> first | exact ⟨_, rfl, rfl⟩ | cases h
  · cases r with
    | nodes ns => exact ⟨.logical !ns.isEmpty, rfl, rfl⟩
    | value | nothing | logical => cases h

end Result

/-- An event other than a warning about a call that could not be made. -/
def Event.Quiet : Event → Prop
  | .warning w => ∃ remark, w.trouble = .remark remark
  | _ => True

namespace Expr

/-- The results of the parts of an expression have the kinds that its evaluation asks for. -/
def PartsFit (scope : Scope) (current : Node) : Expr → Prop
  | .or _ first _ rest | .and _ first _ rest =>
    (first.evaluate scope current).result.IsTest ∧
      ∀ e ∈ rest.toList, (e.evaluate scope current).result.IsTest
  | .not _ _ inner | .parens _ _ inner _ => (inner.evaluate scope current).result.IsTest
  | .comparison _ left _ _ right =>
    (left.evaluate scope current).result.IsComparable ∧
      (right.evaluate scope current).result.IsComparable
  | .call id name opening arguments closing =>
    ∃ f results, scope.environment.function? name.text = some f ∧
      arguments.toList.length = f.parameters.length ∧
      (arguments.evaluate scope current
        (warn name.text (arguments.toList.map range) (name.range.cover closing.range))
        f.parameters).result = some results ∧
      Result.haveKinds f.parameters results = true ∧
      ((Expr.call id name opening arguments closing).evaluate scope current).result =
        (f.run results).1
  | _ => True

/-- What an expression may come to, going by its form. -/
def Gives (env : Environment) (result : Result) : Expr → Prop
  | .or _ _ _ _ | .and _ _ _ _ | .not _ _ _ | .comparison _ _ _ _ _ => ∃ b, result = .logical b
  | .path _ p => ∃ nodes, result = .nodes nodes ∧ (p.isSingular = true → nodes.length ≤ 1)
  | .call _ name _ arguments _ =>
    ∃ f, env.function? name.text = some f ∧ arguments.toList.length = f.parameters.length ∧
      result.hasKind f.returns = true
  | .literal _ _ value => result = .value value
  | .parens _ _ _ _ => result.IsTest
  | .missing _ _ => False

variable {env : Environment} {result : Result} {e : Expr}

/-- An expression that may be tested gives what can be tested. -/
theorem Gives.isTest (h : e.Gives env result) (htest : e.testFaults env = []) :
    result.IsTest := by
  cases e with
  | or | and | not | comparison =>
    obtain ⟨b, rfl⟩ := h
    trivial
  | path =>
    obtain ⟨nodes, rfl, -⟩ := h
    trivial
  | call id name opening arguments closing =>
    obtain ⟨f, hf, hcount, hkind⟩ := h
    simp only [testFaults, hf, hcount] at htest
    have hreturns : f.returns ≠ .value := by
      intro hreturns
      simp [hreturns] at htest
    cases hf : f.returns <;> rw [hf] at hkind hreturns
    · exact absurd rfl hreturns
    all_goals cases result <;> trivial
  | literal => cases htest
  | parens => exact h
  | missing => exact h.elim

/-- An expression that may be compared gives at most one value. -/
theorem Gives.isComparable (h : e.Gives env result) (he : e.IsComparable)
    (hfaults : e.comparisonFaults env = []) : result.IsComparable := by
  cases e with
  | or | and | not | comparison | parens | missing => exact he.elim
  | path =>
    obtain ⟨nodes, rfl, hlength⟩ := h
    exact hlength he
  | call id name opening arguments closing =>
    obtain ⟨f, hf, -, hkind⟩ := h
    simp only [comparisonFaults, hf] at hfaults
    by_cases hreturns : f.returns = .value
    · rw [hreturns] at hkind
      cases result <;> trivial
    · simp [hreturns] at hfaults
  | literal =>
    obtain rfl := h
    trivial

/-- An expression that suits a parameter gives what can be taken for the parameter's kind. -/
theorem Gives.coerce? {kind : Kind} (h : e.Gives env result) (hsuits : e.suits env kind = true) :
    ∃ argument, result.coerce? kind = some argument ∧ argument.hasKind kind = true := by
  cases e with
  | or | and | not | comparison =>
    obtain ⟨b, rfl⟩ := h
    obtain rfl : kind = .logical := by simpa [suits] using hsuits
    exact ⟨.logical b, rfl, rfl⟩
  | path id p =>
    obtain ⟨nodes, rfl, -⟩ := h
    cases kind with
    | value => exact ⟨_, rfl, Result.single_hasKind_value nodes⟩
    | logical => exact ⟨.logical !nodes.isEmpty, rfl, rfl⟩
    | nodes => exact ⟨.nodes nodes, rfl, rfl⟩
  | call id name opening arguments closing =>
    obtain ⟨f, hf, -, hkind⟩ := h
    refine Result.coerce?_of_hasKind hkind ?_
    simpa [suits, hf] using hsuits
  | literal =>
    obtain rfl := h
    obtain rfl : kind = .value := by simpa [suits] using hsuits
    exact ⟨_, rfl, rfl⟩
  | parens =>
    obtain rfl : kind = .logical := by simpa [suits] using hsuits
    exact Result.IsTest.coerce? h
  | missing => exact h.elim

end Expr

/-- The promise about an evaluation that makes every call that it comes to. -/
abbrev Traced.Calls {α : Type} (Q : α → Prop) (t : Traced α) : Prop :=
  t.Holds (fun _ => True) Event.Quiet Q

namespace Traced

variable {α : Type} {Q R : α → Prop} {t : Traced α}

theorem Calls.result (h : t.Calls Q) : Q t.result := (h fun _ _ => trivial).2

theorem Calls.note {describe : α → Event} (h : t.Calls Q)
    (hdescribe : ∀ a, (describe a).Quiet) : (Traced.note describe t).Calls Q :=
  Holds.note h fun a ha _ => ⟨hdescribe a, ha⟩

end Traced

/-- A call that passes the check finds its function, and every argument suits its parameter. -/
theorem checkCall_eq_nil {env : Environment} {name : Token} {range : Range}
    {arguments : List Expr} (h : checkCall env name range arguments = [])
    (hname : name.missing = false) :
    ∃ f, env.function? name.text = some f ∧ arguments.length = f.parameters.length ∧
      ∀ p ∈ arguments.zip f.parameters, p.1.suits env p.2 = true := by
  simp only [checkCall, hname, Bool.false_eq_true, if_false] at h
  split at h
  · cases h
  · rename_i f hf
    split at h
    · cases h
    · rename_i hcount
      refine ⟨f, hf, Decidable.not_not.mp hcount, ?_⟩
      intro p hp
      obtain ⟨i, hi, rfl⟩ := List.getElem_of_mem hp
      rw [List.filterMap_eq_nil_iff] at h
      have hargument := h (_, i) (List.mk_mem_zipIdx_iff_getElem?.mpr (List.getElem?_eq_getElem hi))
      simpa using hargument

/-- What a call of a known function with the right number of arguments does. -/
theorem Expr.evaluate_call {scope : Scope} {name : Token} {f : Function} {arguments : Arguments}
    (hf : scope.environment.function? name.text = some f)
    (hcount : arguments.toList.length = f.parameters.length) (current : Node) (id : Nat)
    (opening closing : Token) :
    (Expr.call id name opening arguments closing).evaluate scope current =
      .note (.expression id current) (do
        match ← arguments.evaluate scope current
            (warn name.text (arguments.toList.map range) (name.range.cover closing.range))
            f.parameters with
        | some results =>
          f.call name.text (arguments.toList.map range) (name.range.cover closing.range) results
        | none => return .empty f.returns) := by
  rw [Expr.evaluate, hf]
  exact congrArg (Traced.note (.expression id current)) (if_neg (not_not_intro hcount))

section Evaluation

variable {scope : Scope}

/-- The evaluation gives nodes and makes every call that it comes to. -/
abbrev Traced.Goes (t : Traced (List Node)) : Prop :=
  t.Selects (fun _ => True) Event.Quiet fun _ => True

mutual

theorem Path.follow_goes (henv : scope.environment.Honest) (seed : Node) : (p : Path) →
    p.WellFormed → p.check scope.environment = [] → (p.follow scope seed).Goes
  | .root _ _, _, _ => .pure fun _ _ => trivial
  | .step before segment, h, hcheck => by
    obtain ⟨hbefore, hsegment⟩ := h
    obtain ⟨hcheckBefore, hcheckSegment⟩ := List.append_eq_nil_iff.mp hcheck
    rw [Path.follow]
    refine (before.follow_goes henv seed hbefore hcheckBefore).bind ?_
    intro nodes _
    refine .collect ?_
    intro n _
    exact segment.select_goes henv n hsegment hcheckSegment

theorem Segment.select_goes (henv : scope.environment.Honest) (input : Node) : (s : Segment) →
    s.WellFormed → s.check scope.environment = [] → (s.select scope input).Goes
  | .shorthand _ _ selector, h, hcheck => by
    rw [Segment.select]
    refine Traced.Calls.note ?_ fun _ => trivial
    refine reach_selects ?_
    intro n _ _
    exact selector.select_goes henv n h hcheck
  | .bracketed _ _ _ selectors _, h, hcheck => by
    rw [Segment.select]
    refine Traced.Calls.note ?_ fun _ => trivial
    refine reach_selects ?_
    intro n _ _
    exact selectors.select_goes henv n h hcheck

theorem Selectors.select_goes (henv : scope.environment.Honest) (input : Node) :
    (ss : Selectors) → ss.WellFormed → ss.check scope.environment = [] →
    (ss.select scope input).Goes
  | .last selector, h, hcheck => selector.select_goes henv input h hcheck
  | .more selector _ rest, h, hcheck => by
    obtain ⟨hselector, hrest⟩ := h
    obtain ⟨hcheckSelector, hcheckRest⟩ := List.append_eq_nil_iff.mp hcheck
    rw [Selectors.select]
    exact .append (selector.select_goes henv input hselector hcheckSelector)
      (rest.select_goes henv input hrest hcheckRest)

theorem Selector.select_goes (henv : scope.environment.Honest) (input : Node) : (s : Selector) →
    s.WellFormed → s.check scope.environment = [] → (s.select scope input).Goes
  | .name .., _, _ | .index .., _, _ | .slice .., _, _ | .wildcard .., _, _
  | .missing .., _, _ => by
    rw [Selector.select]
    exact Traced.Calls.note (.pure fun _ _ => trivial) fun _ => trivial
  | .filter _ _ test, h, hcheck => by
    obtain ⟨hcheckTest, -⟩ := List.append_eq_nil_iff.mp hcheck
    rw [Selector.select]
    refine Traced.Calls.note ?_ fun _ => trivial
    refine .filter ?_
    intro n _
    refine (test.evaluate_gives henv n h hcheckTest).bind ?_
    intro result _
    exact .pure fun _ => trivial

/-- What an expression comes to has the form that the expression gives, and no call on the way
fails. -/
theorem Expr.evaluate_gives (henv : scope.environment.Honest) (current : Node) : (e : Expr) →
    e.WellFormed → e.check scope.environment = [] →
    (e.evaluate scope current).Calls fun result => e.Gives scope.environment result
  | .or _ first _ rest, h, hcheck => by
    obtain ⟨hfirst, hrest⟩ := h
    obtain ⟨hcheckBoth, hcheckRest⟩ := List.append_eq_nil_iff.mp hcheck
    obtain ⟨hcheckFirst, -⟩ := List.append_eq_nil_iff.mp hcheckBoth
    rw [Expr.evaluate]
    refine Traced.Calls.note ?_ fun _ => trivial
    refine (first.evaluate_gives henv current hfirst hcheckFirst).bind ?_
    intro result _
    split
    · exact .pure ⟨true, rfl⟩
    · refine (rest.some_calls henv current hrest hcheckRest).bind ?_
      intro b _
      exact .pure ⟨b, rfl⟩
  | .and _ first _ rest, h, hcheck => by
    obtain ⟨hfirst, hrest⟩ := h
    obtain ⟨hcheckBoth, hcheckRest⟩ := List.append_eq_nil_iff.mp hcheck
    obtain ⟨hcheckFirst, -⟩ := List.append_eq_nil_iff.mp hcheckBoth
    rw [Expr.evaluate]
    refine Traced.Calls.note ?_ fun _ => trivial
    refine (first.evaluate_gives henv current hfirst hcheckFirst).bind ?_
    intro result _
    split
    · refine (rest.all_calls henv current hrest hcheckRest).bind ?_
      intro b _
      exact .pure ⟨b, rfl⟩
    · exact .pure ⟨false, rfl⟩
  | .not _ _ inner, h, hcheck => by
    obtain ⟨hcheckInner, -⟩ := List.append_eq_nil_iff.mp hcheck
    rw [Expr.evaluate]
    refine Traced.Calls.note ?_ fun _ => trivial
    refine (inner.evaluate_gives henv current h hcheckInner).bind ?_
    intro result _
    exact .pure ⟨_, rfl⟩
  | .comparison _ left _ _ right, h, hcheck => by
    obtain ⟨-, -, hleft, hright⟩ := h
    obtain ⟨hcheckLeft, hcheckRight⟩ := List.append_eq_nil_iff.mp hcheck
    obtain ⟨-, hcheckLeft⟩ := List.append_eq_nil_iff.mp hcheckLeft
    obtain ⟨-, hcheckRight⟩ := List.append_eq_nil_iff.mp hcheckRight
    rw [Expr.evaluate]
    refine Traced.Calls.note ?_ fun _ => trivial
    refine (left.evaluate_gives henv current hleft hcheckLeft).bind ?_
    intro a _
    refine (right.evaluate_gives henv current hright hcheckRight).bind ?_
    intro b _
    exact .pure ⟨_, rfl⟩
  | .path _ p, h, hcheck => by
    rw [Expr.evaluate]
    refine Traced.Calls.note ?_ fun _ => trivial
    have hlength := p.follow_length_le scope (p.seed scope (some current))
    have hnodes : (p.follow scope (p.seed scope (some current))).Calls fun nodes =>
        p.isSingular = true → nodes.length ≤ 1 :=
      (p.follow_goes henv _ h hcheck).of_result hlength
    refine Traced.Holds.bind (Traced.Calls.note hnodes fun _ => trivial) ?_
    intro nodes hlength
    exact .pure ⟨nodes, rfl, hlength⟩
  | .call id name opening arguments closing, h, hcheck => by
    obtain ⟨hname, harguments⟩ := h
    obtain ⟨hcheckArguments, hcheckCall⟩ := List.append_eq_nil_iff.mp hcheck
    obtain ⟨f, hf, hcount, hsuits⟩ := checkCall_eq_nil hcheckCall hname
    rw [Expr.evaluate_call hf hcount]
    refine Traced.Calls.note ?_ fun _ => trivial
    refine (arguments.evaluate_fits henv current _ f.parameters harguments hcheckArguments hcount
      hsuits).bind ?_
    rintro _ ⟨results, rfl, hresults⟩
    refine f.call_holds (fun _ remark hremark => ⟨remark, hremark⟩) ?_
    exact ⟨f, hf, hcount, henv _ f hf results hresults⟩
  | .literal _ _ _, _, _ => by
    rw [Expr.evaluate]
    exact Traced.Calls.note (.pure rfl) fun _ => trivial
  | .parens _ _ inner _, h, hcheck => by
    obtain ⟨hcheckInner, htest⟩ := List.append_eq_nil_iff.mp hcheck
    rw [Expr.evaluate]
    refine Traced.Calls.note ?_ fun _ => trivial
    exact (inner.evaluate_gives henv current h hcheckInner).mono fun _ hgives => hgives.isTest htest
  | .missing _ _, h, _ => h.elim

theorem Operands.some_calls (henv : scope.environment.Honest) (current : Node) :
    (os : Operands) → os.WellFormed → os.checkTests scope.environment = [] →
    (os.some scope current).Calls fun _ => True
  | .last operand, h, hcheck => by
    obtain ⟨hcheckOperand, -⟩ := List.append_eq_nil_iff.mp hcheck
    rw [Operands.some]
    refine (operand.evaluate_gives henv current h hcheckOperand).bind ?_
    intro result _
    exact .pure trivial
  | .more operand _ rest, h, hcheck => by
    obtain ⟨hoperand, hrest⟩ := h
    obtain ⟨hcheckBoth, hcheckRest⟩ := List.append_eq_nil_iff.mp hcheck
    obtain ⟨hcheckOperand, -⟩ := List.append_eq_nil_iff.mp hcheckBoth
    rw [Operands.some]
    refine (operand.evaluate_gives henv current hoperand hcheckOperand).bind ?_
    intro result _
    split
    · exact .pure trivial
    · exact rest.some_calls henv current hrest hcheckRest

theorem Operands.all_calls (henv : scope.environment.Honest) (current : Node) :
    (os : Operands) → os.WellFormed → os.checkTests scope.environment = [] →
    (os.all scope current).Calls fun _ => True
  | .last operand, h, hcheck => by
    obtain ⟨hcheckOperand, -⟩ := List.append_eq_nil_iff.mp hcheck
    rw [Operands.all]
    refine (operand.evaluate_gives henv current h hcheckOperand).bind ?_
    intro result _
    exact .pure trivial
  | .more operand _ rest, h, hcheck => by
    obtain ⟨hoperand, hrest⟩ := h
    obtain ⟨hcheckBoth, hcheckRest⟩ := List.append_eq_nil_iff.mp hcheck
    obtain ⟨hcheckOperand, -⟩ := List.append_eq_nil_iff.mp hcheckBoth
    rw [Operands.all]
    refine (operand.evaluate_gives henv current hoperand hcheckOperand).bind ?_
    intro result _
    split
    · exact rest.all_calls henv current hrest hcheckRest
    · exact .pure trivial

/-- Arguments that suit their parameters become results of the parameters' kinds. -/
theorem Operands.evaluate_fits (henv : scope.environment.Honest) (current : Node)
    (trouble : CallTrouble → Traced Unit) (i : Nat) : (os : Operands) → (kinds : List Kind) →
    os.WellFormed → os.check scope.environment = [] → os.toList.length = kinds.length →
    (∀ p ∈ os.toList.zip kinds, p.1.suits scope.environment p.2 = true) →
    (os.evaluate scope current trouble i kinds).Calls fun arguments =>
      ∃ results, arguments = .some results ∧ Result.haveKinds kinds results = true
  | .last operand, [kind], h, hcheck, _, hsuits => by
    rw [Operands.evaluate]
    refine (operand.evaluate_gives henv current h hcheck).bind ?_
    intro result hresult
    obtain ⟨argument, hargument, hkind⟩ :=
      hresult.coerce? (hsuits (operand, kind) List.mem_cons_self)
    rw [hargument]
    exact .pure ⟨[argument], rfl, by simp [Result.haveKinds, hkind]⟩
  | .more operand _ rest, kind :: kinds, h, hcheck, hcount, hsuits => by
    obtain ⟨hoperand, hrest⟩ := h
    obtain ⟨hcheckOperand, hcheckRest⟩ := List.append_eq_nil_iff.mp hcheck
    rw [Operands.evaluate]
    refine (operand.evaluate_gives henv current hoperand hcheckOperand).bind ?_
    intro result hresult
    obtain ⟨argument, hargument, hkind⟩ :=
      hresult.coerce? (hsuits (operand, kind) List.mem_cons_self)
    rw [hargument]
    refine (rest.evaluate_fits henv current trouble (i + 1) kinds hrest hcheckRest
      (Nat.succ.inj hcount) fun p hp => hsuits p (List.mem_cons_of_mem _ hp)).bind ?_
    rintro _ ⟨results, rfl, hresults⟩
    exact .pure ⟨argument :: results, rfl, by simp [Result.haveKinds, hkind, hresults]⟩

theorem Arguments.evaluate_fits (henv : scope.environment.Honest) (current : Node)
    (trouble : CallTrouble → Traced Unit) : (as : Arguments) → (kinds : List Kind) →
    as.WellFormed → as.check scope.environment = [] → as.toList.length = kinds.length →
    (∀ p ∈ as.toList.zip kinds, p.1.suits scope.environment p.2 = true) →
    (as.evaluate scope current trouble kinds).Calls fun arguments =>
      ∃ results, arguments = .some results ∧ Result.haveKinds kinds results = true
  | .none, [], _, _, _, _ => .pure ⟨[], rfl, rfl⟩
  | .some operands, kinds, h, hcheck, hcount, hsuits =>
    operands.evaluate_fits henv current trouble 0 kinds h hcheck hcount hsuits

end

theorem Operands.forall_of_tests {env : Environment} (os : Operands) (h : os.WellFormed)
    (hcheck : os.checkTests env = []) :
    ∀ e ∈ os.toList, e.WellFormed ∧ e.check env = [] ∧ e.testFaults env = [] := by
  cases os with
  | last operand =>
    obtain ⟨hcheckOperand, htest⟩ := List.append_eq_nil_iff.mp hcheck
    exact List.forall_mem_singleton.mpr ⟨h, hcheckOperand, htest⟩
  | more operand _ rest =>
    obtain ⟨hoperand, hrest⟩ := h
    obtain ⟨hcheckBoth, hcheckRest⟩ := List.append_eq_nil_iff.mp hcheck
    obtain ⟨hcheckOperand, htest⟩ := List.append_eq_nil_iff.mp hcheckBoth
    exact List.forall_mem_cons.mpr
      ⟨⟨hoperand, hcheckOperand, htest⟩, forall_of_tests rest hrest hcheckRest⟩

/-- What may be tested comes to what can be tested. -/
theorem Expr.evaluate_isTest (henv : scope.environment.Honest) (current : Node) {e : Expr}
    (h : e.WellFormed) (hcheck : e.check scope.environment = [])
    (htest : e.testFaults scope.environment = []) :
    (e.evaluate scope current).result.IsTest :=
  (e.evaluate_gives henv current h hcheck).result.isTest htest

/-- In an expression that passes the check every part comes to what its use asks for. -/
theorem Expr.partsFit (henv : scope.environment.Honest) (current : Node) (e : Expr)
    (h : e.WellFormed) (hcheck : e.check scope.environment = []) :
    e.PartsFit scope current := by
  cases e with
  | or | and =>
    obtain ⟨hfirst, hrest⟩ := h
    obtain ⟨hcheckBoth, hcheckRest⟩ := List.append_eq_nil_iff.mp hcheck
    obtain ⟨hcheckFirst, htest⟩ := List.append_eq_nil_iff.mp hcheckBoth
    refine ⟨evaluate_isTest henv current hfirst hcheckFirst htest, ?_⟩
    intro e he
    obtain ⟨heWellFormed, heCheck, heTest⟩ := Operands.forall_of_tests _ hrest hcheckRest e he
    exact evaluate_isTest henv current heWellFormed heCheck heTest
  | not | parens =>
    obtain ⟨hcheckInner, htest⟩ := List.append_eq_nil_iff.mp hcheck
    exact evaluate_isTest henv current h hcheckInner htest
  | comparison id left operator op right =>
    obtain ⟨hcomparableLeft, hcomparableRight, hleft, hright⟩ := h
    obtain ⟨hcheckLeft, hcheckRight⟩ := List.append_eq_nil_iff.mp hcheck
    obtain ⟨hfaultsLeft, hcheckLeft⟩ := List.append_eq_nil_iff.mp hcheckLeft
    obtain ⟨hfaultsRight, hcheckRight⟩ := List.append_eq_nil_iff.mp hcheckRight
    have hgivesLeft := (left.evaluate_gives henv current hleft hcheckLeft).result
    have hgivesRight := (right.evaluate_gives henv current hright hcheckRight).result
    exact ⟨hgivesLeft.isComparable hcomparableLeft hfaultsLeft,
      hgivesRight.isComparable hcomparableRight hfaultsRight⟩
  | call id name opening arguments closing =>
    obtain ⟨hname, harguments⟩ := h
    obtain ⟨hcheckArguments, hcheckCall⟩ := List.append_eq_nil_iff.mp hcheck
    obtain ⟨f, hf, hcount, hsuits⟩ := checkCall_eq_nil hcheckCall hname
    obtain ⟨results, hresults, hkinds⟩ := (arguments.evaluate_fits henv current
      (warn name.text (arguments.toList.map range) (name.range.cover closing.range))
      f.parameters harguments hcheckArguments hcount hsuits).result
    refine ⟨f, results, hf, hcount, hresults, hkinds, ?_⟩
    rw [evaluate_call hf hcount, Traced.note_result, Traced.bind_result, hresults]
    rfl
  | path | literal | missing => trivial

end Evaluation

namespace Query

/-- Nothing goes wrong when the query is evaluated: no warning is about a call that cannot be
made, the parts of every expression come to what their use asks for, and every filter tests what
can be tested. -/
structure Fits (q : Query) (env : Environment) (document : Json) : Prop where
  warnings : ∀ w, Event.warning w ∈ (q.trace env document).events →
    ∃ remark, w.trouble = .remark remark
  expressions : ∀ e, Element.expression e ∈ q.tree.elements →
    ∀ current, e.PartsFit ⟨env, document⟩ current
  filters : ∀ id question test, Element.selector (.filter id question test) ∈ q.tree.elements →
    ∀ current, (test.evaluate ⟨env, document⟩ current).result.IsTest

/-- Accepted queries do not go wrong, whatever the document. -/
theorem fits_of_accept {env : Environment} {source : String} {q : Query}
    (haccept : accept env source = .ok q) (henv : env.Honest) (document : Json) :
    q.Fits env document := by
  obtain ⟨hpath, hcheck⟩ := wellFormed_of_accept haccept
  have helements := elements_accepted haccept
  have hhonest : (Scope.mk env document).environment.Honest := henv
  constructor
  case warnings =>
    intro w hw
    have hgoes := q.path.follow_goes hhonest (q.path.seed ⟨env, document⟩ none) hpath hcheck
    have htrace : (q.trace env document).Goes := Traced.Calls.note hgoes fun _ => trivial
    exact (htrace fun _ _ => trivial).1 _ hw
  case expressions =>
    intro e he current
    obtain ⟨hwellFormed, hcheckExpr⟩ := helements _ he
    exact e.partsFit hhonest current hwellFormed hcheckExpr
  case filters =>
    intro id question test htest current
    obtain ⟨hwellFormed, hcheckFilter⟩ := helements _ htest
    obtain ⟨hcheckTest, hfaults⟩ := List.append_eq_nil_iff.mp hcheckFilter
    exact test.evaluate_isTest hhonest current hwellFormed hcheckTest hfaults

/-- A query with calls as operands of a comparison and of a negation, for the values of an
array. -/
theorem fits_of_accept_standard :
    accept .standard "$[?count(@.*) > 1 && !match(@.a, 'x')]" =
      .ok (parse "$[?count(@.*) > 1 && !match(@.a, 'x')]") ∧
    Environment.standard.Honest ∧
    (parse "$[?count(@.*) > 1 && !match(@.a, 'x')]").Fits .standard
      (.array [.object [("a", .string "x"), ("b", .null)], .null]) := by
  have haccept : accept .standard "$[?count(@.*) > 1 && !match(@.a, 'x')]" =
      .ok (parse "$[?count(@.*) > 1 && !match(@.a, 'x')]") :=
    accept_of_faultless (by decide +kernel) (by decide +kernel)
  exact ⟨haccept, Environment.standard_honest,
    fits_of_accept haccept Environment.standard_honest _⟩

end Query

end JsonPath
