import JsonPath.Proofs.Environment.Honest
import JsonPath.Proofs.Evaluation.Plain
import JsonPath.Proofs.Evaluation.Slices

/-!
Evaluation never comes to a breach. Whatever the parser has made of a source, the evaluation with
every check on the way selects the same nodes and reports the same events as the plain one. A
function that relies on the kinds of its arguments is only called with such.
-/

namespace JsonPath

variable {α β : Type}

namespace Strict

theorem bind_of_ok {s : Strict α} {f : α → Strict β} {events later : List Event} {a : α}
    (h : s events = .ok (a, later)) : (s >>= f) events = f a later := by
  change (s events >>= fun found => f found.1 found.2) = _
  rw [h]
  rfl

theorem check_of_ok {outcome : Except Breach α} {a : α} (h : outcome = .ok a)
    (events : List Event) : check outcome events = .ok (a, events) := by
  rw [h]
  rfl

/-- To evaluate comes to no breach, and gives the result and the events of the plain evaluation. -/
def Does (s : Strict α) (t : Traced α) : Prop :=
  ∀ events, s events = .ok (t.result, events ++ t.events)

namespace Does

variable {s : Strict α} {t : Traced α}

theorem pure (a : α) : Does (Pure.pure a) (Pure.pure a) := by
  intro events
  change Except.ok (a, events) = .ok (a, events ++ [])
  rw [List.append_nil]

theorem bind {f : α → Strict β} {g : α → Traced β} (hs : Does s t)
    (hf : Does (f t.result) (g t.result)) : Does (s >>= f) (t >>= g) := by
  intro events
  rw [bind_of_ok (hs events), hf, List.append_assoc]
  rfl

/-- What is made of the result makes no difference. -/
theorem map {f : α → β} (hs : Does s t) :
    Does (do return f (← s)) (do return f (← t)) := hs.bind (pure _)

theorem notify (e : Event) : Does (Strict.notify e) (Traced.event e) := fun _ => rfl

theorem note (hs : Does s t) (describe : α → Event) :
    Does (Strict.note describe s) (Traced.note describe t) := by
  intro events
  rw [Strict.note, bind_of_ok (hs events)]
  change Except.ok (t.result, events ++ t.events ++ [describe t.result]) = _
  rw [List.append_assoc]
  rfl

/-- A check that succeeds leaves everything as it is. -/
theorem check {outcome : Except Breach α} {a : α} {f : α → Strict β} {t : Traced β}
    (h : outcome = .ok a) (hf : Does (f a) t) : Does (Strict.check outcome >>= f) t := by
  intro events
  rw [bind_of_ok (check_of_ok h events)]
  exact hf events

end Does

/-- To append comes to no breach, and appends the nodes of the plain evaluation. -/
def Adds (s : List Node → Strict (List Node)) (t : Traced (List Node)) : Prop :=
  ∀ output events, s output events = .ok (output ++ t.result, events ++ t.events)

namespace Adds

variable {s s' : List Node → Strict (List Node)} {t t' : Traced (List Node)}

theorem pure (nodes : List Node) :
    Adds (fun output => return output ++ nodes) (Pure.pure nodes) := by
  intro output events
  change Except.ok (output ++ nodes, events) = .ok (output ++ nodes, events ++ [])
  rw [List.append_nil]

theorem nil : Adds (fun output => return output) (Pure.pure []) := by
  intro output events
  change Except.ok (output, events) = .ok (output ++ [], events ++ [])
  rw [List.append_nil, List.append_nil]

theorem seq (hs : Adds s t) (ht : Adds s' t') :
    Adds (fun output => do s' (← s output)) (do return (← t) ++ (← t')) := by
  intro output events
  change (s output >>= s') events = _
  rw [bind_of_ok (hs output events), ht, List.append_assoc, List.append_assoc, Traced.append_eq]

/-- What has been appended is what the plain evaluation gives. -/
theorem append (hs : Adds s t) (describe : List Node → Event) :
    Adds (Strict.append describe s) (Traced.note describe t) := by
  intro output events
  have hitems : itemsFrom (output ++ t.result) output.length = .ok t.result := by
    rw [itemsFrom, if_pos (by simp), List.drop_left]
  rw [Strict.append, bind_of_ok (hs output events), bind_of_ok (check_of_ok hitems _)]
  change Except.ok (output ++ t.result, events ++ t.events ++ [describe t.result]) = _
  rw [List.append_assoc]
  rfl

theorem each {select : Node → List Node → Strict (List Node)} {plain : Node → Traced (List Node)}
    (h : ∀ n, Adds (select n) (plain n)) (nodes : List Node) :
    Adds (Strict.each select nodes) (Traced.collect plain nodes) := by
  induction nodes with
  | nil => exact nil
  | cons n rest ih => exact (h n).seq ih

theorem filter {test : Node → Strict Bool} {plain : Node → Traced Bool}
    (h : ∀ n, Does (test n) (plain n)) (nodes : List Node) :
    Adds (Strict.filter test nodes) (Traced.filter plain nodes) := by
  induction nodes with
  | nil => exact nil
  | cons n rest ih =>
    intro output events
    rw [Strict.filter, bind_of_ok (h n events), Traced.filter]
    change (if (plain n).result then Strict.filter test rest (output ++ [n])
      else Strict.filter test rest output) (events ++ (plain n).events) = .ok
        (output ++ (if (plain n).result then n :: (Traced.filter plain rest).result
          else (Traced.filter plain rest).result),
        events ++ ((plain n).events ++ ((Traced.filter plain rest).events ++ [])))
    rw [List.append_nil, ← List.append_assoc]
    cases (plain n).result with
    | true =>
      rw [if_pos rfl, if_pos rfl, ih, List.append_assoc output]
      rfl
    | false => rw [if_neg Bool.false_ne_true, if_neg Bool.false_ne_true, ih]

section Visit

variable {select : Node → List Node → Strict (List Node)} {plain : Node → Traced (List Node)}

mutual

theorem visit (h : ∀ n, Adds (select n) (plain n)) (l : Location) : (v : Json) →
    Adds (fun output => Strict.visit select l output v) (descend plain l v)
  | .array items => by
    simp only [Strict.visit, descend]
    exact (h _).seq (visitItems h l 0 items)
  | .object members => by
    simp only [Strict.visit, descend]
    exact (h _).seq (visitMembers h l members)
  | .null | .bool _ | .number _ | .string _ => by
    simp only [Strict.visit, descend]
    exact h _

theorem visitItems (h : ∀ n, Adds (select n) (plain n)) (l : Location) (i : Nat) :
    (items : List Json) →
    Adds (fun output => Strict.visitItems select l i output items) (descendItems plain l i items)
  | [] => by
    simp only [Strict.visitItems, descendItems]
    exact nil
  | item :: rest => by
    simp only [Strict.visitItems, descendItems]
    exact (visit h (l ++ [.index i]) item).seq (visitItems h l (i + 1) rest)

theorem visitMembers (h : ∀ n, Adds (select n) (plain n)) (l : Location) :
    (members : List (String × Json)) →
    Adds (fun output => Strict.visitMembers select l output members)
      (descendMembers plain l members)
  | [] => by
    simp only [Strict.visitMembers, descendMembers]
    exact nil
  | (name, value) :: rest => by
    simp only [Strict.visitMembers, descendMembers]
    exact (visit h (l ++ [.name name]) value).seq (visitMembers h l rest)

end

theorem reach (h : ∀ n, Adds (select n) (plain n)) (descendant : Bool) (n : Node) :
    Adds (Strict.reach descendant select n) (JsonPath.reach descendant plain n) := by
  cases descendant with
  | true => exact visit h n.location n.value
  | false => exact h n

end Visit

/-- Positions inside an array have items. -/
theorem items {n : Node} {values : List Json} (hvalue : n.value = .array values)
    (positions : List Nat) (h : ∀ i ∈ positions, i < values.length) :
    Adds (Strict.items n.location values (positions.map fun (i : Nat) => (i : Int)))
      (Pure.pure (positions.filterMap fun i => n.child? (.index i))) := by
  induction positions with
  | nil => exact nil
  | cons i rest ih =>
    obtain ⟨hi, hrest⟩ := List.forall_mem_cons.mp h
    have hitem : itemAt values (i : Int) = .ok values[i] := by
      simp [itemAt, hi]
    have hchild : n.child? (.index i) = some ⟨values[i], n.location ++ [.index i]⟩ := by
      simp [Node.child?, Json.child?, hvalue, hi]
    intro output events
    rw [List.map_cons, Strict.items, bind_of_ok (check_of_ok hitem events), ih hrest,
      List.filterMap_cons, hchild, List.append_assoc]
    rfl

theorem slice (n : Node) {start stop step : Option Int} (hstart : Slice.IsBound start)
    (hstop : Slice.IsBound stop) (hstep : Slice.IsBound step) :
    Adds (Strict.slice n start stop step) (Pure.pure (n.slice start stop step)) := by
  intro output events
  unfold Strict.slice Node.slice
  cases hvalue : n.value with
  | array values =>
    have hwalk := Slice.walk_eq values.length hstart hstop hstep
    dsimp only
    rw [bind_of_ok (check_of_ok hwalk events)]
    exact items hvalue _ Slice.lt_of_mem_positions output events
  | null | bool | number | string | object => exact nil output events

end Adds

theorem Does.warn (function : String) (arguments : List Range) (call : Range)
    (trouble : CallTrouble) :
    Does (Strict.warn function arguments call trouble)
      (JsonPath.warn function arguments call trouble) := by
  unfold Strict.warn JsonPath.warn
  dsimp only
  cases (CallWarning.argument? ⟨function, trouble, call⟩) with
  | none => exact notify _
  | some i =>
    dsimp only
    split
    · rename_i hi
      have hitem : itemAt arguments (i : Int) = .ok arguments[i] := by
        simp [itemAt, hi]
      refine check hitem ?_
      simp only [Option.bind_some, List.getElem?_eq_getElem hi, Option.getD_some]
      exact notify _
    · rename_i hi
      simp only [Option.bind_some, List.getElem?_eq_none (Nat.le_of_not_lt hi), Option.getD_none]
      exact notify _

theorem Does.warnAll (function : String) (arguments : List Range) (call : Range)
    (remarks : List Remark) :
    Does (Strict.warnAll function arguments call remarks)
      (remarks.forM fun remark => JsonPath.warn function arguments call (.remark remark)) := by
  induction remarks with
  | nil => exact pure ()
  | cons remark rest ih => exact (Does.warn function arguments call _).bind ih

end Strict

/-- Given arguments of the kinds that it declares, the function does as the other. -/
structure StrictFunction.Agrees (g : StrictFunction) (f : Function) : Prop where
  parameters : g.parameters = f.parameters
  returns : g.returns = f.returns
  run : ∀ arguments, Result.haveKinds f.parameters arguments = true →
    g.run arguments = .ok (f.run arguments)

namespace StrictFunction

theorem ofFunction_agrees (f : Function) : (ofFunction f).Agrees f := ⟨rfl, rfl, fun _ _ => rfl⟩

theorem nodes_of_haveKinds {arguments : List Result}
    (h : Result.haveKinds [.nodes] arguments = true) : ∃ ns, arguments = [.nodes ns] := by
  match arguments, h with
  | [.nodes ns], _ => exact ⟨ns, rfl⟩

theorem count_agrees : count.Agrees .count where
  parameters := rfl
  returns := rfl
  run arguments h := by
    obtain ⟨ns, rfl⟩ := nodes_of_haveKinds h
    rfl

theorem value_agrees : value.Agrees .value where
  parameters := rfl
  returns := rfl
  run arguments h := by
    obtain ⟨ns, rfl⟩ := nodes_of_haveKinds h
    match ns with
    | [] => rfl
    | [n] => rfl
    | _ :: _ :: _ => simp [value, Function.value, Result.single]

/-- The functions agree, name by name. -/
def AgreeAll (functions : Fields StrictFunction) (env : Environment) : Prop :=
  ∀ name, Option.Rel Agrees (functions.get? name) (env.function? name)

theorem AgreeAll.insert {functions : Fields StrictFunction} {env : Environment}
    (h : AgreeAll functions env) (name : String) {g : StrictFunction} {f : Function}
    (hg : g.Agrees f) : AgreeAll (functions.insert name g) (env.define name f) := by
  intro other
  rw [Environment.function?, Environment.define, Fields.get?_insert, Fields.get?_insert]
  split
  · exact .some hg
  · exact h other

/-- The standard functions for a checked evaluation do as the plain ones where they are given what
they declare. -/
theorem standard_agree : AgreeAll standard .standard :=
  ((((AgreeAll.insert (fun _ => .none) _ count_agrees).insert _ (ofFunction_agrees _)).insert
    _ (ofFunction_agrees _)).insert _ (ofFunction_agrees _)).insert _ value_agrees

example : count.run [.value .null] = .error (.argument "count") := rfl

end StrictFunction

namespace Strict

/-- The functions of a checked evaluation agree with those of a plain one of the same document. -/
structure Scope.Agrees (strict : Strict.Scope) (scope : JsonPath.Scope) : Prop where
  functions : StrictFunction.AgreeAll strict.functions scope.environment
  document : strict.document = scope.document

theorem Scope.Agrees.seed {strict : Strict.Scope} {scope : JsonPath.Scope}
    (h : strict.Agrees scope) (current : Option Node) (p : Path) :
    Strict.seed strict current p = p.seed scope current := by
  cases current <;> simp only [Strict.seed, Path.seed, h.document]

end Strict

theorem Result.hasKind_of_coerce? {r result : Result} {kind : Kind}
    (h : r.coerce? kind = some result) : result.hasKind kind = true := by
  cases kind with
  | value =>
    cases r with
    | value | nothing => cases h; rfl
    | nodes ns => cases h; exact single_hasKind_value ns
    | logical => cases h
  | logical =>
    cases r with
    | logical | nodes => cases h; rfl
    | value | nothing => cases h
  | nodes =>
    cases r with
    | nodes => cases h; rfl
    | value | nothing | logical => cases h

/-- Arguments that are as many as the parameters come to results of their kinds. -/
theorem Operands.haveKinds_results (scope : Scope) (current : Node) : (os : Operands) →
    (kinds : List Kind) → os.toList.length = kinds.length → ∀ results,
    os.results scope current kinds = .some results → Result.haveKinds kinds results = true
  | .last operand, [kind], _, results, h => by
    obtain ⟨result, hresult, rfl⟩ := Option.map_eq_some_iff.mp h
    simp [Result.haveKinds, Result.hasKind_of_coerce? hresult]
  | .more operand _ rest, kind :: kinds, hlength, results, h => by
    rw [Operands.results] at h
    obtain ⟨result, hresult, h⟩ := Option.bind_eq_some_iff.mp h
    obtain ⟨others, hothers, rfl⟩ := Option.map_eq_some_iff.mp h
    have hrest := rest.haveKinds_results scope current kinds (Nat.succ_inj.mp hlength) _ hothers
    simp [Result.haveKinds, Result.hasKind_of_coerce? hresult, hrest]
  | .last _, _ :: _ :: _, hlength, _, _ => by simp [Operands.toList] at hlength
  | .last _, [], hlength, _, _ => by simp [Operands.toList] at hlength
  | .more _ _ _, [], hlength, _, _ => by simp [Operands.toList] at hlength

theorem Arguments.haveKinds_results (scope : Scope) (current : Node) (as : Arguments)
    (kinds : List Kind) (hlength : as.toList.length = kinds.length) (results : List Result)
    (h : as.results scope current kinds = .some results) :
    Result.haveKinds kinds results = true := by
  cases as with
  | none =>
    rw [Arguments.results] at h
    cases h
    cases kinds with
    | nil => rfl
    | cons => cases hlength
  | some operands => exact operands.haveKinds_results scope current kinds hlength results h

theorem Bound.Regular.isBound {b : Option Bound} (h : Bound.Regular b) :
    Slice.IsBound (b.map (·.value)) := by
  intro n hn
  obtain ⟨bound, hbound, rfl⟩ := Option.map_eq_some_iff.mp hn
  exact h bound hbound

open Strict

section Trees

variable {strict : Strict.Scope} {scope : Scope}

mutual

theorem Path.follow_does (h : strict.Agrees scope) (start : Node) : (p : Path) →
    (∀ t ∈ p.parts, t.Regular) → Does (Strict.follow strict start p) (p.follow scope start)
  | .root _ _, _ => by
    rw [Strict.follow, Path.follow]
    exact .pure [start]
  | .step before segment, hregular => by
    obtain ⟨hbefore, hsegment⟩ := List.forall_mem_append.mp hregular
    have hregular := List.forall_mem_singleton.mp hsegment
    have hselect := Adds.each fun n => segment.select_adds h n hregular
    rw [Strict.follow, Path.follow]
    exact (before.follow_does h start hbefore).bind (hselect _ [])

theorem Segment.select_adds (h : strict.Agrees scope) (input : Node) : (s : Segment) →
    s.tree.Regular → Adds (fun output => selectSegment strict input output s)
      (s.select scope input)
  | .shorthand id dots selector, hregular => by
    obtain ⟨-, hchildren⟩ := Tree.all_node.mp hregular
    have hselector : selector.tree.Regular := hchildren _ (by simp)
    simp only [selectSegment, Segment.select]
    exact (Adds.reach (fun n => selector.select_adds h n hselector) _ input).append _
  | .bracketed id dots opening selectors closing, hregular => by
    obtain ⟨-, hchildren⟩ := Tree.all_node.mp hregular
    have hselectors : ∀ t ∈ selectors.trees, t.Regular := fun t ht => hchildren t (by simp [ht])
    simp only [selectSegment, Segment.select]
    exact (Adds.reach (fun n => selectors.select_adds h n hselectors) _ input).append _

theorem Selectors.select_adds (h : strict.Agrees scope) (input : Node) : (ss : Selectors) →
    (∀ t ∈ ss.trees, t.Regular) → Adds (fun output => selectEach strict input output ss)
      (ss.select scope input)
  | .last selector, hregular => by
    simp only [selectEach, Selectors.select]
    exact selector.select_adds h input (List.forall_mem_singleton.mp hregular)
  | .more selector comma rest, hregular => by
    obtain ⟨hselector, hothers⟩ := List.forall_mem_cons.mp hregular
    obtain ⟨-, hrest⟩ := List.forall_mem_cons.mp hothers
    simp only [selectEach, Selectors.select]
    exact (selector.select_adds h input hselector).seq (rest.select_adds h input hrest)

theorem Selector.select_adds (h : strict.Agrees scope) (input : Node) : (s : Selector) →
    s.tree.Regular → Adds (fun output => Strict.select strict input output s)
      (s.select scope input)
  | .name id token value, _ => by
    simp only [Strict.select, Selector.select]
    exact (Adds.pure _).append _
  | .index id token value, _ => by
    simp only [Strict.select, Selector.select]
    exact (Adds.pure _).append _
  | .slice id start colon stop step, hregular => by
    obtain ⟨⟨hstart, hstop, hstep⟩, -⟩ := Tree.all_node.mp hregular
    simp only [Strict.select, Selector.select]
    exact (Adds.slice input hstart.isBound hstop.isBound hstep.isBound).append _
  | .wildcard id token, _ => by
    simp only [Strict.select, Selector.select]
    exact (Adds.pure _).append _
  | .filter id question test, hregular => by
    obtain ⟨-, hchildren⟩ := Tree.all_node.mp hregular
    have htest : test.tree.Regular := hchildren _ (by simp)
    simp only [Strict.select, Selector.select]
    exact (Adds.filter (fun n => (test.evaluate_does h n htest).map) _).append _
  | .missing id token, _ => by
    simp only [Strict.select, Selector.select]
    exact Adds.nil.append _

theorem Expr.evaluate_does (h : strict.Agrees scope) (current : Node) : (e : Expr) →
    e.tree.Regular → Does (Strict.evaluate strict current e) (e.evaluate scope current)
  | .or id first operator rest, hregular => by
    obtain ⟨-, hchildren⟩ := Tree.all_node.mp hregular
    have hfirst : first.tree.Regular := hchildren _ (by simp)
    have hrest : ∀ t ∈ rest.trees, t.Regular := fun t ht => hchildren t (by simp [ht])
    rw [Strict.evaluate, Expr.evaluate]
    refine ((first.evaluate_does h current hfirst).bind ?_).note _
    cases (first.evaluate scope current).result.holds with
    | true => exact .pure _
    | false => exact (rest.some_does h current hrest).map
  | .and id first operator rest, hregular => by
    obtain ⟨-, hchildren⟩ := Tree.all_node.mp hregular
    have hfirst : first.tree.Regular := hchildren _ (by simp)
    have hrest : ∀ t ∈ rest.trees, t.Regular := fun t ht => hchildren t (by simp [ht])
    rw [Strict.evaluate, Expr.evaluate]
    refine ((first.evaluate_does h current hfirst).bind ?_).note _
    cases (first.evaluate scope current).result.holds with
    | true => exact (rest.all_does h current hrest).map
    | false => exact .pure _
  | .not id bang inner, hregular => by
    obtain ⟨-, hchildren⟩ := Tree.all_node.mp hregular
    have hinner : inner.tree.Regular := hchildren _ (by simp)
    rw [Strict.evaluate, Expr.evaluate]
    exact (inner.evaluate_does h current hinner).map.note _
  | .comparison id left operator op right, hregular => by
    obtain ⟨-, hchildren⟩ := Tree.all_node.mp hregular
    have hleft : left.tree.Regular := hchildren _ (by simp)
    have hright : right.tree.Regular := hchildren _ (by simp)
    rw [Strict.evaluate, Expr.evaluate]
    refine ((left.evaluate_does h current hleft).bind ?_).note _
    exact (right.evaluate_does h current hright).map
  | .path id p, hregular => by
    obtain ⟨-, hchildren⟩ := Tree.all_node.mp hregular
    obtain ⟨-, hparts⟩ := Tree.all_node.mp (List.forall_mem_singleton.mp hchildren)
    rw [Strict.evaluate, Expr.evaluate, h.seed]
    exact ((p.follow_does h _ hparts).note _).map.note _
  | .call id name opening arguments closing, hregular => by
    obtain ⟨-, hchildren⟩ := Tree.all_node.mp hregular
    have harguments : ∀ t ∈ arguments.trees, t.Regular := fun t ht => hchildren t (by simp [ht])
    have hfunction := h.functions name.text
    rw [Strict.evaluate, Expr.evaluate]
    refine Does.note ?_ _
    dsimp only
    generalize strict.functions.get? name.text = g at hfunction ⊢
    generalize scope.environment.function? name.text = f at hfunction ⊢
    cases hfunction with
    | none => exact (Does.warn _ _ _ _).bind (.pure _)
    | @some g f hagrees =>
      dsimp only
      rw [hagrees.parameters, hagrees.returns]
      split
      · exact (Does.warn _ _ _ _).bind (.pure _)
      · rename_i hlength
        refine (arguments.evaluate_does h current (fun _ => Does.warn _ _ _ _) harguments _).bind ?_
        rw [arguments.evaluate_result]
        cases hresults : arguments.results scope current f.parameters with
        | none => exact .pure _
        | some results =>
          have hkinds :=
            arguments.haveKinds_results scope current _ (by simpa using hlength) _ hresults
          refine Does.check (hagrees.run results hkinds) ?_
          exact (Does.warnAll _ _ _ _).bind (.pure _)
  | .literal id token value, _ => by
    rw [Strict.evaluate, Expr.evaluate]
    exact (Does.pure _).note _
  | .parens id opening inner closing, hregular => by
    obtain ⟨-, hchildren⟩ := Tree.all_node.mp hregular
    have hinner : inner.tree.Regular := hchildren _ (by simp)
    rw [Strict.evaluate, Expr.evaluate]
    exact (inner.evaluate_does h current hinner).note _
  | .missing id token, _ => by
    rw [Strict.evaluate, Expr.evaluate]
    exact (Does.pure _).note _

theorem Operands.some_does (h : strict.Agrees scope) (current : Node) : (os : Operands) →
    (∀ t ∈ os.trees, t.Regular) → Does (anyHolds strict current os) (os.some scope current)
  | .last operand, hregular => by
    rw [anyHolds, Operands.some]
    exact (operand.evaluate_does h current (List.forall_mem_singleton.mp hregular)).map
  | .more operand separator rest, hregular => by
    obtain ⟨hoperand, hothers⟩ := List.forall_mem_cons.mp hregular
    obtain ⟨-, hrest⟩ := List.forall_mem_cons.mp hothers
    rw [anyHolds, Operands.some]
    refine (operand.evaluate_does h current hoperand).bind ?_
    cases (operand.evaluate scope current).result.holds with
    | true => exact .pure _
    | false => exact rest.some_does h current hrest

theorem Operands.all_does (h : strict.Agrees scope) (current : Node) : (os : Operands) →
    (∀ t ∈ os.trees, t.Regular) → Does (allHold strict current os) (os.all scope current)
  | .last operand, hregular => by
    rw [allHold, Operands.all]
    exact (operand.evaluate_does h current (List.forall_mem_singleton.mp hregular)).map
  | .more operand separator rest, hregular => by
    obtain ⟨hoperand, hothers⟩ := List.forall_mem_cons.mp hregular
    obtain ⟨-, hrest⟩ := List.forall_mem_cons.mp hothers
    rw [allHold, Operands.all]
    refine (operand.evaluate_does h current hoperand).bind ?_
    cases (operand.evaluate scope current).result.holds with
    | true => exact rest.all_does h current hrest
    | false => exact .pure _

theorem Operands.evaluate_does (h : strict.Agrees scope) (current : Node)
    {trouble : CallTrouble → Strict Unit} {plain : CallTrouble → Traced Unit}
    (htrouble : ∀ t, Does (trouble t) (plain t)) (i : Nat) : (os : Operands) →
    (∀ t ∈ os.trees, t.Regular) → (kinds : List Kind) →
    Does (prepareEach strict current trouble i os kinds) (os.evaluate scope current plain i kinds)
  | .last operand, hregular, kind :: _ => by
    have hoperand : operand.tree.Regular := List.forall_mem_singleton.mp hregular
    rw [prepareEach, Operands.evaluate]
    refine (operand.evaluate_does h current hoperand).bind ?_
    cases (operand.evaluate scope current).result.coerce? kind with
    | some => exact .pure _
    | none => exact (htrouble _).bind (.pure _)
  | .more operand separator rest, hregular, kind :: kinds => by
    obtain ⟨hoperand, hothers⟩ := List.forall_mem_cons.mp hregular
    obtain ⟨-, hrest⟩ := List.forall_mem_cons.mp hothers
    rw [prepareEach, Operands.evaluate]
    refine (operand.evaluate_does h current hoperand).bind ?_
    cases (operand.evaluate scope current).result.coerce? kind with
    | some => exact (rest.evaluate_does h current htrouble (i + 1) hrest kinds).map
    | none => exact (htrouble _).bind (.pure _)
  | .last _, _, [] | .more _ _ _, _, [] => by
    rw [prepareEach, Operands.evaluate]
    exact .pure _

theorem Arguments.evaluate_does (h : strict.Agrees scope) (current : Node)
    {trouble : CallTrouble → Strict Unit} {plain : CallTrouble → Traced Unit}
    (htrouble : ∀ t, Does (trouble t) (plain t)) : (as : Arguments) →
    (∀ t ∈ as.trees, t.Regular) → (kinds : List Kind) →
    Does (prepare strict current trouble as kinds) (as.evaluate scope current plain kinds)
  | .none, _, _ => by
    rw [prepare, Arguments.evaluate]
    exact .pure _
  | .some operands, hregular, kinds => by
    rw [prepare, Arguments.evaluate]
    exact operands.evaluate_does h current htrouble 0 hregular kinds

end

end Trees

namespace Query

/-- The checked evaluation of a regular tree, with functions that do as those of the environment
where they are given what they declare. -/
theorem evaluate_eq {functions : Fields StrictFunction} {env : Environment}
    (h : StrictFunction.AgreeAll functions env) {q : Query} (hq : q.tree.Regular)
    (document : Json) :
    q.evaluate functions document =
      .ok ((q.trace env document).result, (q.trace env document).events) := by
  have hagrees : Strict.Scope.Agrees ⟨functions, document⟩ ⟨env, document⟩ := ⟨h, rfl⟩
  obtain ⟨-, hchildren⟩ := Tree.all_node.mp hq
  obtain ⟨-, hparts⟩ := Tree.all_node.mp (hchildren q.path.tree List.mem_cons_self)
  exact (q.path.follow_does hagrees (.root document) hparts).note _ []

/-- Nothing that must not happen happens while a source is evaluated. -/
structure Safe (source : String) (document : Json) : Prop where
  /-- The evaluation with every check on the way ends without a breach, with the nodes and the
  events of the plain one. -/
  evaluates : (parse source).evaluate StrictFunction.standard document =
    .ok ((parse source).find .standard document,
      ((parse source).trace .standard document).events)
  /-- What a slice selects from an array of any length lies inside it. -/
  positions : ∀ (length : Nat) (start stop step : Option Int),
    ∀ i ∈ Slice.positions length start stop step, i < length
  selectors : ∀ s, Element.segment s ∈ (parse source).tree.elements → s.selectors ≠ []

theorem parse_safe (source : String) (document : Json) : Safe source document where
  evaluates := evaluate_eq StrictFunction.standard_agree (parse_regular source) document
  positions _ _ _ _ := Slice.lt_of_mem_positions
  selectors s _ := by
    cases s with
    | shorthand => exact List.cons_ne_nil _ _
    | bracketed _ _ _ selectors _ => exact selectors.toList_ne_nil

end Query

end JsonPath
