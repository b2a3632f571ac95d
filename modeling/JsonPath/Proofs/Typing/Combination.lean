import JsonPath.Proofs.DataType.Exact
import JsonPath.Proofs.Evaluation.Plain
import JsonPath.Proofs.Typing.Soundness
import Mathlib.Logic.Basic

/-!
Tests that are put together by operators and parentheses. A conjunction that comes out true and a
disjunction that comes out false tell the outcome of all operands, and the other two cases that of
some operand. Candidates are narrowed accordingly, so that what is shown of single tests passes to
their combinations by one argument for both operators.
-/

namespace JsonPath

namespace Operands

theorem narrowEach_eq (s : TypeScope) (b : Bool) (t : DataType) (os : Operands) :
    os.narrowEach s b t = os.toList.map fun o => o.narrow s b t := by
  cases os with
  | last operand => rfl
  | more operand operator rest =>
    rw [toList, List.map_cons, ← narrowEach_eq s b t rest]
    rfl

theorem anyHolds_eq (scope : Scope) (current : Node) (os : Operands) :
    os.anyHolds scope current = os.toList.any fun o => (o.result scope current).holds := by
  cases os with
  | last operand => rw [anyHolds, toList, List.any_cons, List.any_nil, Bool.or_false]
  | more operand operator rest =>
    rw [anyHolds, toList, List.any_cons, anyHolds_eq scope current rest]

theorem allHold_eq (scope : Scope) (current : Node) (os : Operands) :
    os.allHold scope current = os.toList.all fun o => (o.result scope current).holds := by
  cases os with
  | last operand => rw [allHold, toList, List.all_cons, List.all_nil, Bool.and_true]
  | more operand operator rest =>
    rw [allHold, toList, List.all_cons, allHold_eq scope current rest]

end Operands

section Together

/-- What holds of all types, or of one, that a function makes of several things. -/
theorem together_map_iff {α : Type} {all : Bool} {f : α → DataType} {P : DataType → Prop} {a : α}
    {others : List α} :
    (if all then ∀ u ∈ f a :: others.map f, P u else ∃ u ∈ f a :: others.map f, P u) ↔
      if all then ∀ o ∈ a :: others, P (f o) else ∃ o ∈ a :: others, P (f o) := by
  cases all <;> simp

variable {S : NumberSet} {all : Bool} {first : DataType} {others : List DataType} {v : Json}

/-- What all tests leave is what each of them leaves, and what some leave is what one leaves. -/
theorem describes_narrowTogether_iff (hv : v.Over S) (hfirst : first.Normal S)
    (hothers : ∀ u ∈ others, u.Normal S) :
    (narrowTogether all first others).Describes (some v) ↔
      if all then ∀ u ∈ first :: others, u.Describes (some v)
      else ∃ u ∈ first :: others, u.Describes (some v) := by
  have hstands := DataType.standsFor_ofJson hv
  unfold narrowTogether
  split
  · rw [hstands.describes_foldl_intersect_iff hfirst hothers, List.forall_mem_cons]
  · exact hstands.describes_unionOf_iff (List.forall_mem_cons.mpr ⟨hfirst, hothers⟩)

end Together

namespace Expr

/-- The expression joins several others by an operator. Where `all` says so of an outcome, this is
the outcome of all of them, and otherwise of one. -/
structure Joins (e first : Expr) (others : List Expr) (all : Bool → Bool) : Prop where
  narrow : ∀ s b t, e.narrow s b t =
    narrowTogether (all b) (first.narrow s b t) (others.map fun o => o.narrow s b t)
  holds_iff : ∀ scope current b, (e.result scope current).holds = b ↔
    if all b then ∀ o ∈ first :: others, (o.result scope current).holds = b
      else ∃ o ∈ first :: others, (o.result scope current).holds = b

variable {id : Nat} {first : Expr} {operator : Token} {rest : Operands}

/-- A conjunction is true if all operands are, and false if one is. -/
theorem joins_and : (and id first operator rest).Joins first rest.toList fun b => b where
  narrow s b t := by
    rw [← Operands.narrowEach_eq, Expr.narrow]
  holds_iff scope current b := by
    rw [Expr.result, Operands.allHold_eq, Result.holds]
    cases b <;> cases hfirst : (first.result scope current).holds <;> simp [hfirst]

/-- A disjunction is false if all operands are, and true if one is. -/
theorem joins_or : (or id first operator rest).Joins first rest.toList fun b => !b where
  narrow s b t := by
    rw [← Operands.narrowEach_eq, Expr.narrow]
  holds_iff scope current b := by
    rw [Expr.result, Operands.anyHolds_eq, Result.holds]
    cases b <;> cases hfirst : (first.result scope current).holds <;> simp [hfirst]

/-- A path that leads to a location comes to what is there, as a test and in comparisons. -/
theorem result_path {id : Nat} {p : Path} {l : Location} (h : p.relativeLocation? = some l)
    (scope : Scope) (current : Node) :
    ((path id p).result scope current).single = .ofValue? (current.value.at? l) ∧
      ((path id p).result scope current).holds = (current.value.at? l).isSome := by
  rw [Expr.result]
  apply Result.nodes_eq
  rw [← Path.follow_result]
  exact p.follow_relative h scope current

/-- The expression is made of tests of some sort, by operators and parentheses. -/
inductive Combines (A : Expr → Prop) : Expr → Prop
  | test {e : Expr} (test : A e) : Combines A e
  | and {id : Nat} {first : Expr} {operator : Token} {rest : Operands} (start : Combines A first)
      (each : ∀ o ∈ rest.toList, Combines A o) : Combines A (.and id first operator rest)
  | or {id : Nat} {first : Expr} {operator : Token} {rest : Operands} (start : Combines A first)
      (each : ∀ o ∈ rest.toList, Combines A o) : Combines A (.or id first operator rest)
  | not {id : Nat} {bang : Token} {inner : Expr} (inside : Combines A inner) :
      Combines A (.not id bang inner)
  | parens {id : Nat} {opening closing : Token} {inner : Expr} (inside : Combines A inner) :
      Combines A (.parens id opening inner closing)

variable {A : Expr → Prop} {e : Expr}

/-- What holds of tests and passes to negations, to parentheses and to joined expressions holds of
all combinations. -/
theorem Combines.of_joins {motive : Expr → Prop} (h : e.Combines A)
    (test : ∀ e, A e → motive e)
    (not : ∀ id bang inner, motive inner → motive (.not id bang inner))
    (parens : ∀ id opening inner closing, motive inner → motive (.parens id opening inner closing))
    (joins : ∀ e first others all, e.Joins first others all → (∀ o ∈ first :: others, motive o) →
      motive e) : motive e := by
  induction h with
  | test htest => exact test _ htest
  | and _ _ ihfirst ihothers =>
    exact joins _ _ _ _ joins_and (List.forall_mem_cons.mpr ⟨ihfirst, ihothers⟩)
  | or _ _ ihfirst ihothers =>
    exact joins _ _ _ _ joins_or (List.forall_mem_cons.mpr ⟨ihfirst, ihothers⟩)
  | not _ ih => exact not _ _ _ ih
  | parens _ ih => exact parens _ _ _ _ ih

end Expr

section Written

/-- A token of a kind, without a text that it comes from. -/
def Token.bare (kind : TokenKind) : Token := ⟨0, kind, "", "", ⟨0, 0⟩, false⟩

/-- The child segment that takes one step. -/
def Segment.taking : Step → Segment
  | .name name => .shorthand 0 (.bare .dot) (.name 0 (.bare .name) name)
  | .index i => .bracketed 0 none (.bare .leftBracket) (.last (.index 0 (.bare .number) i))
      (.bare .rightBracket)

/-- The path to a location below the current value. -/
def Path.leadingTo (l : Location) : Path :=
  l.foldl (fun before step => .step before (.taking step)) (.root 0 (.bare .current))

end Written

end JsonPath
