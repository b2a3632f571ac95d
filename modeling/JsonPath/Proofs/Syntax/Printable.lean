import JsonPath.Proofs.Syntax.Canonical
import JsonPath.Proofs.Syntax.Completeness
import JsonPath.Proofs.Syntax.Printed
import JsonPath.Proofs.Syntax.Regular

/-!
Trees whose text can be read again. Nothing is missing, and every element is regular and holds no
number that is lost in its text. The parts of such a tree are again of this kind, and the first
character of its text tells what is to be read.
-/

namespace JsonPath

open Grammar

/-- The number is read from the text it is written as. -/
def Number.ReadsBack (n : Number) : Prop := Json.read n.text = .ok (.number n)

instance (n : Number) : Decidable n.ReadsBack :=
  match h : Json.read n.text with
  | .ok (.number m) => decidable_of_iff (m = n) (by simp [Number.ReadsBack, h])
  | .ok .null | .ok (.bool _) | .ok (.string _) | .ok (.array _) | .ok (.object _) | .error _ =>
    .isFalse (by simp [Number.ReadsBack, h])

theorem Number.ReadsBack.value {n : Number} (h : n.ReadsBack) :
    Parser.numberValue n.text = .number n := by
  unfold Parser.numberValue
  rw [show Json.read n.text = .ok (.number n) from h]

/-- The number that is the element itself. -/
def Element.number? : Element → Option Number
  | .expression (.literal _ _ (.number n)) => some n
  | _ => none

def Element.ReadsBack (e : Element) : Prop := ∀ n ∈ e.number?, n.ReadsBack

instance (e : Element) : Decidable e.ReadsBack :=
  inferInstanceAs (Decidable (∀ n ∈ e.number?, n.ReadsBack))

/-- An element that is regular and holds no number that is lost in its text. -/
def Element.Printable (e : Element) : Prop := e.Regular ∧ e.ReadsBack

abbrev Tree.Printable (t : Tree) : Prop := t.All Element.Printable

theorem Element.readsBack_of_none {e : Element} (h : e.number? = none) : e.ReadsBack := by
  intro n hn
  rw [h] at hn
  cases hn

theorem Token.printable_leaf (t : Token) : (Tree.leaf t).Printable :=
  .leaf ⟨trivial, Element.readsBack_of_none rfl⟩

structure Path.Printable (p : Path) : Prop where
  wellFormed : p.WellFormed
  parts : ∀ t ∈ p.parts, t.Printable

structure Segment.Printable (s : Segment) : Prop where
  wellFormed : s.WellFormed
  tree : s.tree.Printable

structure Selectors.Printable (ss : Selectors) : Prop where
  wellFormed : ss.WellFormed
  trees : ∀ t ∈ ss.trees, t.Printable

structure Selector.Printable (s : Selector) : Prop where
  wellFormed : s.WellFormed
  tree : s.tree.Printable

structure Expr.Printable (e : Expr) : Prop where
  wellFormed : e.WellFormed
  tree : e.tree.Printable

/-- The operands are printable and of at most the rank. -/
structure Operands.Printable (rank : Nat) (os : Operands) : Prop where
  wellFormed : os.WellFormed
  trees : ∀ t ∈ os.trees, t.Printable
  ranks : ∀ e ∈ os.toList, e.rank ≤ rank

/-! ### Paths -/

namespace Segment

theorem Printable.selector {id : Nat} {dots : Token} {s : Selector}
    (h : (shorthand id dots s).Printable) : s.Printable := by
  obtain ⟨-, hchildren⟩ := Tree.all_node.mp h.tree
  simp only [List.forall_mem_cons] at hchildren
  exact ⟨h.wellFormed, hchildren.2.1⟩

theorem Printable.selectors {id : Nat} {dots : Option Token} {opening closing : Token}
    {ss : Selectors} (h : (bracketed id dots opening ss closing).Printable) : ss.Printable := by
  obtain ⟨-, hchildren⟩ := Tree.all_node.mp h.tree
  simp only [List.forall_mem_append, List.forall_mem_cons] at hchildren
  exact ⟨h.wellFormed, hchildren.1.2.2⟩

end Segment

theorem Path.Printable.segments : {p : Path} → p.Printable → ∀ s ∈ p.segments, s.Printable
  | .root _ _, _ => List.forall_mem_nil _
  | .step before segment, h => by
    obtain ⟨hbefore, hsegment⟩ := h.wellFormed
    have hparts := h.parts
    simp only [Path.parts, List.forall_mem_append, List.forall_mem_singleton] at hparts
    simp only [Path.segments, List.forall_mem_append, List.forall_mem_singleton]
    exact ⟨Path.Printable.segments ⟨hbefore, hparts.1⟩, hsegment, hparts.2⟩

namespace Selectors

theorem Printable.of_last {s : Selector} (h : (last s).Printable) : s.Printable :=
  ⟨h.wellFormed, h.trees _ (List.mem_singleton_self _)⟩

theorem Printable.of_more {s : Selector} {comma : Token} {rest : Selectors}
    (h : (more s comma rest).Printable) : s.Printable ∧ rest.Printable := by
  obtain ⟨hselector, hrest⟩ := h.wellFormed
  have htrees := h.trees
  simp only [Selectors.trees, List.forall_mem_cons] at htrees
  exact ⟨⟨hselector, htrees.1⟩, hrest, htrees.2.2⟩

end Selectors

theorem Selector.Printable.regular {s : Selector} (h : s.Printable) : s.Regular := by
  cases s <;> exact (Tree.all_node.mp h.tree).1.1

theorem Selector.Printable.test {id : Nat} {question : Token} {test : Expr}
    (h : (filter id question test).Printable) : test.Printable := by
  obtain ⟨-, hchildren⟩ := Tree.all_node.mp h.tree
  simp only [List.forall_mem_cons] at hchildren
  exact ⟨h.wellFormed, hchildren.2.1⟩

/-! ### Expressions -/

namespace Operands

variable {rank : Nat}

theorem Printable.of_last {e : Expr} (h : (last e).Printable rank) :
    e.Printable ∧ e.rank ≤ rank :=
  ⟨⟨h.wellFormed, h.trees _ (List.mem_singleton_self _)⟩, h.ranks e (List.mem_singleton_self e)⟩

theorem Printable.of_more {e : Expr} {separator : Token} {rest : Operands}
    (h : (more e separator rest).Printable rank) :
    (e.Printable ∧ e.rank ≤ rank) ∧ rest.Printable rank := by
  obtain ⟨hoperand, hrest⟩ := h.wellFormed
  have htrees := h.trees
  have hranks := h.ranks
  simp only [Operands.trees, Operands.toList, List.forall_mem_cons] at htrees hranks
  exact ⟨⟨⟨hoperand, htrees.1⟩, hranks.1⟩, hrest, htrees.2.2, hranks.2⟩

end Operands

namespace Expr

variable {id : Nat} {operator opening closing : Token}

theorem Printable.or {first : Expr} {rest : Operands}
    (h : (or id first operator rest).Printable) :
    (first.Printable ∧ first.rank ≤ 1) ∧ rest.Printable 1 := by
  obtain ⟨hfirst, hrest⟩ := h.wellFormed
  obtain ⟨⟨hranks, -⟩, hchildren⟩ := Tree.all_node.mp h.tree
  simp only [List.forall_mem_cons] at hchildren
  exact ⟨⟨⟨hfirst, hchildren.1⟩, hranks.1⟩, hrest, hchildren.2.2, hranks.2⟩

theorem Printable.and {first : Expr} {rest : Operands}
    (h : (and id first operator rest).Printable) :
    (first.Printable ∧ first.rank ≤ 0) ∧ rest.Printable 0 := by
  obtain ⟨hfirst, hrest⟩ := h.wellFormed
  obtain ⟨⟨hranks, -⟩, hchildren⟩ := Tree.all_node.mp h.tree
  simp only [List.forall_mem_cons] at hchildren
  exact ⟨⟨⟨hfirst, hchildren.1⟩, hranks.1⟩, hrest, hchildren.2.2, hranks.2⟩

theorem Printable.not {inner : Expr} (h : (not id operator inner).Printable) :
    inner.Printable ∧ inner.rank ≤ 0 := by
  obtain ⟨⟨hrank, -⟩, hchildren⟩ := Tree.all_node.mp h.tree
  simp only [List.forall_mem_cons] at hchildren
  exact ⟨⟨h.wellFormed, hchildren.2.1⟩, hrank⟩

theorem Printable.comparison {op : Comparison} {left right : Expr}
    (h : (comparison id left operator op right).Printable) :
    (left.Printable ∧ left.IsComparable) ∧ right.Printable ∧ right.IsComparable := by
  obtain ⟨hleft, hright, hwfLeft, hwfRight⟩ := h.wellFormed
  obtain ⟨-, hchildren⟩ := Tree.all_node.mp h.tree
  simp only [List.forall_mem_cons] at hchildren
  exact ⟨⟨⟨hwfLeft, hchildren.1⟩, hleft⟩, ⟨hwfRight, hchildren.2.2.1⟩, hright⟩

theorem Printable.path {p : Path} (h : (path id p).Printable) : p.Printable := by
  obtain ⟨-, hchildren⟩ := Tree.all_node.mp h.tree
  obtain ⟨-, hparts⟩ := Tree.all_node.mp (List.forall_mem_singleton.mp hchildren)
  exact ⟨h.wellFormed, hparts⟩

theorem Printable.call {name : Token} {arguments : Arguments}
    (h : (call id name opening arguments closing).Printable) :
    FunctionName name.text.toList ∧ ∀ os, arguments = .some os → os.Printable 2 := by
  obtain ⟨-, harguments⟩ := h.wellFormed
  obtain ⟨⟨hname, -⟩, hchildren⟩ := Tree.all_node.mp h.tree
  simp only [List.forall_mem_append, List.forall_mem_cons] at hchildren
  refine ⟨hname, ?_⟩
  rintro os rfl
  exact ⟨harguments, hchildren.1.2.2, fun e _ => e.rank_le⟩

theorem Printable.literal {token : Token} {value : Json}
    (h : (literal id token value).Printable) :
    value.IsScalar ∧ ∀ n, value = .number n → n.ReadsBack := by
  obtain ⟨⟨-, hreads⟩, -⟩ := Tree.all_node.mp h.tree
  refine ⟨h.wellFormed, ?_⟩
  rintro n rfl
  exact hreads n rfl

theorem Printable.parens {inner : Expr} (h : (parens id opening inner closing).Printable) :
    inner.Printable := by
  obtain ⟨-, hchildren⟩ := Tree.all_node.mp h.tree
  simp only [List.forall_mem_cons] at hchildren
  exact ⟨h.wellFormed, hchildren.2.1⟩

end Expr

/-! ### Texts -/

theorem Path.toList_text (p : Path) : p.text.toList =
    (if p.isRelative then '@' else '$') :: p.segments.flatMap fun s => s.text.toList := by
  cases p with
  | root _ identifier =>
    by_cases hkind : identifier.kind = .current <;>
      simp [Path.text, Path.segments, Path.isRelative, Path.identifier, hkind]
  | step before segment =>
    have hrelative : (Path.step before segment).isRelative = before.isRelative := rfl
    rw [Path.text, String.toList_append, before.toList_text, hrelative, Path.segments]
    simp

theorem Segment.toList_text (s : Segment) : s.text.toList =
    (if s.isDescendant then ['.', '.'] else []) ++ '[' :: (s.printed.text.toList ++ [']']) := by
  cases s with
  | shorthand id dots selector =>
    by_cases hkind : dots.kind = .doubleDot <;>
      simp [Segment.text, Segment.isDescendant, Segment.printed, Selectors.text, hkind]
  | bracketed id dots opening selectors closing =>
    cases dots <;> simp [Segment.text, Segment.isDescendant, Segment.printed]

theorem Segment.Printable.printed {s : Segment} (h : s.Printable) : s.printed.Printable := by
  cases s with
  | shorthand => exact ⟨h.wellFormed, List.forall_mem_singleton.mpr h.selector.tree⟩
  | bracketed => exact h.selectors

/-- A bound as it is printed, where there is one. -/
def Bound.chars (b : Option Bound) : List Char :=
  (b.map fun bound => (toString bound.value).toList).getD []

theorem Selector.toList_text_slice (id : Nat) (start stop : Option Bound) (colon : Token)
    (part : Option StepPart) : (slice id start colon stop part).text.toList =
      Bound.chars start ++ ':' :: (Bound.chars stop ++ ':' ::
        Bound.chars (some (StepPart.printed part))) := by
  have hbound (b : Option Bound) :
      ((b.map fun b => toString b.value).getD "").toList = Bound.chars b := by cases b <;> rfl
  have hstep (b : Option Bound) : ((b.map fun b => toString b.value).getD "1").toList =
      Bound.chars (some ((b.map Bound.canonical).getD .one)) := by cases b <;> rfl
  rw [Selector.text]
  simp only [String.toList_append, hbound, hstep, StepPart.printed]
  simp

/-! ### First characters -/

namespace Expr

open JsonPath.Parser

/-- An expression without an operator in front or between its operands. -/
def IsAtom : Expr → Prop
  | path _ _ => True
  | call _ _ _ _ _ => True
  | literal _ _ _ => True
  | parens _ _ _ _ => True
  | _ => False

theorem IsComparable.isAtom {e : Expr} (h : e.IsComparable) : e.IsAtom := by
  cases e <;> trivial

theorem begins_path (p : Path) : Begins isPrimaryFirst p.text.toList := by
  rw [p.toList_text]
  refine ⟨_, _, rfl, ?_⟩
  split <;> rfl

theorem begins_call {name : List Char} (hname : FunctionName name) (rest : List Char) :
    Begins isPrimaryFirst (name ++ rest) :=
  ((FunctionName.begins hname).mono fun x hx => by simp [isPrimaryFirst, hx]).append rest

/-- The text of a scalar is a literal. -/
theorem literal_text {value : Json} (h : value.IsScalar) : Literal value.text.toList := by
  cases value with
  | null => exact .null
  | bool b =>
    cases b with
    | true => exact .true
    | false => exact .false
  | number n => exact .number (number_text n)
  | string s =>
    obtain ⟨body, htext, hbody, -⟩ := Json.quote_literal s
    rw [Json.text, htext]
    exact .string (.mk (.inr rfl) hbody)
  | array | object => exact h.elim

theorem begins_atom {e : Expr} (h : e.Printable) (hatom : e.IsAtom) :
    Begins isPrimaryFirst e.text.toList := by
  cases e with
  | path id p => exact begins_path p
  | call id name opening arguments closing =>
    rw [text, String.toList_append, String.toList_append, String.toList_append, List.append_assoc,
      List.append_assoc]
    exact begins_call h.call.1 _
  | literal id token value => exact Literal.begins (literal_text h.literal.1)
  | parens id opening inner closing =>
    rw [text, String.toList_append, String.toList_append]
    exact ⟨'(', _, rfl, rfl⟩
  | or | and | not | comparison | missing => exact hatom.elim

theorem begins : {e : Expr} → e.Printable → Begins isBasicFirst e.text.toList
  | .or _ first _ _, h => by
    rw [text, String.toList_append, String.toList_append, List.append_assoc]
    exact (begins h.or.1.1).append _
  | .and _ first _ _, h => by
    rw [text, String.toList_append, String.toList_append, List.append_assoc]
    exact (begins h.and.1.1).append _
  | .not _ _ _, _ => by
    rw [text, String.toList_append]
    exact ⟨'!', _, rfl, rfl⟩
  | .comparison _ left _ _ _, h => by
    simp only [text, String.toList_append, List.append_assoc]
    exact (begins h.comparison.1.1).append _
  | .path _ _, h | .call _ _ _ _ _, h | .literal _ _ _, h | .parens _ _ _ _, h =>
    (begins_atom h trivial).mono fun x hx => by simp [isBasicFirst, hx]
  | .missing _ _, h => h.wellFormed.elim

end Expr

theorem Operands.Printable.begins {rank : Nat} {os : Operands} (h : os.Printable rank)
    (separator : String) : Parser.Begins Parser.isBasicFirst (os.text separator).toList := by
  cases os with
  | last e => exact Expr.begins h.of_last.1
  | more e _ others =>
    rw [Operands.text, String.toList_append, String.toList_append, List.append_assoc]
    exact (Expr.begins h.of_more.1.1).append _

end JsonPath
