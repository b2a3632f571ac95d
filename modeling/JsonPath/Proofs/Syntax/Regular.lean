import JsonPath.Proofs.Syntax.Elements
import JsonPath.Proofs.Syntax.Soundness

/-!
What all trees have in common that the parser makes, whether it reports faults or not: whole numbers
fit 64 bits, operands bind tighter than their operators, and functions are called by names that may
be names of functions.
-/

namespace JsonPath

open Grammar

/-- The whole numbers of 64 bits. -/
def IsWord (n : Int) : Prop := -(2 ^ 63) ≤ n ∧ n ≤ 2 ^ 63 - 1

/-- How loosely the operator of an expression binds. -/
def Expr.rank : Expr → Nat
  | .or _ _ _ _ => 2
  | .and _ _ _ _ => 1
  | _ => 0

theorem Expr.rank_le (e : Expr) : e.rank ≤ 2 := by
  cases e <;> simp [rank]

/-- A bound of a slice, if it is there, fits 64 bits. -/
def Bound.Regular (b : Option Bound) : Prop := ∀ bound, b = some bound → IsWord bound.value

def Selector.Regular : Selector → Prop
  | .index _ _ value => IsWord value
  | .slice _ start _ stop step =>
    Bound.Regular start ∧ Bound.Regular stop ∧ Bound.Regular (step.bind (·.bound))
  | _ => True

def Expr.Regular : Expr → Prop
  | .or _ first _ rest => first.rank ≤ 1 ∧ ∀ e ∈ rest.toList, e.rank ≤ 1
  | .and _ first _ rest => first.rank ≤ 0 ∧ ∀ e ∈ rest.toList, e.rank ≤ 0
  | .not _ _ inner => inner.rank ≤ 0
  | .call _ name _ _ _ => FunctionName name.text.toList
  | _ => True

/-- The numbers, the operands and the name that are part of the element itself are in order. -/
def Element.Regular : Element → Prop
  | .selector s => s.Regular
  | .expression e => e.Regular
  | _ => True

/-- All elements of the tree are regular. -/
abbrev Tree.Regular (t : Tree) : Prop := t.All Element.Regular

theorem Token.regular_leaf (t : Token) : (Tree.leaf t).Regular := Tree.All.leaf trivial

theorem Token.regular_leaf? (t : Option Token) : ∀ c ∈ Tree.leaf? t, c.Regular :=
  Tree.All.leaf? fun _ => trivial

theorem Token.regular_leaves (t : Token) : ∀ c ∈ [Tree.leaf t], c.Regular :=
  List.forall_mem_singleton.mpr t.regular_leaf

theorem Bound.regular_leaf? (b : Option Bound) : ∀ c ∈ Bound.leaf? b, c.Regular :=
  Token.regular_leaf? _

theorem StepPart.regular_leaves (part : Option StepPart) :
    ∀ c ∈ StepPart.leaves part, c.Regular := by
  cases part with
  | none => exact List.forall_mem_nil _
  | some part =>
    exact List.forall_mem_cons.mpr ⟨part.colon.regular_leaf, Bound.regular_leaf? part.bound⟩

namespace Parser

variable {α β : Type}

/-- From the cursor, whatever is reported, the parser gives a result with the property. -/
def Gives (p : Parser α) (c : Cursor) (P : α → Prop) : Prop := P (p c).1

namespace Gives

variable {p : Parser α} {f : α → Parser β} {c : Cursor} {P : α → Prop} {Q : β → Prop}

theorem pure {a : α} (h : P a) : Gives (Pure.pure a) c P := h

theorem bind (hp : Gives p c P) (hf : ∀ a d, P a → Gives (f a) d Q) : Gives (p >>= f) c Q :=
  hf _ _ hp

/-- A parser whose result does not matter may come first. -/
theorem next (hf : ∀ a d, Gives (f a) d Q) : Gives (p >>= f) c Q := hf _ _

theorem get {f : Cursor → Parser β} (h : Gives (f c) c Q) :
    Gives (MonadState.get >>= f) c Q := h

theorem peek {f : Option Char → Parser β} (h : Gives (f c.rest.head?) c Q) :
    Gives (Parser.peek >>= f) c Q := h

theorem map {g : α → β} (hp : Gives p c fun a => Q (g a)) : Gives (g <$> p) c Q := hp

/-- Numbering an element leaves the text where it is. -/
theorem element {f : Nat → Parser β} (h : ∀ id d, d.rest = c.rest → Gives (f id) d Q) :
    Gives (freshId >>= f) c Q := h _ _ rfl

/-- The token has the text that comes next. -/
theorem take {f : Token → Parser β} {kind : TokenKind} {count : Nat}
    (h : ∀ t d, t.text = String.ofList (c.rest.take count) → Gives (f t) d Q) :
    Gives (Parser.take kind count >>= f) c Q := h _ _ rfl

end Gives

theorem integer_gives (c : Cursor) : Gives integer c fun b => IsWord b.value := by
  have hvalue (t : IntegerText) : IsWord t.value := by
    unfold IsWord IntegerText.value
    dsimp only
    split <;> omega
  refine .get ?_
  extract_lets t whole length final tail
  have hfinal (u : PUnit) (d : Cursor) : Gives (final u) d fun b => IsWord b.value :=
    .next fun _ _ => .pure (hvalue t)
  have htail (u : PUnit) (d : Cursor) : Gives (tail u) d fun b => IsWord b.value := by
    unfold tail
    split
    · exact .next fun u d => hfinal u d
    · exact hfinal ⟨⟩ d
  split
  · exact .next htail
  · split
    · exact .next htail
    · split
      · exact .next htail
      · exact htail ⟨⟩ c

theorem bound?_gives (c : Cursor) : Gives bound? c Bound.Regular := by
  have hnone : Bound.Regular none := by simp [Bound.Regular]
  refine .peek ?_
  split
  · split
    · refine .map ?_
      have hinteger := integer_gives c
      rintro bound ⟨⟩
      exact hinteger
    · exact .pure hnone
  · exact .pure hnone

/-! ### Selectors and segments -/

theorem missingSelector_gives (c : Cursor) :
    Gives missingSelector c fun s => s.tree.Regular :=
  .next fun _ _ => .next fun _ _ => .next fun token _ =>
    .pure (.node trivial token.regular_leaves)

theorem shorthandSelector_gives (after : TokenKind) (c : Cursor) :
    Gives (shorthandSelector after) c fun s => s.tree.Regular := by
  refine .next fun id d => .get ?_
  have hmissing : Gives (do reportFound (.shorthand after); return .missing id (← missing .name)) d
      fun (s : Selector) => s.tree.Regular :=
    .next fun _ _ => .next fun token _ =>
      .pure (.node trivial token.regular_leaves)
  split
  · exact .next fun token _ => .pure (.node trivial token.regular_leaves)
  · split
    · exact .next fun token _ => .pure (.node trivial token.regular_leaves)
    · exact hmissing
  · exact hmissing

theorem stepPart?_gives (c : Cursor) :
    Gives stepPart? c fun part => Bound.Regular (part.bind (·.bound)) := by
  refine .get (.next fun _ _ => .next fun at? _ => ?_)
  split
  · refine .next fun colon _ => .next fun _ d => .bind (bound?_gives d) fun bound _ h => .pure h
  · exact .next fun _ _ => .pure (by simp [Bound.Regular])

theorem indexOrSlice_gives (c : Cursor) : Gives indexOrSlice c fun s => s.tree.Regular := by
  refine .next fun id d => .bind (bound?_gives d) fun start _ hstart => ?_
  refine .get (.next fun _ _ => .next fun at? _ => ?_)
  split
  · refine .next fun colon _ => .next fun _ d => ?_
    refine .bind (bound?_gives d) fun stop d hstop => ?_
    refine .bind (stepPart?_gives d) fun step _ hstep => .pure ?_
    refine .node ⟨hstart, hstop, hstep⟩ ?_
    simp only [List.forall_mem_append, List.forall_mem_cons]
    exact ⟨⟨Bound.regular_leaf? start, colon.regular_leaf, Bound.regular_leaf? stop⟩,
      StepPart.regular_leaves step⟩
  · refine .next fun _ _ => ?_
    cases start with
    | some bound =>
      exact .pure (.node (hstart bound rfl) bound.token.regular_leaves)
    | none =>
      exact .next fun token _ =>
        .pure (.node trivial token.regular_leaves)

/-- All trees that the parser gives are regular and of at most the rank. -/
def Regular (p : Parser Expr) (rank : Nat) : Prop :=
  ∀ c, Gives p c fun e => e.tree.Regular ∧ e.rank ≤ rank

section Filter

variable {filter : Parser Expr} (hfilter : filter.Regular 2)

include hfilter

theorem selector_gives (c : Cursor) : Gives (selector filter) c fun s => s.tree.Regular := by
  have hstring (quote : Char) (d : Cursor) : Gives (do
      let id ← freshId
      let found ← stringLiteral quote
      return .name id found.1 found.2) d fun (s : Selector) => s.tree.Regular :=
    .next fun _ _ => .next fun found _ =>
      .pure (.node trivial found.1.regular_leaves)
  refine .peek ?_
  split
  · exact hstring _ c
  · exact hstring _ c
  · exact .next fun _ _ => .next fun token _ =>
      .pure (.node trivial token.regular_leaves)
  · refine .next fun id _ => .next fun question d => ?_
    refine .bind (hfilter d) fun test _ htest => .pure (.node trivial ?_)
    simp only [List.forall_mem_cons]
    exact ⟨question.regular_leaf, htest.1, List.forall_mem_nil _⟩
  · split
    · exact indexOrSlice_gives c
    · split
      · exact missingSelector_gives c
      · exact .next fun _ _ => .next fun _ _ => .next fun token _ =>
          .pure (.node trivial token.regular_leaves)
  · exact missingSelector_gives c

theorem selectors_gives (opening : Token) (rounds : Nat) (c : Cursor) :
    Gives (selectors filter opening rounds) c fun found => ∀ t ∈ found.1.trees, t.Regular := by
  induction rounds generalizing c with
  | zero =>
    refine .bind (missingSelector_gives c) fun s _ hs => .next fun _ _ => .pure ?_
    exact List.forall_mem_singleton.mpr hs
  | succ rounds ih =>
    refine .next fun _ d => .bind (selector_gives hfilter d) fun s _ hs => ?_
    refine .next fun _ _ => .next fun _ _ => .next fun at? _ => ?_
    split
    · refine .next fun comma d => .bind (ih d) fun found _ hfound => .pure ?_
      simp only [Selectors.trees, List.forall_mem_cons]
      exact ⟨hs, comma.regular_leaf, hfound⟩
    · exact .next fun _ _ => .pure (List.forall_mem_singleton.mpr hs)

theorem bracketed_gives (id : Nat) (dots : Option Token) (c : Cursor) :
    Gives (bracketed filter id dots) c fun s => s.tree.Regular := by
  refine .next fun opening d => .get ?_
  refine .bind (selectors_gives hfilter opening _ d) fun found _ hfound => .pure ?_
  refine .node trivial ?_
  simp only [List.forall_mem_append, List.forall_mem_cons]
  exact ⟨⟨Token.regular_leaf? dots, opening.regular_leaf, hfound⟩, found.2.regular_leaf,
    List.forall_mem_nil _⟩

theorem segment?_gives (c : Cursor) :
    Gives (segment? filter) c fun found => ∀ s, found = some s → s.tree.Regular := by
  have hbracketed (id : Nat) (dots : Option Token) (d : Cursor) :
      Gives (some <$> bracketed filter id dots) d fun found =>
        ∀ s, found = some s → s.tree.Regular := by
    refine .map ?_
    have hgives := bracketed_gives hfilter id dots d
    rintro s ⟨⟩
    exact hgives
  have hshorthand (id : Nat) (dots : Token) (after : TokenKind) (d : Cursor) :
      Gives (do return some (.shorthand id dots (← shorthandSelector after))) d
        fun (found : Option Segment) => ∀ s, found = some s → s.tree.Regular := by
    refine .bind (shorthandSelector_gives after d) fun selector _ h => .pure ?_
    rintro s ⟨⟩
    refine .node trivial ?_
    simp only [List.forall_mem_cons]
    exact ⟨dots.regular_leaf, h, List.forall_mem_nil _⟩
  refine .get (.next fun _ _ => .next fun at? _ => ?_)
  split
  · refine .next fun id _ => .next fun dots _ => .next fun _ _ => .next fun at? d => ?_
    split
    · exact hbracketed id _ d
    · exact hshorthand id dots _ d
  · refine .next fun at? _ => ?_
    split
    · exact .next fun id _ => .next fun dot _ => .next fun _ d => hshorthand id dot _ d
    · refine .next fun at? _ => ?_
      split
      · exact .next fun id d => hbracketed id _ d
      · exact .next fun _ _ => .pure (by simp)

theorem segments_gives (rounds : Nat) (path : Path) (hpath : ∀ t ∈ path.parts, t.Regular)
    (c : Cursor) :
    Gives (segments filter rounds path) c fun p => ∀ t ∈ p.parts, t.Regular := by
  induction rounds generalizing c path with
  | zero => exact .pure hpath
  | succ rounds ih =>
    refine .bind (segment?_gives hfilter c) fun found d hfound => ?_
    cases found with
    | none => exact .pure hpath
    | some segment =>
      refine ih _ ?_ d
      simp only [Path.parts, List.forall_mem_append]
      exact ⟨hpath, List.forall_mem_singleton.mpr (hfound segment rfl)⟩

theorem pathExpression_gives (kind : TokenKind) : (pathExpression filter kind).Regular 0 := by
  refine fun c => .next fun id _ => .next fun pathId _ => .next fun identifier d => .get ?_
  refine .bind (segments_gives hfilter _ (.root pathId identifier) identifier.regular_leaves d)
    fun p _ hp => .pure ?_
  exact ⟨.node trivial (List.forall_mem_singleton.mpr (.node trivial hp)), Nat.le_refl 0⟩

theorem remainder_gives (rounds : Nat) (path : Path) (hpath : ∀ t ∈ path.parts, t.Regular)
    (c : Cursor) :
    Gives (remainder filter rounds path) c fun p => ∀ t ∈ p.parts, t.Regular := by
  induction rounds generalizing c path with
  | zero => exact .pure hpath
  | succ rounds ih =>
    refine .next fun trailing d => .peek ?_
    split
    · dsimp only
      split
      · exact .next fun _ _ => .pure hpath
      · exact .pure hpath
    · refine .next fun _ d => .get ?_
      exact .bind (segments_gives hfilter _ path hpath d) fun further d h => ih further h d

end Filter

/-! ### Expressions -/

theorem numberLiteral_regular : numberLiteral.Regular 0 := by
  refine fun c => .next fun id d => .get ?_
  extract_lets t final exponent fraction
  have hfinal (u : PUnit) (d : Cursor) :
      Gives (final u) d fun e => e.tree.Regular ∧ e.rank ≤ 0 :=
    .next fun token _ => .pure ⟨.node trivial token.regular_leaves, Nat.le_refl 0⟩
  have hexponent (u : PUnit) (d : Cursor) :
      Gives (exponent u) d fun e => e.tree.Regular ∧ e.rank ≤ 0 := by
    unfold exponent
    split
    · exact .next hfinal
    · exact hfinal ⟨⟩ d
  have hfraction (u : PUnit) (d : Cursor) :
      Gives (fraction u) d fun e => e.tree.Regular ∧ e.rank ≤ 0 := by
    unfold fraction
    split
    · exact .next hexponent
    · exact hexponent ⟨⟩ d
  split
  · exact .next hfraction
  · split
    · exact .next hfraction
    · exact hfraction ⟨⟩ d

theorem missingExpression_regular (rank : Nat) : missingExpression.Regular rank :=
  fun _ => .next fun _ _ => .next fun _ _ => .next fun token _ =>
    .pure ⟨.node trivial token.regular_leaves, Nat.zero_le rank⟩

theorem operands_gives {operand : Parser Expr} {rank : Nat} (hoperand : operand.Regular rank)
    (kind : TokenKind) (mark : List Char) (rounds : Nat) (c : Cursor) :
    Gives (operands kind mark operand rounds) c fun os =>
      (∀ t ∈ os.trees, t.Regular) ∧ ∀ e ∈ os.toList, e.rank ≤ rank := by
  induction rounds generalizing c with
  | zero =>
    refine .bind (missingExpression_regular rank c) fun e _ he => .pure ?_
    exact ⟨List.forall_mem_singleton.mpr he.1, List.forall_mem_singleton.mpr he.2⟩
  | succ rounds ih =>
    refine .bind (hoperand c) fun first _ hfirst => .next fun _ _ => .next fun at? _ => ?_
    split
    · refine .next fun operator d => .bind (ih d) fun rest _ hrest => .pure ?_
      simp only [Operands.trees, Operands.toList, List.forall_mem_cons]
      exact ⟨⟨hfirst.1, operator.regular_leaf, hrest.1⟩, hfirst.2, hrest.2⟩
    · exact .pure ⟨List.forall_mem_singleton.mpr hfirst.1, List.forall_mem_singleton.mpr hfirst.2⟩

theorem arguments_gives {argument : Parser Expr} {rank : Nat} (hargument : argument.Regular rank)
    (opening : Token) (rounds : Nat) (c : Cursor) :
    Gives (arguments argument opening rounds) c fun found => ∀ t ∈ found.1.trees, t.Regular := by
  induction rounds generalizing c with
  | zero =>
    refine .bind (missingExpression_regular 0 c) fun e _ he => .next fun _ _ => .pure ?_
    exact List.forall_mem_singleton.mpr he.1
  | succ rounds ih =>
    refine .bind (hargument c) fun e _ he => .next fun _ _ => .next fun _ _ => ?_
    refine .next fun at? _ => ?_
    split
    · refine .next fun comma d => .bind (ih d) fun found _ hfound => .pure ?_
      simp only [Operands.trees, List.forall_mem_cons]
      exact ⟨he.1, comma.regular_leaf, hfound⟩
    · exact .next fun _ _ => .pure (List.forall_mem_singleton.mpr he.1)

theorem call_gives {argument : Parser Expr} {rank : Nat} (hargument : argument.Regular rank)
    (id : Nat) {name : Token} (hname : FunctionName name.text.toList) (c : Cursor) :
    Gives (call argument id name) c fun e => e.tree.Regular ∧ e.rank ≤ 0 := by
  have htree (opening closing : Token) (found : Arguments) (h : ∀ t ∈ found.trees, t.Regular) :
      (Expr.call id name opening found closing).tree.Regular := by
    refine .node hname ?_
    simp only [List.forall_mem_append, List.forall_mem_cons]
    exact ⟨⟨name.regular_leaf, opening.regular_leaf, h⟩, closing.regular_leaf,
      List.forall_mem_nil _⟩
  refine .next fun opening _ => .next fun _ _ => .next fun at? d => ?_
  split
  · refine .next fun closing _ => .pure ⟨htree opening closing .none ?_, Nat.le_refl 0⟩
    exact List.forall_mem_nil _
  · refine .get (.bind (arguments_gives hargument opening _ d) fun found _ h => .pure ?_)
    exact ⟨htree opening found.2 (.some found.1) h, Nat.le_refl 0⟩

theorem callOrWord_gives {argument : Parser Expr} {rank : Nat} (hargument : argument.Regular rank)
    {c : Cursor} {x : Char} {v : List Char} (hc : c.rest = x :: v)
    (hx : Text.isLowerLetter x = true) :
    Gives (callOrWord argument) c fun e => e.tree.Regular ∧ e.rank ≤ 0 := by
  refine .element fun id d hd => .get ?_
  have hliteral (kind : TokenKind) (count : Nat) (value : Json) :
      Gives (do return .literal id (← take kind count) value) d fun (e : Expr) =>
        e.tree.Regular ∧ e.rank ≤ 0 :=
    .next fun token _ => .pure ⟨.node trivial token.regular_leaves, Nat.le_refl 0⟩
  extract_lets word after
  have hword : d.rest.take word.length = word :=
    (List.prefix_iff_eq_take.mp (List.takeWhile_prefix _)).symm
  have hname : FunctionName word := by
    unfold word
    rw [hd, hc]
    exact functionName_takeWhile hx
  split
  · refine .take fun name _ htext => .next fun _ e => call_gives hargument id ?_ e
    rw [htext, hword, String.toList_ofList]
    exact hname
  · split
    · exact hliteral _ _ _
    · split
      · exact hliteral _ _ _
      · split
        · exact hliteral _ _ _
        · exact .next fun _ _ => .next fun _ _ => .next fun token _ =>
            .pure ⟨.node trivial token.regular_leaves, Nat.le_refl 0⟩

/-- The parsers of a depth give regular trees of their ranks. -/
structure Expressions.Regular (inner : Expressions) : Prop where
  disjunction : inner.disjunction.Regular 2
  negation : inner.negation.Regular 0
  primary : inner.primary.Regular 0

theorem primary_regular {inner : Expressions} (h : inner.Regular) : (primary inner).Regular 0 := by
  have hstring (quote : Char) (d : Cursor) : Gives (do
      let id ← freshId
      let found ← stringLiteral quote
      return .literal id found.1 (.string found.2)) d fun (e : Expr) =>
        e.tree.Regular ∧ e.rank ≤ 0 :=
    .next fun _ _ => .next fun found _ =>
      .pure ⟨.node trivial found.1.regular_leaves, Nat.le_refl 0⟩
  refine fun c => .next fun _ d => .get ?_
  split
  · refine .next fun id _ => .next fun opening d => .bind (h.disjunction d) fun e _ he => ?_
    refine .next fun _ _ => .next fun closing _ => .pure ⟨.node trivial ?_, Nat.le_refl 0⟩
    simp only [List.forall_mem_cons]
    exact ⟨opening.regular_leaf, he.1, closing.regular_leaf, List.forall_mem_nil _⟩
  · split
    · exact missingExpression_regular 0 d
    · refine .next fun id _ => .next fun bang d => .bind (h.primary d) fun e _ he => .pure ?_
      refine ⟨.node he.2 ?_, Nat.le_refl 0⟩
      simp only [List.forall_mem_cons]
      exact ⟨bang.regular_leaf, he.1, List.forall_mem_nil _⟩
  · exact pathExpression_gives h.disjunction _ d
  · exact pathExpression_gives h.disjunction _ d
  · exact hstring _ d
  · exact hstring _ d
  · split
    · exact numberLiteral_regular d
    · split
      · rename_i hc _ hx
        exact callOrWord_gives h.disjunction hc hx
      · exact missingExpression_regular 0 d
  · exact missingExpression_regular 0 d

theorem comparison_regular {inner : Expressions} (h : inner.Regular) :
    (comparison inner).Regular 0 := by
  refine fun c => .bind (primary_regular h c) fun left _ hleft => .next fun _ d => .get ?_
  split
  · exact .pure hleft
  · rename_i op _ _
    refine .next fun id _ => .next fun operator _ => ?_
    extract_lets final
    have hfinal (u : PUnit) (d : Cursor) :
        Gives (final u) d fun e => e.tree.Regular ∧ e.rank ≤ 0 := by
      refine .bind (primary_regular h d) fun right _ hright => ?_
      refine .next fun _ _ => .next fun _ _ => .pure ⟨.node trivial ?_, Nat.le_refl 0⟩
      simp only [List.forall_mem_cons]
      exact ⟨hleft.1, operator.regular_leaf, hright.1, List.forall_mem_nil _⟩
    split
    · exact .next hfinal
    · exact hfinal ⟨⟩ _

theorem negation_regular {inner : Expressions} (h : inner.Regular) :
    (negation inner).Regular 0 := by
  refine fun c => .next fun _ _ => .next fun at? _ => .next fun equal _ => ?_
  split
  · refine .next fun id _ => .next fun bang d => .bind (h.negation d) fun e _ he => .pure ?_
    refine ⟨.node he.2 ?_, Nat.le_refl 0⟩
    simp only [List.forall_mem_cons]
    exact ⟨bang.regular_leaf, he.1, List.forall_mem_nil _⟩
  · exact comparison_regular h _

theorem joined_regular {operand : Parser Expr} {rank : Nat} (hoperand : operand.Regular rank)
    (kind : TokenKind) (mark : List Char) {make : Nat → Expr → Token → Operands → Expr}
    (hrank : ∀ id first operator rest, (make id first operator rest).rank = rank + 1)
    (hmake : ∀ id (first : Expr) operator (rest : Operands), first.tree.Regular →
      first.rank ≤ rank → (∀ t ∈ rest.trees, t.Regular) → (∀ e ∈ rest.toList, e.rank ≤ rank) →
      (make id first operator rest).tree.Regular) :
    (joined kind mark make operand).Regular (rank + 1) := by
  refine fun c => .bind (hoperand c) fun first _ hfirst => .next fun _ _ => .next fun at? _ => ?_
  split
  · refine .next fun id _ => .next fun operator d => .get ?_
    refine .bind (operands_gives hoperand kind mark _ d) fun rest _ hrest => .pure ?_
    exact ⟨hmake id first operator rest hfirst.1 hfirst.2 hrest.1 hrest.2,
      Nat.le_of_eq (hrank id first operator rest)⟩
  · exact .pure ⟨hfirst.1, Nat.le_succ_of_le hfirst.2⟩

theorem conjunction_regular {inner : Expressions} (h : inner.Regular) :
    (conjunction inner).Regular 1 := by
  refine joined_regular (negation_regular h) _ _ (fun _ _ _ _ => rfl) ?_
  intro id first operator rest hfirst hrank hrest hranks
  refine .node ⟨hrank, hranks⟩ ?_
  simp only [List.forall_mem_cons]
  exact ⟨hfirst, operator.regular_leaf, hrest⟩

theorem disjunction_regular {inner : Expressions} (h : inner.Regular) :
    (disjunction inner).Regular 2 := by
  refine joined_regular (conjunction_regular h) _ _ (fun _ _ _ _ => rfl) ?_
  intro id first operator rest hfirst hrank hrest hranks
  refine .node ⟨hrank, hranks⟩ ?_
  simp only [List.forall_mem_cons]
  exact ⟨hfirst, operator.regular_leaf, hrest⟩

theorem expressions_regular (depth : Nat) : (expressions depth).Regular := by
  induction depth with
  | zero =>
    exact ⟨missingExpression_regular 2, missingExpression_regular 0, missingExpression_regular 0⟩
  | succ depth ih => exact ⟨disjunction_regular ih, negation_regular ih, primary_regular ih⟩

end Parser

namespace Query

theorem body_gives {filter : Parser Expr} (hfilter : filter.Regular 2) (c : Cursor) :
    Parser.Gives (body filter) c fun found => ∀ t ∈ found.2.parts, t.Regular := by
  refine .next fun id _ => .next fun pathId _ => .next fun _ _ => .next fun identifier d => .get ?_
  refine .bind (Parser.segments_gives hfilter _ (.root pathId identifier)
    identifier.regular_leaves d) fun path d hpath => ?_
  exact .get (.bind (Parser.remainder_gives hfilter _ path hpath d) fun path' _ h => .pure h)

theorem filterParser_regular (source : String) : (filterParser source).Regular 2 :=
  (Parser.expressions_regular _).disjunction

/-- The tree of every text is regular. -/
theorem parse_regular (source : String) : (parse source).tree.Regular := by
  have hparts : ∀ t ∈ (parse source).path.parts, t.Regular := by
    rw [parse_path]
    exact body_gives (filterParser_regular source) _
  refine .node trivial ?_
  simp only [List.forall_mem_cons]
  exact ⟨.node trivial hparts, Token.regular_leaf _, List.forall_mem_nil _⟩

end Query

end JsonPath
