import JsonPath.Proofs.Syntax.Index
import JsonPath.Proofs.Syntax.Regular

/-!
The tokens `$` and `@` begin paths and stand nowhere else. In every tree that the parser makes,
whether it reports faults or not, the tokens directly below a path are of these two kinds, and all
others are not. This holds of the placeholders for missing tokens too.
-/

namespace JsonPath

/-- A token of the kind begins a path. -/
def TokenKind.isMark (kind : TokenKind) : Bool := kind = .root || kind = .current

abbrev Token.isMark (t : Token) : Bool := t.kind.isMark

def Element.isPath : Element → Bool
  | path _ => true
  | _ => false

/-- The element, if it is a token, is a mark just if it stands directly below a path. -/
def Element.Marked (inPath : Bool) : Element → Prop
  | .token t => t.isMark = inPath
  | _ => True

namespace Tree

/-- In the tree, which stands below a path or not, tokens are marks just if they are directly below
a path. -/
inductive Marked : (inPath : Bool) → Tree → Prop
  | node {inPath : Bool} {e : Element} {cs : List Tree}
      (own : e.Marked inPath) (each : ∀ c ∈ cs, Marked e.isPath c) :
      Marked inPath (.node e cs)

namespace Marked

variable {inPath : Bool} {t s : Tree} {above : List Element}

theorem leaf {token : Token} (h : token.isMark = inPath) : (Tree.leaf token).Marked inPath :=
  .node h (List.forall_mem_nil _)

theorem own {token : Token} (h : (Tree.leaf token).Marked inPath) : token.isMark = inPath := by
  cases h with
  | node own _ => exact own

theorem each (h : t.Marked inPath) : ∀ c ∈ t.children, c.Marked t.element.isPath := by
  cases h with
  | node _ each => exact each

/-- What stands below an element of the tree is marked as that element asks for. -/
theorem part (h : t.Marked false) (hs : t.Below above s) :
    s.Marked (above.head?.any Element.isPath) := by
  induction hs with
  | top => exact h
  | child _ mem ih => exact ih.each _ mem

end Marked

end Tree

theorem Token.marked_leaves {t : Token} (h : t.isMark = false) :
    ∀ c ∈ [Tree.leaf t], c.Marked false :=
  List.forall_mem_singleton.mpr (.leaf h)

/-- The token, if there is one, is not a mark. -/
def Token.Unmarked (token : Option Token) : Prop := ∀ t, token = some t → t.isMark = false

theorem Token.unmarked_none : Token.Unmarked none := by
  intro t h
  cases h

theorem Token.Unmarked.leaf? {token : Option Token} (h : Token.Unmarked token) :
    ∀ c ∈ Tree.leaf? token, c.Marked false := by
  cases token with
  | none => exact List.forall_mem_nil _
  | some t => exact Token.marked_leaves (h t rfl)

namespace Parser

namespace Gives

variable {α β : Type} {f : Token → Parser β} {c : Cursor} {Q : β → Prop} {kind : TokenKind}

/-- The token is of the kind that is asked for. -/
theorem token {count : Nat} (h : ∀ t d, t.isMark = kind.isMark → Gives (f t) d Q) :
    Gives (Parser.take kind count >>= f) c Q := h _ _ rfl

/-- So is a placeholder for it. -/
theorem placeholder (h : ∀ t d, t.isMark = kind.isMark → Gives (f t) d Q) :
    Gives (Parser.missing kind >>= f) c Q := h _ _ rfl

end Gives

theorem integer_marks (c : Cursor) : Gives integer c fun b => b.token.isMark = false := by
  refine .get ?_
  extract_lets t whole length final tail
  have hfinal (u : PUnit) (d : Cursor) : Gives (final u) d fun b => b.token.isMark = false :=
    .token fun _ _ h => .pure h
  have htail (u : PUnit) (d : Cursor) : Gives (tail u) d fun b => b.token.isMark = false := by
    unfold tail
    split
    · exact .next fun u d => hfinal u d
    · exact hfinal ⟨⟩ d
  split
  · exact .next htail
  · split
    · exact .next htail
    · split
      · exact .next htail
      · exact htail ⟨⟩ c

theorem bound?_marks (c : Cursor) :
    Gives bound? c fun b => Token.Unmarked (b.map (·.token)) := by
  refine .peek ?_
  split
  · split
    · refine .map ?_
      have hinteger := integer_marks c
      rintro bound ⟨⟩
      exact hinteger
    · exact .pure Token.unmarked_none
  · exact .pure Token.unmarked_none

theorem stringLiteral_marks (quote : Char) (c : Cursor) :
    Gives (stringLiteral quote) c fun found => found.1.isMark = false := by
  refine .get ?_
  rcases StringLiteral.body quote (c.rest.drop 1) with ⟨body, closed⟩
  rcases StringLiteral.decode quote body with ⟨value, faults⟩
  dsimp only
  split
  · exact .next fun _ _ => .next fun _ _ => .token fun _ _ h => .pure h
  · exact .next fun _ _ => .token fun _ _ h => .pure h

/-! ### Selectors and segments -/

theorem missingSelector_marks (c : Cursor) :
    Gives missingSelector c fun s => s.tree.Marked false :=
  .next fun _ _ => .next fun _ _ => .placeholder fun _ _ h =>
    .pure (.node trivial (Token.marked_leaves h))

theorem shorthandSelector_marks (after : TokenKind) (c : Cursor) :
    Gives (shorthandSelector after) c fun s => s.tree.Marked false := by
  refine .next fun id d => .get ?_
  have hmissing : Gives (do reportFound (.shorthand after); return .missing id (← missing .name)) d
      fun (s : Selector) => s.tree.Marked false :=
    .next fun _ _ => .placeholder fun _ _ h => .pure (.node trivial (Token.marked_leaves h))
  split
  · exact .token fun _ _ h => .pure (.node trivial (Token.marked_leaves h))
  · split
    · exact .token fun _ _ h => .pure (.node trivial (Token.marked_leaves h))
    · exact hmissing
  · exact hmissing

theorem stepPart?_marks (c : Cursor) :
    Gives stepPart? c fun part => ∀ t ∈ StepPart.leaves part, t.Marked false := by
  refine .get (.next fun _ _ => .next fun at? _ => ?_)
  split
  · refine .token fun colon _ hcolon => .next fun _ d => .bind (bound?_marks d) fun bound _ h => ?_
    exact .pure (List.forall_mem_cons.mpr ⟨.leaf hcolon, h.leaf?⟩)
  · exact .next fun _ _ => .pure (List.forall_mem_nil _)

theorem indexOrSlice_marks (c : Cursor) : Gives indexOrSlice c fun s => s.tree.Marked false := by
  refine .next fun id d => .bind (bound?_marks d) fun start _ hstart => ?_
  refine .get (.next fun _ _ => .next fun at? _ => ?_)
  split
  · refine .token fun colon _ hcolon => .next fun _ d => ?_
    refine .bind (bound?_marks d) fun stop d hstop => ?_
    refine .bind (stepPart?_marks d) fun step _ hstep => .pure ?_
    refine .node trivial ?_
    simp only [List.forall_mem_append, List.forall_mem_cons]
    exact ⟨⟨hstart.leaf?, .leaf hcolon, hstop.leaf?⟩, hstep⟩
  · refine .next fun _ _ => ?_
    cases start with
    | some bound => exact .pure (.node trivial (Token.marked_leaves (hstart _ rfl)))
    | none => exact .placeholder fun _ _ h => .pure (.node trivial (Token.marked_leaves h))

theorem closeBracket_marks (opening : Token) (c : Cursor) :
    Gives (closeBracket opening) c fun t => t.isMark = false := by
  refine .next fun at? _ => ?_
  split
  · exact rfl
  · exact .next fun _ _ => rfl

theorem closeParen_marks (opening : Token) (c : Cursor) :
    Gives (closeParen opening) c fun t => t.isMark = false := by
  refine .next fun at? _ => ?_
  split
  · exact rfl
  · exact .next fun _ _ => rfl

/-- All trees that the parser gives have marks only at the start of paths. -/
def Marks (p : Parser Expr) : Prop := ∀ c, Gives p c fun e => e.tree.Marked false

section Filter

variable {filter : Parser Expr} (hfilter : filter.Marks)

include hfilter

theorem selector_marks (c : Cursor) : Gives (selector filter) c fun s => s.tree.Marked false := by
  have hstring (quote : Char) (d : Cursor) : Gives (do
      let id ← freshId
      let found ← stringLiteral quote
      return .name id found.1 found.2) d fun (s : Selector) => s.tree.Marked false :=
    .next fun _ d => .bind (stringLiteral_marks quote d) fun _ _ h =>
      .pure (.node trivial (Token.marked_leaves h))
  refine .peek ?_
  split
  · exact hstring _ c
  · exact hstring _ c
  · exact .next fun _ _ => .token fun _ _ h => .pure (.node trivial (Token.marked_leaves h))
  · refine .next fun id _ => .token fun question d hquestion => ?_
    refine .bind (hfilter d) fun test _ htest => .pure (.node trivial ?_)
    simp only [List.forall_mem_cons]
    exact ⟨.leaf hquestion, htest, List.forall_mem_nil _⟩
  · split
    · exact indexOrSlice_marks c
    · split
      · exact missingSelector_marks c
      · exact .next fun _ _ => .next fun _ _ => .placeholder fun _ _ h =>
          .pure (.node trivial (Token.marked_leaves h))
  · exact missingSelector_marks c

theorem selectors_marks (opening : Token) (rounds : Nat) (c : Cursor) :
    Gives (selectors filter opening rounds) c fun found =>
      (∀ t ∈ found.1.trees, t.Marked false) ∧ found.2.isMark = false := by
  induction rounds generalizing c with
  | zero =>
    refine .bind (missingSelector_marks c) fun s d hs => ?_
    refine .bind (closeBracket_marks opening d) fun closing _ hclosing => .pure ⟨?_, hclosing⟩
    exact List.forall_mem_singleton.mpr hs
  | succ rounds ih =>
    refine .next fun _ d => .bind (selector_marks hfilter d) fun s _ hs => ?_
    refine .next fun _ _ => .next fun _ _ => .next fun at? d => ?_
    split
    · refine .token fun comma d hcomma => .bind (ih d) fun found _ hfound => .pure ⟨?_, hfound.2⟩
      simp only [Selectors.trees, List.forall_mem_cons]
      exact ⟨hs, .leaf hcomma, hfound.1⟩
    · refine .bind (closeBracket_marks opening d) fun closing _ hclosing => .pure ⟨?_, hclosing⟩
      exact List.forall_mem_singleton.mpr hs

theorem bracketed_marks (id : Nat) {dots : Option Token} (hdots : Token.Unmarked dots)
    (c : Cursor) : Gives (bracketed filter id dots) c fun s => s.tree.Marked true := by
  refine .token fun opening d hopening => .get ?_
  refine .bind (selectors_marks hfilter opening _ d) fun found _ hfound => .pure (.node trivial ?_)
  simp only [List.forall_mem_append, List.forall_mem_cons]
  exact ⟨⟨hdots.leaf?, .leaf hopening, hfound.1⟩, .leaf hfound.2, List.forall_mem_nil _⟩

theorem segment?_marks (c : Cursor) :
    Gives (segment? filter) c fun found => ∀ s, found = some s → s.tree.Marked true := by
  have hbracketed (id : Nat) {dots : Option Token} (hdots : Token.Unmarked dots) (d : Cursor) :
      Gives (some <$> bracketed filter id dots) d fun found =>
        ∀ s, found = some s → s.tree.Marked true := by
    refine .map ?_
    have hgives := bracketed_marks hfilter id hdots d
    rintro s ⟨⟩
    exact hgives
  have hshorthand (id : Nat) {dots : Token} (hdots : dots.isMark = false) (after : TokenKind)
      (d : Cursor) :
      Gives (do return some (.shorthand id dots (← shorthandSelector after))) d
        fun (found : Option Segment) => ∀ s, found = some s → s.tree.Marked true := by
    refine .bind (shorthandSelector_marks after d) fun selector _ h => .pure ?_
    rintro s ⟨⟩
    refine .node trivial ?_
    simp only [List.forall_mem_cons]
    exact ⟨.leaf hdots, h, List.forall_mem_nil _⟩
  refine .get (.next fun _ _ => .next fun at? _ => ?_)
  split
  · refine .next fun id _ => .token fun dots _ hdots => .next fun _ _ => .next fun at? d => ?_
    split
    · refine hbracketed id (fun t ht => ?_) d
      cases ht
      exact hdots
    · exact hshorthand id hdots _ d
  · refine .next fun at? _ => ?_
    split
    · exact .next fun id _ => .token fun dot _ hdot => .next fun _ d => hshorthand id hdot _ d
    · refine .next fun at? _ => ?_
      split
      · exact .next fun id d => hbracketed id Token.unmarked_none d
      · exact .next fun _ _ => .pure (by simp)

theorem segments_marks (rounds : Nat) (path : Path) (hpath : ∀ t ∈ path.parts, t.Marked true)
    (c : Cursor) :
    Gives (segments filter rounds path) c fun p => ∀ t ∈ p.parts, t.Marked true := by
  induction rounds generalizing c path with
  | zero => exact .pure hpath
  | succ rounds ih =>
    refine .bind (segment?_marks hfilter c) fun found d hfound => ?_
    cases found with
    | none => exact .pure hpath
    | some segment =>
      refine ih _ ?_ d
      simp only [Path.parts, List.forall_mem_append]
      exact ⟨hpath, List.forall_mem_singleton.mpr (hfound segment rfl)⟩

theorem pathExpression_marks {kind : TokenKind} (hkind : kind.isMark = true) :
    (pathExpression filter kind).Marks := by
  refine fun c => .next fun id _ => .next fun pathId _ => .token fun identifier d hmark => .get ?_
  have hroot : ∀ t ∈ (Path.root pathId identifier).parts, t.Marked true :=
    List.forall_mem_singleton.mpr (.leaf (hmark.trans hkind))
  refine .bind (segments_marks hfilter _ _ hroot d) fun p _ hp => .pure ?_
  exact .node trivial (List.forall_mem_singleton.mpr (.node trivial hp))

theorem remainder_marks (rounds : Nat) (path : Path) (hpath : ∀ t ∈ path.parts, t.Marked true)
    (c : Cursor) :
    Gives (remainder filter rounds path) c fun p => ∀ t ∈ p.parts, t.Marked true := by
  induction rounds generalizing c path with
  | zero => exact .pure hpath
  | succ rounds ih =>
    refine .next fun trailing d => .peek ?_
    split
    · dsimp only
      split
      · exact .next fun _ _ => .pure hpath
      · exact .pure hpath
    · refine .next fun _ d => .get ?_
      exact .bind (segments_marks hfilter _ path hpath d) fun further d h => ih further h d

end Filter

/-! ### Expressions -/

theorem numberLiteral_marks : numberLiteral.Marks := by
  refine fun c => .next fun id d => .get ?_
  extract_lets t final exponent fraction
  have hfinal (u : PUnit) (d : Cursor) : Gives (final u) d fun e => e.tree.Marked false :=
    .token fun _ _ h => .pure (.node trivial (Token.marked_leaves h))
  have hexponent (u : PUnit) (d : Cursor) : Gives (exponent u) d fun e => e.tree.Marked false := by
    unfold exponent
    split
    · exact .next hfinal
    · exact hfinal ⟨⟩ d
  have hfraction (u : PUnit) (d : Cursor) : Gives (fraction u) d fun e => e.tree.Marked false := by
    unfold fraction
    split
    · exact .next hexponent
    · exact hexponent ⟨⟩ d
  split
  · exact .next hfraction
  · split
    · exact .next hfraction
    · exact hfraction ⟨⟩ d

theorem missingExpression_marks : missingExpression.Marks :=
  fun _ => .next fun _ _ => .next fun _ _ => .placeholder fun _ _ h =>
    .pure (.node trivial (Token.marked_leaves h))

theorem operands_marks {operand : Parser Expr} (hoperand : operand.Marks) {kind : TokenKind}
    (hkind : kind.isMark = false) (mark : List Char) (rounds : Nat) (c : Cursor) :
    Gives (operands kind mark operand rounds) c fun os => ∀ t ∈ os.trees, t.Marked false := by
  induction rounds generalizing c with
  | zero =>
    exact .bind (missingExpression_marks c) fun e _ he =>
      .pure (List.forall_mem_singleton.mpr he)
  | succ rounds ih =>
    refine .bind (hoperand c) fun first _ hfirst => .next fun _ _ => .next fun at? _ => ?_
    split
    · refine .token fun operator d hoperator => .bind (ih d) fun rest _ hrest => .pure ?_
      simp only [Operands.trees, List.forall_mem_cons]
      exact ⟨hfirst, .leaf (hoperator.trans hkind), hrest⟩
    · exact .pure (List.forall_mem_singleton.mpr hfirst)

theorem arguments_marks {argument : Parser Expr} (hargument : argument.Marks) (opening : Token)
    (rounds : Nat) (c : Cursor) :
    Gives (arguments argument opening rounds) c fun found =>
      (∀ t ∈ found.1.trees, t.Marked false) ∧ found.2.isMark = false := by
  induction rounds generalizing c with
  | zero =>
    refine .bind (missingExpression_marks c) fun e d he => ?_
    refine .bind (closeParen_marks opening d) fun closing _ hclosing => .pure ⟨?_, hclosing⟩
    exact List.forall_mem_singleton.mpr he
  | succ rounds ih =>
    refine .bind (hargument c) fun e _ he => .next fun _ _ => .next fun _ _ => ?_
    refine .next fun at? d => ?_
    split
    · refine .token fun comma d hcomma => .bind (ih d) fun found _ hfound => .pure ⟨?_, hfound.2⟩
      simp only [Operands.trees, List.forall_mem_cons]
      exact ⟨he, .leaf hcomma, hfound.1⟩
    · refine .bind (closeParen_marks opening d) fun closing _ hclosing => .pure ⟨?_, hclosing⟩
      exact List.forall_mem_singleton.mpr he

theorem call_marks {argument : Parser Expr} (hargument : argument.Marks) (id : Nat) {name : Token}
    (hname : name.isMark = false) (c : Cursor) :
    Gives (call argument id name) c fun e => e.tree.Marked false := by
  have htree {opening closing : Token} {found : Arguments} (hopening : opening.isMark = false)
      (hclosing : closing.isMark = false) (h : ∀ t ∈ found.trees, t.Marked false) :
      (Expr.call id name opening found closing).tree.Marked false := by
    refine .node trivial ?_
    simp only [List.forall_mem_append, List.forall_mem_cons]
    exact ⟨⟨.leaf hname, .leaf hopening, h⟩, .leaf hclosing, List.forall_mem_nil _⟩
  refine .token fun opening _ hopening => .next fun _ _ => .next fun at? d => ?_
  split
  · exact .token fun closing _ hclosing => .pure (htree hopening hclosing (List.forall_mem_nil _))
  · exact .get (.bind (arguments_marks hargument opening _ d) fun found _ h =>
      .pure (htree hopening h.2 h.1))

theorem callOrWord_marks {argument : Parser Expr} (hargument : argument.Marks) :
    (callOrWord argument).Marks := by
  refine fun c => .next fun id d => .get ?_
  have hliteral {kind : TokenKind} (hkind : kind.isMark = false) (count : Nat) (value : Json) :
      Gives (do return .literal id (← take kind count) value) d fun (e : Expr) =>
        e.tree.Marked false :=
    .token fun _ _ h => .pure (.node trivial (Token.marked_leaves (h.trans hkind)))
  extract_lets word after
  split
  · exact .token fun name _ hname => .next fun _ e => call_marks hargument id hname e
  · split
    · exact hliteral rfl _ _
    · split
      · exact hliteral rfl _ _
      · split
        · exact hliteral rfl _ _
        · exact .next fun _ _ => .next fun _ _ => .placeholder fun _ _ h =>
            .pure (.node trivial (Token.marked_leaves h))

/-- The parsers of a depth give such trees. -/
structure Expressions.Marks (inner : Expressions) : Prop where
  disjunction : inner.disjunction.Marks
  negation : inner.negation.Marks
  primary : inner.primary.Marks

theorem primary_marks {inner : Expressions} (h : inner.Marks) : (primary inner).Marks := by
  have hstring (quote : Char) (d : Cursor) : Gives (do
      let id ← freshId
      let found ← stringLiteral quote
      return .literal id found.1 (.string found.2)) d fun (e : Expr) => e.tree.Marked false :=
    .next fun _ d => .bind (stringLiteral_marks quote d) fun _ _ h =>
      .pure (.node trivial (Token.marked_leaves h))
  refine fun c => .next fun _ d => .get ?_
  split
  · refine .next fun id _ => .token fun opening d hopening => ?_
    refine .bind (h.disjunction d) fun e _ he => .next fun _ d => ?_
    refine .bind (closeParen_marks opening d) fun closing _ hclosing => .pure (.node trivial ?_)
    simp only [List.forall_mem_cons]
    exact ⟨.leaf hopening, he, .leaf hclosing, List.forall_mem_nil _⟩
  · split
    · exact missingExpression_marks d
    · refine .next fun id _ => .token fun bang d hbang => ?_
      refine .bind (h.primary d) fun e _ he => .pure (.node trivial ?_)
      simp only [List.forall_mem_cons]
      exact ⟨.leaf hbang, he, List.forall_mem_nil _⟩
  · exact pathExpression_marks h.disjunction rfl d
  · exact pathExpression_marks h.disjunction rfl d
  · exact hstring _ d
  · exact hstring _ d
  · split
    · exact numberLiteral_marks d
    · split
      · exact callOrWord_marks h.disjunction d
      · exact missingExpression_marks d
  · exact missingExpression_marks d

theorem comparison_marks {inner : Expressions} (h : inner.Marks) : (comparison inner).Marks := by
  refine fun c => .bind (primary_marks h c) fun left _ hleft => .next fun _ d => .get ?_
  split
  · exact .pure hleft
  · rename_i op _ _
    have hkind : op.tokenKind.isMark = false := by cases op <;> rfl
    refine .next fun id _ => .token fun operator _ hoperator => ?_
    extract_lets final
    have hfinal (u : PUnit) (d : Cursor) : Gives (final u) d fun e => e.tree.Marked false := by
      refine .bind (primary_marks h d) fun right _ hright => ?_
      refine .next fun _ _ => .next fun _ _ => .pure (.node trivial ?_)
      simp only [List.forall_mem_cons]
      exact ⟨hleft, .leaf (hoperator.trans hkind), hright, List.forall_mem_nil _⟩
    split
    · exact .next hfinal
    · exact hfinal ⟨⟩ _

theorem negation_marks {inner : Expressions} (h : inner.Marks) : (negation inner).Marks := by
  refine fun c => .next fun _ _ => .next fun at? _ => .next fun equal _ => ?_
  split
  · refine .next fun id _ => .token fun bang d hbang => ?_
    refine .bind (h.negation d) fun e _ he => .pure (.node trivial ?_)
    simp only [List.forall_mem_cons]
    exact ⟨.leaf hbang, he, List.forall_mem_nil _⟩
  · exact comparison_marks h _

theorem joined_marks {operand : Parser Expr} (hoperand : operand.Marks) {kind : TokenKind}
    (hkind : kind.isMark = false) (mark : List Char) {make : Nat → Expr → Token → Operands → Expr}
    (hmake : ∀ id (first : Expr) (operator : Token) (rest : Operands), first.tree.Marked false →
      operator.isMark = false → (∀ t ∈ rest.trees, t.Marked false) →
      (make id first operator rest).tree.Marked false) :
    (joined kind mark make operand).Marks := by
  refine fun c => .bind (hoperand c) fun first _ hfirst => .next fun _ _ => .next fun at? _ => ?_
  split
  · refine .next fun id _ => .token fun operator d hoperator => .get ?_
    refine .bind (operands_marks hoperand hkind mark _ d) fun rest _ hrest => .pure ?_
    exact hmake id first operator rest hfirst (hoperator.trans hkind) hrest
  · exact .pure hfirst

theorem conjunction_marks {inner : Expressions} (h : inner.Marks) : (conjunction inner).Marks := by
  refine joined_marks (negation_marks h) rfl _
    fun id first operator rest hfirst hoperator hrest => ?_
  refine .node trivial ?_
  simp only [List.forall_mem_cons]
  exact ⟨hfirst, .leaf hoperator, hrest⟩

theorem disjunction_marks {inner : Expressions} (h : inner.Marks) : (disjunction inner).Marks := by
  refine joined_marks (conjunction_marks h) rfl _
    fun id first operator rest hfirst hoperator hrest => ?_
  refine .node trivial ?_
  simp only [List.forall_mem_cons]
  exact ⟨hfirst, .leaf hoperator, hrest⟩

theorem expressions_marks (depth : Nat) : (expressions depth).Marks := by
  induction depth with
  | zero => exact ⟨missingExpression_marks, missingExpression_marks, missingExpression_marks⟩
  | succ depth ih => exact ⟨disjunction_marks ih, negation_marks ih, primary_marks ih⟩

theorem identifier_marks (c : Cursor) : Gives identifier c fun t => t.isMark = true := by
  refine .peek ?_
  split
  · exact rfl
  · exact .token fun _ _ h => .next fun _ _ => .pure h
  · exact .next fun _ _ => rfl

end Parser

namespace Query

theorem body_marks {filter : Parser Expr} (hfilter : filter.Marks) (c : Cursor) :
    Parser.Gives (body filter) c fun found => ∀ t ∈ found.2.parts, t.Marked true := by
  refine .next fun id _ => .next fun pathId _ => .next fun _ d => ?_
  refine .bind (Parser.identifier_marks d) fun identifier d hmark => .get ?_
  have hroot : ∀ t ∈ (Path.root pathId identifier).parts, t.Marked true :=
    List.forall_mem_singleton.mpr (.leaf hmark)
  refine .bind (Parser.segments_marks hfilter _ _ hroot d) fun path d hpath => ?_
  exact .get (.bind (Parser.remainder_marks hfilter _ path hpath d) fun path' _ h => .pure h)

theorem filterParser_marks (source : String) : (filterParser source).Marks :=
  (Parser.expressions_marks _).disjunction

theorem marked {q : Query} (hparts : ∀ t ∈ q.path.parts, t.Marked true)
    (hending : q.ending.isMark = false) : q.tree.Marked false := by
  refine .node trivial ?_
  simp only [List.forall_mem_cons]
  exact ⟨.node trivial hparts, .leaf hending, List.forall_mem_nil _⟩

/-- In the tree of every text the marks are the first tokens of paths. -/
theorem parse_marked (source : String) : (parse source).tree.Marked false := by
  refine marked ?_ ?_
  · rw [parse_path]
    exact body_marks (filterParser_marks source) _
  · obtain ⟨last, -, -, hending, -⟩ := parse_run source
    rw [hending]
    rfl

end Query

end JsonPath
