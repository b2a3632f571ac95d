import JsonPath.Proofs.Syntax.Elements
import JsonPath.Proofs.Syntax.Regular

/-!
What the numbers of a query are read from. In a text without fault every index and every bound of a
slice is spelt as the grammar wants it, and so is every number literal; what the tree holds is made
of the text of the token and of nothing else.
-/

namespace JsonPath

open Grammar

namespace Parser.IntegerText

/-- The whole number that is written, of however many digits. -/
def exact (t : IntegerText) : Int :=
  if t.negative then -Text.decimalValue t.digits else Text.decimalValue t.digits

/-- What is stored is the number written, cut to 64 bits. -/
theorem value_eq (t : IntegerText) : t.value = max (-(2 ^ 63)) (min (2 ^ 63 - 1) t.exact) := by
  unfold value exact
  dsimp only
  split <;> omega

/-- The sign and the digits of an index are all that is read of its text. -/
theorem ofChars_take {chars : List Char} (h : (ofChars chars).InOrder) :
    (ofChars (chars.take (ofChars chars).wholeLength)).negative = (ofChars chars).negative ∧
      (ofChars (chars.take (ofChars chars).wholeLength)).digits = (ofChars chars).digits := by
  have hwhole : Whole ((unsigned chars).takeWhile Text.isDigit) :=
    whole_of_digits (fun _ hx => isDigit_of_mem_takeWhile hx) h.digits_ne h.zeros
  rw [wholeLength_ofChars, ← List.prefix_iff_eq_take.mp ⟨_, digits_append chars⟩]
  obtain ⟨hsign, hunsigned⟩ := unsigned_sign (sign_minusOf chars) hwhole []
  rw [List.append_nil] at hsign hunsigned
  refine ⟨?_, ?_⟩
  · have hminus (w : List Char) : (ofChars w).negative = decide (minusOf w = ['-']) := by
      by_cases hw : w.head? = some '-' <;> simp [ofChars, minusOf, hw]
    rw [hminus, hminus, hsign]
  · have hends : EndsDigits [] := by simp [EndsDigits]
    have hdigits := (takeWhile_digits (Whole.digits hwhole).2.1 hends).1
    rw [List.append_nil] at hunsigned hdigits
    rw [ofChars, hunsigned, hdigits]
    rfl

end Parser.IntegerText

namespace Bound

/-- The whole number that the token of a bound is the text of. -/
def exact (b : Bound) : Int := (Parser.IntegerText.ofChars b.token.text.toList).exact

/-- The text of a bound is that of an index, and the bound is what it is written as, cut to 64
bits. -/
structure Written (b : Bound) : Prop where
  present : b.token.missing = false
  index : Index b.token.text.toList
  value : b.value = max (-(2 ^ 63)) (min (2 ^ 63 - 1) b.exact)

end Bound

/-- The index, or the bounds of the slice, in the order in which they are written. -/
def Selector.bounds : Selector → List Bound
  | .index _ token value => [⟨token, value⟩]
  | .slice _ start _ stop step =>
    start.toList ++ stop.toList ++ (step.bind (·.bound)).toList
  | _ => []

def Element.bounds : Element → List Bound
  | .selector s => s.bounds
  | _ => []

/-- A number literal has the text of a number, and the value that is read from it. Other literals
are no numbers. -/
def Expr.Written : Expr → Prop
  | .literal _ token value =>
    (token.kind = .number → Grammar.Number token.text.toList ∧
      value = Parser.numberValue token.text) ∧
    (token.kind ≠ .number → ∀ n, value ≠ .number n)
  | _ => True

/-- The numbers that are part of the element itself are those that are written. -/
def Element.Written : Element → Prop
  | .selector s => ∀ b ∈ s.bounds, b.Written
  | .expression e => e.Written
  | _ => True

/-- All numbers in the tree are those that are written. -/
abbrev Tree.Written (t : Tree) : Prop := t.All Element.Written

theorem Token.written_leaf (t : Token) : (Tree.leaf t).Written := Tree.All.leaf trivial

theorem Token.written_leaf? (t : Option Token) : ∀ c ∈ Tree.leaf? t, c.Written :=
  Tree.All.leaf? fun _ => trivial

theorem Token.written_leaves (t : Token) : ∀ c ∈ [Tree.leaf t], c.Written :=
  List.forall_mem_singleton.mpr t.written_leaf

theorem StepPart.written_leaves (part : Option StepPart) :
    ∀ c ∈ StepPart.leaves part, c.Written := by
  cases part with
  | none => exact List.forall_mem_nil _
  | some part =>
    exact List.forall_mem_cons.mpr ⟨part.colon.written_leaf, Token.written_leaf? _⟩

namespace Parser

variable {α β : Type}

/-- Run from the cursor, the parser gives a result with the property, where it reports nothing. -/
abbrev Clean (p : Parser α) (c : Cursor) (P : α → Prop) : Prop := Reads p c fun a _ => P a

namespace Clean

variable {p : Parser α} {f : α → Parser β} {c : Cursor} {P : α → Prop} {Q : β → Prop}

theorem bind (hp : Clean p c P) (hf : ∀ a d, Clean (f a) d fun b => P a → Q b) :
    Clean (p >>= f) c Q :=
  Reads.bind hp fun a d => (hf a d).mono fun _ _ h _ ha => h ha

/-- A parser whose result does not matter may come first. -/
theorem next {R : α → List Char → Prop} (hp : Reads p c R) (hf : ∀ a d, Clean (f a) d Q) :
    Clean (p >>= f) c Q :=
  Reads.bind hp fun a d => (hf a d).mono fun _ _ h _ _ => h

theorem goOn {start : Cursor} (h : Clean p (start.pass start.blanks) P) :
    ReadsFrom start p (start.pass start.blanks) fun a _ => P a :=
  .goOn (h.mono fun _ _ ha _ _ => ha)

end Clean

theorem integer_clean (c : Cursor) : Clean integer c Bound.Written := by
  refine (integer_token c).mono ?_
  rintro ⟨token, value⟩ w ⟨horder, rfl, htext, hmissing, rfl⟩
  obtain ⟨hsign, hdigits⟩ := IntegerText.ofChars_take horder
  dsimp only at htext
  refine ⟨hmissing, ?_, ?_⟩
  · rw [htext, String.toList_ofList]
    exact horder.index
  · rw [Bound.exact, IntegerText.exact, htext, String.toList_ofList, hsign, hdigits]
    exact (IntegerText.ofChars c.rest).value_eq

theorem bound?_clean (c : Cursor) : Clean bound? c fun b => ∀ x ∈ b.toList, x.Written := by
  refine .peek ?_
  split
  · split
    · exact .map ((integer_clean c).mono fun _ _ h => List.forall_mem_singleton.mpr h)
    · exact .pure (List.forall_mem_nil _)
  · exact .pure (List.forall_mem_nil _)

theorem numberLiteral_clean (c : Cursor) : Clean numberLiteral c fun e => e.tree.Written := by
  refine (numberLiteral_token c).mono ?_
  rintro e w ⟨hw, id, token, rfl, hkind, htext⟩
  refine .node ⟨fun _ => ⟨?_, rfl⟩, fun h => absurd hkind h⟩ token.written_leaves
  rwa [htext, String.toList_ofList]

theorem stringLiteral_kind (quote : Char) (c : Cursor) :
    (stringLiteral quote c).1.1.kind = .string := by
  have hgives : Gives (stringLiteral quote) c fun found => found.1.kind = .string := by
    refine .get ?_
    rcases StringLiteral.body quote (c.rest.drop 1) with ⟨body, closed⟩
    rcases StringLiteral.decode quote body with ⟨value, faults⟩
    dsimp only
    split
    · exact .next fun _ _ => .next fun _ _ => rfl
    · exact .next fun _ _ => rfl
  exact hgives

/-! ### Selectors and segments -/

theorem missingSelector_clean (c : Cursor) : Clean missingSelector c fun s => s.tree.Written :=
  missingSelector_reads c

theorem shorthandSelector_clean (after : TokenKind) (c : Cursor) :
    Clean (shorthandSelector after) c fun s => s.tree.Written := by
  refine .element fun id => .get ?_
  split
  · exact .take (.pure (.node (List.forall_mem_nil _) (Token.written_leaves _)))
  · split
    · exact .take (.pure (.node (List.forall_mem_nil _) (Token.written_leaves _)))
    · exact missingToken_any ..
  · exact missingToken_any ..

theorem stepPart?_clean (c : Cursor) :
    Clean stepPart? c fun part => ∀ x ∈ (part.bind (·.bound)).toList, x.Written := by
  refine .lookAhead (.isAt ?_)
  split
  · exact Clean.goOn (.take (.passBlanks (Clean.bind (bound?_clean _) fun _ _ => .pure id)))
  · exact .goBack (.pure (List.forall_mem_nil _))

theorem indexOrSlice_clean (c : Cursor) : Clean indexOrSlice c fun s => s.tree.Written := by
  refine .element fun id => Clean.bind (bound?_clean _) fun start d => .lookAhead (.isAt ?_)
  split
  · refine Clean.goOn (.take (.passBlanks (Clean.bind (bound?_clean _) fun stop _ => ?_)))
    refine Clean.bind (stepPart?_clean _) fun step _ => .pure fun hstep hstop hstart => ?_
    refine .node ?_ ?_
    · simp only [Element.Written, Selector.bounds, List.forall_mem_append]
      exact ⟨⟨hstart, hstop⟩, hstep⟩
    · simp only [List.forall_mem_append, List.forall_mem_cons]
      exact ⟨⟨Token.written_leaf? _, Token.written_leaf _, Token.written_leaf? _⟩,
        StepPart.written_leaves step⟩
  · refine .goBack ?_
    cases start with
    | some bound => exact .pure fun hstart => .node hstart bound.token.written_leaves
    | none =>
      exact Clean.next (missing_any _ _) fun token _ => .pure fun _ =>
        .node (List.forall_mem_nil _) token.written_leaves

/-- All trees that the parser gives without a report hold the numbers that are written. -/
def Faithful (p : Parser Expr) : Prop := ∀ c, Clean p c fun e => e.tree.Written

section Filter

variable {filter : Parser Expr} (hfilter : filter.Faithful)

include hfilter

theorem selector_clean (c : Cursor) : Clean (selector filter) c fun s => s.tree.Written := by
  have hstring {quote : Char} (hmark : quote = '\'' ∨ quote = '"')
      (hquote : c.rest.head? = some quote) : Clean (do
      let id ← freshId
      let found ← stringLiteral quote
      return .name id found.1 found.2) c fun (s : JsonPath.Selector) => s.tree.Written :=
    .element fun id => Clean.next (stringLiteral_reads hmark hquote) fun found _ =>
      .pure (.node (List.forall_mem_nil _) found.1.written_leaves)
  refine .peek ?_
  split
  · rename_i hx
    exact hstring (.inl rfl) hx
  · rename_i hx
    exact hstring (.inr rfl) hx
  · exact .element fun id => .take (.pure (.node (List.forall_mem_nil _) (Token.written_leaves _)))
  · refine .element fun id => .take (Clean.bind (hfilter _) fun test _ => .pure fun htest => ?_)
    refine .node (List.forall_mem_nil _) ?_
    simp only [List.forall_mem_cons]
    exact ⟨Token.written_leaf _, htest, List.forall_mem_nil _⟩
  · split
    · exact indexOrSlice_clean c
    · split
      · exact missingSelector_clean c
      · exact .element fun id => Clean.next (skipGarbage_reads _ _ _) fun _ _ =>
          Clean.next (missing_any _ _) fun token _ =>
            .pure (.node (List.forall_mem_nil _) token.written_leaves)
  · exact missingSelector_clean c

theorem selectors_clean (opening : Token) (rounds : Nat) (c : Cursor) :
    Clean (selectors filter opening rounds) c fun found => ∀ t ∈ found.1.trees, t.Written := by
  induction rounds generalizing c with
  | zero =>
    exact Clean.bind (missingSelector_clean c) fun s _ =>
      Clean.next (closeBracket_reads _ _) fun _ _ => .pure List.forall_mem_singleton.mpr
  | succ rounds ih =>
    refine .passBlanks (Clean.bind (selector_clean hfilter _) fun s _ => .passBlanks ?_)
    refine Clean.next (skipGarbage_reads _ _ _) fun _ _ => .isAt ?_
    split
    · refine .take (Clean.bind (ih _) fun found _ => .pure fun hrest hs => ?_)
      simp only [Selectors.trees, List.forall_mem_cons]
      exact ⟨hs, Token.written_leaf _, hrest⟩
    · exact Clean.next (closeBracket_reads _ _) fun _ _ => .pure List.forall_mem_singleton.mpr

theorem bracketed_clean (id : Nat) (dots : Option Token) (c : Cursor) :
    Clean (bracketed filter id dots) c fun s => s.tree.Written := by
  refine .take (.get (Clean.bind (selectors_clean hfilter _ _ _) fun found _ => .pure fun h => ?_))
  refine .node trivial ?_
  simp only [List.forall_mem_append, List.forall_mem_cons]
  exact ⟨⟨Token.written_leaf? dots, Token.written_leaf _, h⟩, found.2.written_leaf,
    List.forall_mem_nil _⟩

theorem segment?_clean (c : Cursor) :
    Clean (segment? filter) c fun found => ∀ s, found = some s → s.tree.Written := by
  have hbracketed (id : Nat) (dots : Option Token) (d : Cursor) :
      Clean (some <$> bracketed filter id dots) d fun found =>
        ∀ s, found = some s → s.tree.Written :=
    .map ((bracketed_clean hfilter id dots d).mono fun _ _ h _ hs => Option.some.inj hs ▸ h)
  have hshorthand (id : Nat) (dots : Token) (after : TokenKind) (d : Cursor) :
      Clean (do return some (.shorthand id dots (← shorthandSelector after))) d
        fun (found : Option JsonPath.Segment) => ∀ s, found = some s → s.tree.Written := by
    refine Clean.bind (shorthandSelector_clean after d) fun selector _ => .pure ?_
    rintro h s ⟨⟩
    refine .node trivial ?_
    simp only [List.forall_mem_cons]
    exact ⟨dots.written_leaf, h, List.forall_mem_nil _⟩
  refine .lookAhead (.isAt ?_)
  split
  · refine Clean.goOn (.element fun id => .take ?_)
    refine Clean.next (rejectBlanks_reads _ _) fun _ d => .isAt ?_
    split
    · exact hbracketed id _ d
    · exact hshorthand id _ _ d
  · refine .isAt ?_
    split
    · exact Clean.goOn (.element fun id => .take (Clean.next (rejectBlanks_reads _ _) fun _ d =>
        hshorthand id _ _ d))
    · refine .isAt ?_
      split
      · exact Clean.goOn (.element fun id => hbracketed id _ _)
      · exact .goBack (.pure (by simp))

theorem segments_clean (rounds : Nat) (path : Path) (c : Cursor) :
    Clean (segments filter rounds path) c fun p =>
      (∀ t ∈ path.parts, t.Written) → ∀ t ∈ p.parts, t.Written := by
  induction rounds generalizing c path with
  | zero => exact .pure id
  | succ rounds ih =>
    refine Clean.bind (segment?_clean hfilter c) fun found d => ?_
    cases found with
    | none => exact .pure fun _ => id
    | some segment =>
      refine (ih _ d).mono fun p _ hrest hsegment hpath => hrest ?_
      simp only [Path.parts, List.forall_mem_append]
      exact ⟨hpath, List.forall_mem_singleton.mpr (hsegment segment rfl)⟩

theorem pathExpression_clean (kind : TokenKind) : (pathExpression filter kind).Faithful := by
  refine fun c => .element fun id => .element fun pathId => .take (.get ?_)
  refine Clean.bind (segments_clean hfilter _ _ _) fun p _ => .pure fun h => ?_
  have hparts := h (Token.written_leaves _)
  exact .node trivial (List.forall_mem_singleton.mpr (.node trivial hparts))

theorem remainder_clean (rounds : Nat) (path : Path) (c : Cursor) :
    Clean (remainder filter rounds path) c fun p =>
      (∀ t ∈ path.parts, t.Written) → ∀ t ∈ p.parts, t.Written := by
  induction rounds generalizing c path with
  | zero => exact .pure id
  | succ rounds ih =>
    refine .passBlanks (.peek ?_)
    split
    · dsimp only
      split
      · exact .report (.pure trivial)
      · exact .pure id
    · refine Clean.next (skipGarbage_reads _ _ _) fun _ d => .get ?_
      refine Clean.bind (segments_clean hfilter _ path d) fun further d => ?_
      exact (ih further d).mono fun _ _ hrest hfurther hpath => hrest (hfurther hpath)

end Filter

/-! ### Expressions -/

theorem missingExpression_clean : missingExpression.Faithful := fun c => missingExpression_reads c

theorem operands_clean {operand : Parser Expr} (hoperand : operand.Faithful) (kind : TokenKind)
    (mark : List Char) (rounds : Nat) (c : Cursor) :
    Clean (operands kind mark operand rounds) c fun os => ∀ t ∈ os.trees, t.Written := by
  induction rounds generalizing c with
  | zero =>
    exact Clean.bind (missingExpression_clean c) fun _ _ => .pure List.forall_mem_singleton.mpr
  | succ rounds ih =>
    refine Clean.bind (hoperand c) fun first _ => .passBlanks (.isAt ?_)
    split
    · refine .take (Clean.bind (ih _) fun rest _ => .pure fun hrest hfirst => ?_)
      simp only [Operands.trees, List.forall_mem_cons]
      exact ⟨hfirst, Token.written_leaf _, hrest⟩
    · exact .pure List.forall_mem_singleton.mpr

theorem arguments_clean {argument : Parser Expr} (hargument : argument.Faithful) (opening : Token)
    (rounds : Nat) (c : Cursor) :
    Clean (arguments argument opening rounds) c fun found =>
      ∀ t ∈ found.1.trees, t.Written := by
  induction rounds generalizing c with
  | zero =>
    exact Clean.bind (missingExpression_clean c) fun _ _ =>
      Clean.next (closeParen_reads _ _) fun _ _ => .pure List.forall_mem_singleton.mpr
  | succ rounds ih =>
    refine Clean.bind (hargument c) fun first _ => .passBlanks ?_
    refine Clean.next (skipGarbage_reads _ _ _) fun _ _ => .isAt ?_
    split
    · refine .take (Clean.bind (ih _) fun found _ => .pure fun hrest hfirst => ?_)
      simp only [Operands.trees, List.forall_mem_cons]
      exact ⟨hfirst, Token.written_leaf _, hrest⟩
    · exact Clean.next (closeParen_reads _ _) fun _ _ => .pure List.forall_mem_singleton.mpr

theorem call_clean {argument : Parser Expr} (hargument : argument.Faithful) (id : Nat)
    (name : Token) (c : Cursor) : Clean (call argument id name) c fun e => e.tree.Written := by
  have htree (opening closing : Token) (found : Arguments) (h : ∀ t ∈ found.trees, t.Written) :
      (Expr.call id name opening found closing).tree.Written := by
    refine .node trivial ?_
    simp only [List.forall_mem_append, List.forall_mem_cons]
    exact ⟨⟨name.written_leaf, opening.written_leaf, h⟩, closing.written_leaf,
      List.forall_mem_nil _⟩
  refine .take (.passBlanks (.isAt ?_))
  split
  · exact .take (.pure (htree _ _ .none (List.forall_mem_nil _)))
  · exact .get (Clean.bind (arguments_clean hargument _ _ _) fun found _ =>
      .pure (htree _ _ (.some found.1)))

theorem callOrWord_clean {argument : Parser Expr} (hargument : argument.Faithful) :
    (callOrWord argument).Faithful := by
  refine fun c => .element fun id => .get ?_
  have hliteral (kind : TokenKind) (hkind : kind ≠ .number) (count : Nat) (value : Json)
      (hvalue : ∀ n, value ≠ .number n) (d : Cursor) :
      Clean (do return .literal id (← take kind count) value) d fun (e : Expr) =>
        e.tree.Written :=
    .take (.pure (.node ⟨fun h => absurd h hkind, fun _ => hvalue⟩ (Token.written_leaves _)))
  extract_lets word after
  split
  · exact .take (Clean.next (rejectBlanks_reads _ _) fun _ d => call_clean hargument id _ d)
  · split
    · exact hliteral .true (by decide) _ _ (by simp) _
    · split
      · exact hliteral .false (by decide) _ _ (by simp) _
      · split
        · exact hliteral .null (by decide) _ _ (by simp) _
        · exact .report (.pass ((missing_any _ _).bind fun _ _ => .pure fun _ _ => trivial))

/-- The parsers of a depth hold the numbers that are written. -/
structure Expressions.Faithful (inner : Expressions) : Prop where
  disjunction : inner.disjunction.Faithful
  negation : inner.negation.Faithful
  primary : inner.primary.Faithful

theorem primary_clean {inner : Expressions} (h : inner.Faithful) : (primary inner).Faithful := by
  refine fun c => .passBlanks (.get ?_)
  generalize c.pass c.blanks = d
  have hquoted {quote : Char} {more : List Char} (hmark : quote = '\'' ∨ quote = '"')
      (hquote : d.rest = quote :: more) : Clean (do
      let id ← freshId
      let found ← stringLiteral quote
      return .literal id found.1 (.string found.2)) d fun (e : Expr) => e.tree.Written := by
    refine .element fun id => ?_
    rcases hfound : stringLiteral quote { d with nextId := d.nextId + 1 } with ⟨found, e⟩
    have hkind : found.1.kind = .string := by
      rw [← stringLiteral_kind quote { d with nextId := d.nextId + 1 }, hfound]
    refine .bind_of_eq hfound (stringLiteral_reads hmark ?_) (.pure fun _ _ => ?_)
    · rw [show ({ d with nextId := d.nextId + 1 } : Cursor).rest = quote :: more from hquote]
      rfl
    · refine .node ⟨fun h => ?_, by simp⟩ found.1.written_leaves
      rw [hkind] at h
      cases h
  split
  · refine .element fun id => .take (Clean.bind (h.disjunction _) fun e _ => .passBlanks ?_)
    refine Clean.next (closeParen_reads _ _) fun closing _ => .pure fun he => ?_
    refine .node trivial ?_
    simp only [List.forall_mem_cons]
    exact ⟨Token.written_leaf _, he, closing.written_leaf, List.forall_mem_nil _⟩
  · split
    · exact missingExpression_clean d
    · refine .element fun id => .take (Clean.bind (h.primary _) fun e _ => .pure fun he => ?_)
      refine .node trivial ?_
      simp only [List.forall_mem_cons]
      exact ⟨Token.written_leaf _, he, List.forall_mem_nil _⟩
  · exact pathExpression_clean h.disjunction _ d
  · exact pathExpression_clean h.disjunction _ d
  · rename_i hrest
    exact hquoted (.inl rfl) hrest
  · rename_i hrest
    exact hquoted (.inr rfl) hrest
  · split
    · exact numberLiteral_clean d
    · split
      · exact callOrWord_clean h.disjunction d
      · exact missingExpression_clean d
  · exact missingExpression_clean d

theorem comparison_clean {inner : Expressions} (h : inner.Faithful) :
    (comparison inner).Faithful := by
  refine fun c => Clean.bind (primary_clean h c) fun left _ => .passBlanks (.get ?_)
  split
  · exact .pure id
  · rename_i op length _
    refine .element fun id => .take ?_
    extract_lets final
    have hfinal (d : Cursor) :
        Clean (final ()) d fun e => left.tree.Written → e.tree.Written := by
      refine Clean.bind (primary_clean h d) fun right _ => ?_
      refine Clean.next (checkComparable_reads left _) fun _ _ => ?_
      refine Clean.next (checkComparable_reads right _) fun _ _ => .pure fun hright hleft => ?_
      refine .node trivial ?_
      simp only [List.forall_mem_cons]
      exact ⟨hleft, Token.written_leaf _, hright, List.forall_mem_nil _⟩
    split
    · exact .report (hfinal _).any
    · exact hfinal _

theorem negation_clean {inner : Expressions} (h : inner.Faithful) :
    (negation inner).Faithful := by
  refine fun c => .passBlanks (.isAt (.isAt ?_))
  split
  · refine .element fun id => .take (Clean.bind (h.negation _) fun e _ => .pure fun he => ?_)
    refine .node trivial ?_
    simp only [List.forall_mem_cons]
    exact ⟨Token.written_leaf _, he, List.forall_mem_nil _⟩
  · exact comparison_clean h _

theorem joined_clean {operand : Parser Expr} (hoperand : operand.Faithful) (kind : TokenKind)
    (mark : List Char) {make : Nat → Expr → Token → Operands → Expr}
    (hmake : ∀ id (first : Expr) operator (rest : Operands), first.tree.Written →
      (∀ t ∈ rest.trees, t.Written) → (make id first operator rest).tree.Written) :
    (joined kind mark make operand).Faithful := by
  refine fun c => Clean.bind (hoperand c) fun first _ => .passBlanks (.isAt ?_)
  split
  · refine .element fun id => .take (.get (Clean.bind (operands_clean hoperand _ _ _ _) ?_))
    exact fun rest _ => .pure fun hrest hfirst => hmake _ _ _ _ hfirst hrest
  · exact .pure id

theorem conjunction_clean {inner : Expressions} (h : inner.Faithful) :
    (conjunction inner).Faithful := by
  refine joined_clean (negation_clean h) _ _ fun id first operator rest hfirst hrest => ?_
  refine .node trivial ?_
  simp only [List.forall_mem_cons]
  exact ⟨hfirst, operator.written_leaf, hrest⟩

theorem disjunction_clean {inner : Expressions} (h : inner.Faithful) :
    (disjunction inner).Faithful := by
  refine joined_clean (conjunction_clean h) _ _ fun id first operator rest hfirst hrest => ?_
  refine .node trivial ?_
  simp only [List.forall_mem_cons]
  exact ⟨hfirst, operator.written_leaf, hrest⟩

theorem expressions_faithful (depth : Nat) : (expressions depth).Faithful := by
  induction depth with
  | zero => exact ⟨missingExpression_clean, missingExpression_clean, missingExpression_clean⟩
  | succ depth ih => exact ⟨disjunction_clean ih, negation_clean ih, primary_clean ih⟩

end Parser

namespace Query

theorem body_clean {filter : Parser Expr} (hfilter : filter.Faithful) (c : Cursor) :
    Parser.Clean (body filter) c fun found => ∀ t ∈ found.2.parts, t.Written := by
  refine .element fun id => .element fun pathId => ?_
  refine Parser.Clean.next (Parser.rejectBlanks_reads _ _) fun _ _ => ?_
  refine Parser.Clean.next (Parser.identifier_reads _) fun identifier _ => .get ?_
  refine Parser.Clean.bind (Parser.segments_clean hfilter _ _ _) fun path _ => .get ?_
  refine Parser.Clean.bind (Parser.remainder_clean hfilter _ _ _) fun path' _ => .pure ?_
  exact fun hrest hpath => hrest (hpath identifier.written_leaves)

theorem filterParser_faithful (source : String) : (filterParser source).Faithful :=
  (Parser.expressions_faithful _).disjunction

/-- In a text without fault all numbers are those that are written. -/
theorem parse_written {source : String} (h : (parse source).faults = []) :
    (parse source).tree.Written := by
  have hclean := (body_clean (filterParser_faithful source) (.ofChars source.toList)).reads
  rw [parse_faults, List.reverse_eq_nil_iff] at h
  have hparts : ∀ t ∈ (parse source).path.parts, t.Written := by
    rw [parse_path]
    obtain ⟨-, -, hparts⟩ := hclean (by rw [h]; rfl)
    exact hparts
  refine .node trivial ?_
  simp only [List.forall_mem_cons]
  exact ⟨.node trivial hparts, Token.written_leaf _, List.forall_mem_nil _⟩

end Query

end JsonPath
