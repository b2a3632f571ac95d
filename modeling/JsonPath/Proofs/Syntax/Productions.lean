import JsonPath.Proofs.Syntax.Run

/-!
Every production of the grammar is a run that hands out the entries of the element it gives.
The proofs follow the productions step by step. The loops need no argument about their bounds
here: a loop that runs out of rounds stops in good order.
-/

namespace JsonPath

namespace Parser

theorem integer_yields (c : Cursor) :
    Yields integer c fun b entries => entries = [.token b.token] := by
  refine .get ?_
  extract_lets t whole length final tail
  have hfinal (d : Cursor) : Yields (final ()) d fun b entries => entries = [.token b.token] :=
    .take fun _ => .pure rfl
  have htail (d : Cursor) : Yields (tail ()) d fun b entries => entries = [.token b.token] := by
    unfold tail
    split
    · exact .report (hfinal _)
    · exact hfinal _
  repeat' split
  all_goals first | exact .report (htail _) | exact htail _

theorem bound?_yields (c : Cursor) :
    Yields bound? c fun b entries => entries = Bound.entries b := by
  refine .peek ?_
  split
  · split
    · exact .map (integer_yields c)
    · exact .pure rfl
  · exact .pure rfl

theorem numberLiteral_yields (c : Cursor) :
    Yields numberLiteral c fun e entries => entries = e.entries := by
  refine .element fun id => .get ?_
  extract_lets t final exponent fraction
  have hfinal (d : Cursor) :
      Yields (final ()) d fun e entries => .element id :: entries = e.entries :=
    .take fun _ => .pure (by simp [Expr.entries])
  have hexponent (d : Cursor) :
      Yields (exponent ()) d fun e entries => .element id :: entries = e.entries := by
    unfold exponent
    split
    · exact .report (hfinal _)
    · exact hfinal _
  have hfraction (d : Cursor) :
      Yields (fraction ()) d fun e entries => .element id :: entries = e.entries := by
    unfold fraction
    split
    · exact .report (hexponent _)
    · exact hexponent _
  repeat' split
  all_goals first | exact .report (hfraction _) | exact hfraction _

theorem reportAll_yields (quote : Nat) (faults : List (Located EscapeFault)) (c : Cursor) :
    Yields (forIn faults PUnit.unit fun fault _ => do
      report (.escape fault.what) ⟨quote + fault.range.start, quote + fault.range.stop⟩
      return .yield PUnit.unit) c fun _ entries => entries = [] := by
  induction faults generalizing c with
  | nil => exact .pure rfl
  | cons fault rest ih =>
    simp only [List.forIn_cons, bind_assoc, pure_bind]
    exact .report (ih _)

theorem stringLiteral_yields (quote : Char) (c : Cursor) :
    Yields (stringLiteral quote) c fun t entries => entries = [.token t.1] := by
  refine .get ?_
  dsimp only
  split
  · exact .report (.silent (reportAll_yields ..) fun _ _ => .take fun _ => .pure rfl)
  · exact .silent (reportAll_yields ..) fun _ _ => .take fun _ => .pure rfl

theorem shorthandSelector_yields (after : TokenKind) (c : Cursor) :
    Yields (shorthandSelector after) c fun s entries => entries = s.entries := by
  refine .element fun id => .get ?_
  have hmissing (d : Cursor) :
      Yields (do reportFound (.shorthand after); return .missing id (← missing .name)) d
        fun (s : Selector) entries => .element id :: entries = s.entries :=
    .reportFound (.missing (List.cons_ne_nil _ _) fun _ => .pure (by simp [Selector.entries]))
  split
  · exact .take fun _ => .pure (by simp [Selector.entries])
  · split
    · exact .take fun _ => .pure (by simp [Selector.entries])
    · exact hmissing _
  · exact hmissing _

theorem stepPart?_yields (c : Cursor) :
    Yields stepPart? c fun p entries => entries = StepPart.entries p := by
  refine .lookAhead (.isAt ?_)
  split
  · exact .goOn (.take fun _ => .skipBlanks (.bind (bound?_yields _) fun _ _ h =>
      .pure (by simp [StepPart.entries, h])))
  · exact .goBack (.pure rfl)

/-- A bound is found where a sign or a digit stands. -/
theorem bound?_of_none {c d : Cursor} (h : bound? c = (none, d)) :
    d = c ∧ ∀ x, c.rest.head? = some x → (x = '-' || Text.isDigit x) = false := by
  unfold bound? at h
  simp only [bind_apply, peek] at h
  cases hx : c.rest.head? with
  | none =>
    rw [hx] at h
    exact ⟨(congrArg Prod.snd h).symm, by simp⟩
  | some x =>
    rw [hx] at h
    cases hdigit : x = '-' || Text.isDigit x with
    | true =>
      simp only [hdigit, if_true, map_apply] at h
      exact absurd (congrArg Prod.fst h) (Option.some_ne_none _)
    | false =>
      simp only [hdigit] at h
      refine ⟨(congrArg Prod.snd h).symm, fun y hy => ?_⟩
      cases hy
      exact hdigit

theorem indexOrSlice_yields {c : Cursor} {x : Char} (hx : c.rest.head? = some x)
    (hfirst : (x = '-' || x = ':' || Text.isDigit x) = true) :
    Yields indexOrSlice c fun s entries => entries = s.entries := by
  refine .element fun id => ?_
  rcases hbound : bound? { c with nextId := c.nextId + 1 } with ⟨start, d⟩
  refine .bind_of_eq hbound (bound?_yields _) fun entries hstart => .lookAhead (.isAt ?_)
  split
  · refine .goOn (.take fun colon => .skipBlanks (.bind (bound?_yields _) fun stop _ hstop => ?_))
    refine .bind (stepPart?_yields _) fun step _ hstep => .pure ?_
    simp [Selector.entries, hstart, hstop, hstep]
  · cases start with
    | some b => exact .goBack (.pure (by simp [Selector.entries, hstart, Bound.entries]))
    | none =>
      rename_i hcolon
      obtain ⟨rfl, hnone⟩ := bound?_of_none hbound
      obtain ⟨rest, hrest⟩ : ∃ rest, c.rest = ':' :: rest := by
        have hcolon : x = ':' := by
          have := hnone x hx
          simp_all
        subst hcolon
        exact List.head?_eq_some_iff.mp hx
      exact absurd (by simp [Cursor.isAt, Cursor.pass, Cursor.blanks, Cursor.isBlank, hrest]) hcolon

theorem missingSelector_yields (c : Cursor) :
    Yields missingSelector c fun s entries => entries = s.entries :=
  .element fun _ => .reportFound (.missing (List.cons_ne_nil _ _) fun _ =>
    .pure (by simp [Selector.entries]))

/-- The parser hands out the entries of the expression that it gives. -/
def Tells (p : Parser Expr) : Prop := ∀ c, Yields p c fun e entries => entries = e.entries

theorem skipGarbage_faults {c : Cursor} {wanted : Wanted} {stops : List Char} {x : Char}
    (hx : c.rest.head? = some x) (hstops : x ∉ stops) :
    (skipGarbage wanted stops c).2.faults ≠ [] := by
  obtain ⟨rest, hrest⟩ := List.head?_eq_some_iff.mp hx
  simp [skipGarbage, hrest, hstops, report]

theorem selector_yields {filter : Parser Expr} (hfilter : filter.Tells) (c : Cursor) :
    Yields (selector filter) c fun s entries => entries = s.entries := by
  have hquoted (quote : Char) : Yields (do
      let id ← freshId
      let found ← stringLiteral quote
      return .name id found.1 found.2) c fun (s : Selector) entries => entries = s.entries :=
    .element fun id => .bind (stringLiteral_yields quote _) fun t _ ht =>
      .pure (by simp [Selector.entries, ht])
  refine .peek ?_
  split
  · exact hquoted _
  · exact hquoted _
  · exact .element fun id => .take fun _ => .pure (by simp [Selector.entries])
  · exact .element fun id => .take fun _ => .bind (hfilter _) fun e _ he =>
      .pure (by simp [Selector.entries, he])
  · rename_i x _ _ _ _ hx
    split
    · rename_i hfirst
      exact indexOrSlice_yields hx hfirst
    · split
      · exact missingSelector_yields c
      · rename_i hstop
        refine .element fun id => ?_
        refine .bind (skipGarbage_yields _ _ _) fun _ _ h => .missing ?_ fun _ => .pure ?_
        · exact skipGarbage_faults hx (by simpa using hstop)
        · simp [Selector.entries, h]
  · exact missingSelector_yields c

theorem closeBracket_yields (opening : Token) (c : Cursor) :
    Yields (closeBracket opening) c fun t entries => entries = [.token t] := by
  refine .isAt ?_
  split
  · exact take_yields _ _ _
  · exact .report (missing_yields _ (List.cons_ne_nil _ _))

theorem selectors_yields {filter : Parser Expr} (hfilter : filter.Tells) (opening : Token)
    (rounds : Nat) (c : Cursor) :
    Yields (selectors filter opening rounds) c fun found entries =>
      entries = found.1.entries ++ [.token found.2] := by
  induction rounds generalizing c with
  | zero =>
    refine .bind (missingSelector_yields c) fun s _ hs => ?_
    refine .bind (closeBracket_yields opening _) fun t _ ht => .pure ?_
    simp [Selectors.entries, hs, ht]
  | succ rounds ih =>
    refine .skipBlanks (.bind (selector_yields hfilter _) fun s _ hs => .skipBlanks ?_)
    refine .silent (skipGarbage_yields _ _ _) fun _ d => .isAt ?_
    split
    · refine .take fun comma => .bind (ih _) fun found _ hfound => .pure ?_
      simp [Selectors.entries, hs, hfound]
    · refine .bind (closeBracket_yields opening _) fun t _ ht => .pure ?_
      simp [Selectors.entries, hs, ht]

theorem bracketed_yields {filter : Parser Expr} (hfilter : filter.Tells) (id : Nat)
    (dots : Option Token) (hdots : ∀ t, dots = some t → t.text ≠ "") {c : Cursor}
    (hc : c.isAt ['['] = true) :
    Yields (bracketed filter id dots) c fun s entries =>
      s.entries = .element id :: (dots.map Entry.token).toList ++ entries ∧
        s.firstToken.text ≠ "" := by
  refine .takeNext hc (by simp) (by simp) fun opening hopening => .get ?_
  refine .bind (selectors_yields hfilter _ _ _) fun found _ h => .pure ⟨?_, ?_⟩
  · simp [Segment.entries, h]
  · cases dots with
    | none => exact hopening
    | some t => exact hdots t rfl

/-- What comes of looking for a segment. A segment begins with a token that has a text, so it
never leaves the cursor in place, and it is found wherever one begins. -/
structure SegmentFound (c : Cursor) (s : Option Segment) (entries : List Entry) : Prop where
  entries_eq : entries = (s.map Segment.entries).getD []
  text_ne : ∀ segment, s = some segment → segment.firstToken.text ≠ ""
  of_none : s = none →
    (c.pass c.blanks).isAt ['.'] = false ∧ (c.pass c.blanks).isAt ['['] = false

theorem segment?_yields {filter : Parser Expr} (hfilter : filter.Tells) (c : Cursor) :
    Yields (segment? filter) c (SegmentFound c) := by
  have hfound (s : Segment) (entries : List Entry) (hentries : s.entries = entries)
      (htext : s.firstToken.text ≠ "") : SegmentFound c (some s) entries :=
    ⟨by simp [hentries], by rintro _ ⟨⟩; exact htext, by simp⟩
  have hshort (id : Nat) (dots : Token) (hdots : dots.text ≠ "") (after : TokenKind)
      (d : Cursor) :
      Yields (do return some (.shorthand id dots (← shorthandSelector after))) d
        fun (s : Option Segment) entries =>
          SegmentFound c s (.element id :: .token dots :: entries) :=
    .bind (shorthandSelector_yields after d) fun s _ hs =>
      .pure (hfound _ _ (by simp [Segment.entries, hs]) hdots)
  refine .lookAhead (.isAt ?_)
  split
  · rename_i hat
    refine .goOn (.element fun id => .takeNext hat (by simp) (by simp) fun dots hdots => ?_)
    refine .silent (rejectBlanks_yields _ _) fun _ _ => .isAt ?_
    split
    · rename_i hbracket
      refine .map ((bracketed_yields hfilter id (some dots) ?_ hbracket).mono fun s _ h => ?_)
      · rintro _ ⟨⟩
        exact hdots
      · exact hfound _ _ (by simp [h.1]) h.2
    · exact hshort id dots hdots _ _
  · refine .isAt ?_
    split
    · rename_i hat
      refine .goOn (.element fun id => .takeNext hat (by simp) (by simp) fun dots hdots => ?_)
      exact .silent (rejectBlanks_yields _ _) fun _ _ => hshort id dots hdots _ _
    · refine .isAt ?_
      split
      · rename_i hbracket
        refine .goOn (.element fun id => .map ?_)
        refine (bracketed_yields hfilter id none (by simp) ?_).mono fun s _ h => ?_
        · exact hbracket
        · exact hfound _ _ (by simp [h.1]) h.2
      · rename_i hdot hbracket
        exact .goBack (.pure ⟨by simp, by simp, fun _ => by simp_all⟩)

theorem segments_yields {filter : Parser Expr} (hfilter : filter.Tells) (rounds : Nat)
    (path : Path) (c : Cursor) :
    Yields (segments filter rounds path) c fun p entries =>
      p.entries = path.entries ++ entries := by
  induction rounds generalizing c path with
  | zero => exact .pure (by simp)
  | succ rounds ih =>
    refine .bind (segment?_yields hfilter c) fun s _ hs => ?_
    cases s with
    | some segment =>
      refine (ih (.step path segment) _).mono fun p _ hp => ?_
      simp [hp, hs.entries_eq, Path.entries]
    | none => exact .pure (by simp [hs.entries_eq])

theorem pathExpression_yields {filter : Parser Expr} (hfilter : filter.Tells)
    (kind : TokenKind) : (pathExpression filter kind).Tells := by
  intro c
  refine .element fun id => .element fun pathId => .take fun identifier => .get ?_
  refine .bind (segments_yields hfilter _ _ _) fun p _ hp => .pure ?_
  simp [Expr.entries, hp, Path.entries]

theorem missingExpression_yields : missingExpression.Tells := fun _ =>
  .element fun _ => .reportFound (.missing (List.cons_ne_nil _ _) fun _ =>
    .pure (by simp [Expr.entries]))

theorem operands_yields {operand : Parser Expr} (hoperand : operand.Tells) (kind : TokenKind)
    (mark : List Char) (rounds : Nat) (c : Cursor) :
    Yields (operands kind mark operand rounds) c fun os entries => entries = os.entries := by
  induction rounds generalizing c with
  | zero =>
    exact .bind (missingExpression_yields c) fun e _ he => .pure (by simp [Operands.entries, he])
  | succ rounds ih =>
    refine .bind (hoperand c) fun first _ hfirst => .skipBlanks (.isAt ?_)
    split
    · refine .take fun operator => .bind (ih _) fun rest _ hrest => .pure ?_
      simp [Operands.entries, hfirst, hrest]
    · exact .pure (by simp [Operands.entries, hfirst])

theorem closeParen_yields (opening : Token) (c : Cursor) :
    Yields (closeParen opening) c fun t entries => entries = [.token t] := by
  refine .isAt ?_
  split
  · exact take_yields _ _ _
  · exact .report (missing_yields _ (List.cons_ne_nil _ _))

theorem arguments_yields {argument : Parser Expr} (hargument : argument.Tells) (opening : Token)
    (rounds : Nat) (c : Cursor) :
    Yields (arguments argument opening rounds) c fun found entries =>
      entries = found.1.entries ++ [.token found.2] := by
  induction rounds generalizing c with
  | zero =>
    refine .bind (missingExpression_yields c) fun e _ he => ?_
    refine .bind (closeParen_yields opening _) fun t _ ht => .pure ?_
    simp [Operands.entries, he, ht]
  | succ rounds ih =>
    refine .bind (hargument c) fun e _ he => .skipBlanks ?_
    refine .silent (skipGarbage_yields _ _ _) fun _ d => .isAt ?_
    split
    · refine .take fun comma => .bind (ih _) fun found _ hfound => .pure ?_
      simp [Operands.entries, he, hfound]
    · refine .bind (closeParen_yields opening _) fun t _ ht => .pure ?_
      simp [Operands.entries, he, ht]

theorem call_yields {argument : Parser Expr} (hargument : argument.Tells) (id : Nat)
    (name : Token) (c : Cursor) :
    Yields (call argument id name) c fun e entries =>
      e.entries = .element id :: .token name :: entries := by
  refine .take fun opening => .skipBlanks (.isAt ?_)
  split
  · exact .take fun closing => .pure (by simp [Expr.entries, Arguments.entries])
  · refine .get (.bind (arguments_yields hargument _ _ _) fun found _ h => .pure ?_)
    simp [Expr.entries, Arguments.entries, h]

theorem callOrWord_yields {argument : Parser Expr} (hargument : argument.Tells) :
    (callOrWord argument).Tells := by
  intro c
  refine .element fun id => .get ?_
  have hliteral (kind : TokenKind) (count : Nat) (value : Json) (d : Cursor) :
      Yields (do return .literal id (← take kind count) value) d
        fun (e : Expr) entries => .element id :: entries = e.entries :=
    .take fun _ => .pure (by simp [Expr.entries])
  dsimp only
  split
  · refine .take fun name => .silent (rejectBlanks_yields _ _) fun _ d => ?_
    exact (call_yields hargument id name d).mono fun e _ h => by simp [h]
  · split
    · exact hliteral ..
    · split
      · exact hliteral ..
      · split
        · exact hliteral ..
        · exact .garbage (.missing (List.cons_ne_nil _ _) fun _ => .pure (by simp [Expr.entries]))

/-- All of the parsers hand out the entries of the expressions that they give. -/
structure Expressions.Tell (inner : Expressions) : Prop where
  disjunction : inner.disjunction.Tells
  negation : inner.negation.Tells
  primary : inner.primary.Tells

theorem primary_yields {inner : Expressions} (h : inner.Tell) : (primary inner).Tells := by
  intro c
  have hquoted (quote : Char) (d : Cursor) : Yields (do
      let id ← freshId
      let found ← stringLiteral quote
      return .literal id found.1 (.string found.2)) d fun (e : Expr) entries => entries = e.entries :=
    .element fun id => .bind (stringLiteral_yields quote _) fun t _ ht =>
      .pure (by simp [Expr.entries, ht])
  refine .skipBlanks (.get ?_)
  split
  · refine .element fun id => .take fun opening => .bind (h.disjunction _) fun e _ he => ?_
    refine .skipBlanks (.bind (closeParen_yields opening _) fun closing _ ht => .pure ?_)
    simp [Expr.entries, he, ht]
  · split
    · exact missingExpression_yields _
    · refine .element fun id => .take fun bang => .bind (h.primary _) fun e _ he => .pure ?_
      simp [Expr.entries, he]
  · exact pathExpression_yields h.disjunction _ _
  · exact pathExpression_yields h.disjunction _ _
  · exact hquoted _ _
  · exact hquoted _ _
  · split
    · exact numberLiteral_yields _
    · split
      · exact callOrWord_yields h.disjunction _
      · exact missingExpression_yields _
  · exact missingExpression_yields _

theorem checkComparable_yields (e : Expr) (c : Cursor) :
    Yields (checkComparable e) c fun _ entries => entries = [] := by
  unfold checkComparable
  split
  · exact .report (.pure rfl)
  · exact .report (.pure rfl)
  · split
    · exact .pure rfl
    · exact .report (.pure rfl)
  · exact .pure rfl

theorem comparison_yields {inner : Expressions} (h : inner.Tell) : (comparison inner).Tells := by
  intro c
  refine .bind (primary_yields h c) fun left _ hleft => .skipBlanks (.get ?_)
  split
  · exact .pure (by simp [hleft])
  · rename_i op length _
    refine .element fun id => .take fun operator => ?_
    have hright (d : Cursor) : Yields (do
        let right ← primary inner
        checkComparable left
        checkComparable right
        return .comparison id left operator op right) d fun (e : Expr) entries =>
          left.entries ++ .element id :: .token operator :: entries = e.entries := by
      refine .bind (primary_yields h d) fun right _ hright => ?_
      refine .silent (checkComparable_yields left _) fun _ _ => ?_
      refine .silent (checkComparable_yields right _) fun _ _ => .pure ?_
      simp [Expr.entries, hright]
    dsimp only
    rw [hleft]
    split
    · exact .report (hright _)
    · exact hright _

theorem negation_yields {inner : Expressions} (h : inner.Tell) : (negation inner).Tells := by
  intro c
  refine .skipBlanks (.isAt (.isAt ?_))
  split
  · refine .element fun id => .take fun bang => .bind (h.negation _) fun e _ he => .pure ?_
    simp [Expr.entries, he]
  · exact comparison_yields h _

theorem joined_yields {operand : Parser Expr} (hoperand : operand.Tells) (kind : TokenKind)
    (mark : List Char) {make : Nat → Expr → Token → Operands → Expr}
    (hmake : ∀ id first operator rest, (make id first operator rest).entries =
      first.entries ++ .element id :: .token operator :: rest.entries) :
    (joined kind mark make operand).Tells := by
  intro c
  refine .bind (hoperand c) fun first _ hfirst => .skipBlanks (.isAt ?_)
  split
  · refine .element fun id => .take fun operator => .get ?_
    refine .bind (operands_yields hoperand _ _ _ _) fun rest _ hrest => .pure ?_
    simp [hmake, hfirst, hrest]
  · exact .pure (by simp [hfirst])

theorem conjunction_yields {inner : Expressions} (h : inner.Tell) : (conjunction inner).Tells :=
  joined_yields (negation_yields h) _ _ fun _ _ _ _ => by simp [Expr.entries]

theorem disjunction_yields {inner : Expressions} (h : inner.Tell) : (disjunction inner).Tells :=
  joined_yields (conjunction_yields h) _ _ fun _ _ _ _ => by simp [Expr.entries]

theorem expressions_tell (depth : Nat) : (expressions depth).Tell := by
  induction depth with
  | zero =>
    exact ⟨missingExpression_yields, missingExpression_yields, missingExpression_yields⟩
  | succ depth ih => exact ⟨disjunction_yields ih, negation_yields ih, primary_yields ih⟩

theorem identifier_yields (c : Cursor) :
    Yields identifier c fun t entries => entries = [.token t] := by
  refine .peek ?_
  split
  · exact take_yields _ _ _
  · exact .take fun _ => .report (.pure rfl)
  · exact .reportFound (missing_yields _ (List.cons_ne_nil _ _))

theorem remainder_yields {filter : Parser Expr} (hfilter : filter.Tells) (rounds : Nat)
    (path : Path) (c : Cursor) :
    Yields (remainder filter rounds path) c fun p entries =>
      p.entries = path.entries ++ entries := by
  induction rounds generalizing c path with
  | zero => exact .pure (by simp)
  | succ rounds ih =>
    refine .skipBlanks (.peek ?_)
    split
    · dsimp only
      split
      · exact .report (.pure (by simp))
      · exact .pure (by simp)
    · refine .silent (skipGarbage_yields _ _ _) fun _ d => .get ?_
      refine .bind (segments_yields hfilter _ _ _) fun further _ hfurther => ?_
      refine (ih further _).mono fun p _ hp => ?_
      simp [hp, hfurther]

end Parser

namespace Query

/-- All of a query but the token at its end. -/
def body (filter : Parser Expr) : Parser (Nat × Path) := do
  let id ← Parser.freshId
  let pathId ← Parser.freshId
  Parser.rejectBlanks .leadingBlanks
  let identifier ← Parser.identifier
  let path ← Parser.segments filter (← get).rest.length (.root pathId identifier)
  let path ← Parser.remainder filter ((← get).rest.length + 1) path
  return (id, path)

theorem parser_eq (filter : Parser Expr) :
    parser filter = (do
      let found ← body filter
      let ending ← Parser.take .endOfQuery 0
      return (found.1, found.2, ending)) := by
  simp only [parser, body, bind_assoc, pure_bind]

theorem parser_apply (filter : Parser Expr) (c : Cursor) :
    parser filter c =
      (((body filter c).1.1, (body filter c).1.2,
        (Parser.take .endOfQuery 0 (body filter c).2).1),
      (Parser.take .endOfQuery 0 (body filter c).2).2) := by
  rw [parser_eq]
  generalize body filter = first
  rfl

theorem body_yields {filter : Parser Expr} (hfilter : filter.Tells) (c : Cursor) :
    Parser.Yields (body filter) c fun found entries =>
      entries = .element found.1 :: found.2.entries := by
  refine .element fun id => .element fun pathId => ?_
  refine .silent (Parser.rejectBlanks_yields _ _) fun _ _ => ?_
  refine .bind (Parser.identifier_yields _) fun identifier _ hidentifier => .get ?_
  refine .bind (Parser.segments_yields hfilter _ _ _) fun path _ hpath => .get ?_
  refine .bind (Parser.remainder_yields hfilter _ _ _) fun path' _ hpath' => .pure ?_
  simp [hpath', hpath, hidentifier, Path.entries]

end Query

end JsonPath
