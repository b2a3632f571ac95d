import JsonPath.Proofs.Syntax.WellFormed
import JsonPath.Syntax.Tree

/-!
The form in which a query is printed. Numbers and ranges of elements and what was skipped before
tokens are forgotten, every segment has brackets, and every slice has a step. A query and its
canonical form are printed alike, and the canonical form is all that printing can preserve.
-/

namespace JsonPath

/-- A token of which nothing but its kind and its text is known. -/
def Token.mark (kind : TokenKind) (text : String) : Token where
  id := 0
  kind := kind
  text := text
  skipped := ""
  range := ⟨0, 0⟩
  missing := false

@[simp] theorem Token.text_mark (kind : TokenKind) (text : String) :
    (Token.mark kind text).text = text := rfl

/-- The two dots of a descendant segment. -/
def Token.dots (descendant : Bool) : Option Token :=
  if descendant then some (.mark .doubleDot "") else none

@[simp] theorem Token.isSome_dots (descendant : Bool) :
    (Token.dots descendant).isSome = descendant := by
  cases descendant <;> rfl

def Bound.canonical (b : Bound) : Bound := ⟨.mark .number "", b.value⟩

/-- The step that is printed where none is given. -/
def Bound.one : Bound := ⟨.mark .number "", 1⟩

mutual

def Path.canonical : Path → Path
  | .root _ identifier =>
    .root 0 (.mark (if identifier.kind = .current then .current else .root) "")
  | .step before segment => .step before.canonical segment.canonical

def Segment.canonical : Segment → Segment
  | .shorthand _ dots selector =>
    .bracketed 0 (Token.dots (dots.kind = .doubleDot)) (.mark .leftBracket "")
      (.last selector.canonical) (.mark .rightBracket "")
  | .bracketed _ dots _ selectors _ =>
    .bracketed 0 (Token.dots dots.isSome) (.mark .leftBracket "") selectors.canonical
      (.mark .rightBracket "")

def Selectors.canonical : Selectors → Selectors
  | .last selector => .last selector.canonical
  | .more selector _ rest => .more selector.canonical (.mark .comma "") rest.canonical

def Selector.canonical : Selector → Selector
  | .name _ _ value => .name 0 (.mark .string "") value
  | .index _ _ value => .index 0 (.mark .number "") value
  | .slice _ start _ stop step =>
    .slice 0 (start.map Bound.canonical) (.mark .colon "") (stop.map Bound.canonical)
      (some ⟨.mark .colon "", some (((step.bind (·.bound)).map Bound.canonical).getD .one)⟩)
  | .wildcard _ _ => .wildcard 0 (.mark .wildcard "")
  | .filter _ _ test => .filter 0 (.mark .question "") test.canonical
  | .missing _ _ => .missing 0 (.mark .name "")

def Expr.canonical : Expr → Expr
  | .or _ first _ rest => .or 0 first.canonical (.mark .or "") rest.canonical
  | .and _ first _ rest => .and 0 first.canonical (.mark .and "") rest.canonical
  | .not _ _ inner => .not 0 (.mark .not "") inner.canonical
  | .comparison _ left _ op right =>
    .comparison 0 left.canonical (.mark op.tokenKind "") op right.canonical
  | .path _ p => .path 0 p.canonical
  | .call _ name _ arguments _ =>
    .call 0 (.mark .function name.text) (.mark .leftParen "") arguments.canonical
      (.mark .rightParen "")
  | .literal _ _ value => .literal 0 (.mark .name "") value
  | .parens _ _ inner _ =>
    .parens 0 (.mark .leftParen "") inner.canonical (.mark .rightParen "")
  | .missing _ _ => .missing 0 (.mark .name "")

def Operands.canonical : Operands → Operands
  | .last operand => .last operand.canonical
  | .more operand _ rest => .more operand.canonical (.mark .comma "") rest.canonical

def Arguments.canonical : Arguments → Arguments
  | .none => .none
  | .some operands => .some operands.canonical

end

/-- The step that is printed for a slice. -/
def StepPart.printed (part : Option StepPart) : Bound :=
  ((part.bind (·.bound)).map Bound.canonical).getD .one

theorem StepPart.canonical_printed (part : Option StepPart) :
    (StepPart.printed part).canonical = StepPart.printed part := by
  unfold StepPart.printed
  cases part.bind (·.bound) <;> rfl

/-- The selectors that are printed between brackets. -/
def Segment.printed : Segment → Selectors
  | .shorthand _ _ selector => .last selector
  | .bracketed _ _ _ selectors _ => selectors

/-- A segment of selectors in brackets, in canonical form. -/
def Segment.bracketedForm (descendant : Bool) (ss : Selectors) : Segment :=
  .bracketed 0 (Token.dots descendant) (.mark .leftBracket "") ss.canonical
    (.mark .rightBracket "")

theorem Segment.canonical_eq (s : Segment) :
    s.canonical = bracketedForm s.isDescendant s.printed := by
  cases s <;> rfl

/-- The kind of the identifier that a path begins with. -/
def Path.identifierKind (p : Path) : TokenKind := if p.isRelative then .current else .root

theorem Path.canonical_root {p : Path} {identifier : Token}
    (h : identifier.kind = p.identifierKind) (id id' : Nat) :
    (root id identifier).canonical = (root id' p.identifier).canonical := by
  by_cases hkind : p.identifier.kind = .current <;>
    simp [canonical, h, identifierKind, isRelative, hkind]

/-- A path is put together from its identifier and its segments. -/
theorem Path.canonical_segments (id : Nat) (p : Path) :
    (p.segments.foldl step (root id p.identifier)).canonical = p.canonical := by
  cases p with
  | root => rfl
  | step before segment =>
    rw [segments, List.foldl_append, identifier, List.foldl_cons, List.foldl_nil, canonical,
      canonical, canonical_segments id before]

theorem Path.isRelative_canonical (p : Path) : p.canonical.isRelative = p.isRelative := by
  cases p with
  | root _ identifier =>
    by_cases hkind : identifier.kind = .current <;>
      simp [Path.canonical, isRelative, Path.identifier, Token.mark, hkind]
  | step before _ => exact before.isRelative_canonical

theorem Selectors.toList_canonical (ss : Selectors) :
    ss.canonical.toList = ss.toList.map Selector.canonical := by
  cases ss with
  | last => rfl
  | more selector _ rest => exact congrArg (selector.canonical :: ·) rest.toList_canonical

theorem Segment.selectors_canonical (s : Segment) :
    s.canonical.selectors = s.selectors.map Selector.canonical := by
  cases s with
  | shorthand => rfl
  | bracketed _ _ _ selectors _ => exact selectors.toList_canonical

theorem Segment.isDescendant_canonical (s : Segment) :
    s.canonical.isDescendant = s.isDescendant := by
  cases s <;> exact Token.isSome_dots _

theorem Selector.isSingular_canonical (s : Selector) : s.canonical.isSingular = s.isSingular := by
  cases s <;> rfl

theorem Selector.step?_canonical (s : Selector) : s.canonical.step? = s.step? := by
  cases s <;> rfl

theorem Segment.single?_canonical (s : Segment) :
    s.canonical.single? = s.single?.map Selector.canonical := by
  unfold single?
  rw [isDescendant_canonical, selectors_canonical]
  rcases s.isDescendant with _ | _
  · rcases s.selectors with _ | ⟨selector, _ | ⟨_, _⟩⟩
    · rfl
    · simp only [List.map_cons, List.map_nil, selector.isSingular_canonical]
      split <;> rfl
    · rfl
  · rfl

theorem Path.isSingular_canonical (p : Path) : p.canonical.isSingular = p.isSingular := by
  cases p with
  | root => rfl
  | step before segment =>
    rw [Path.canonical, isSingular, isSingular, before.isSingular_canonical, Segment.isSingular,
      segment.single?_canonical, Option.isSome_map, Segment.isSingular]

theorem Path.location?_canonical (p : Path) : p.canonical.location? = p.location? := by
  cases p with
  | root => rfl
  | step before segment =>
    rw [Path.canonical, location?, location?, before.location?_canonical,
      segment.single?_canonical]
    cases segment.single? with
    | none => rfl
    | some selector => simp [selector.step?_canonical]

theorem Expr.isComparable_canonical (e : Expr) : e.canonical.IsComparable ↔ e.IsComparable := by
  cases e with
  | path _ p =>
    rw [Expr.canonical, IsComparable, IsComparable, p.isSingular_canonical]
  | or | and | not | comparison | call | literal | parens | missing => exact Iff.rfl

theorem Expr.IsComparable.of_canonical {e e' : Expr} (h : e.IsComparable)
    (heq : e'.canonical = e.canonical) : e'.IsComparable := by
  rw [← e'.isComparable_canonical, heq, e.isComparable_canonical]
  exact h

theorem Operands.length_canonical (os : Operands) :
    os.canonical.toList.length = os.toList.length := by
  cases os with
  | last => rfl
  | more _ _ rest => exact congrArg (· + 1) rest.length_canonical

theorem Arguments.length_canonical (as : Arguments) :
    as.canonical.toList.length = as.toList.length := by
  cases as with
  | none => rfl
  | some operands => exact operands.length_canonical

mutual

theorem Path.text_canonical : (p : Path) → p.canonical.text = p.text
  | .root _ identifier => by
    by_cases hkind : identifier.kind = .current <;>
      simp [Path.canonical, Path.text, Token.mark, hkind]
  | .step before segment => by
    rw [Path.canonical, Path.text, Path.text, before.text_canonical, segment.text_canonical]

theorem Segment.text_canonical : (s : Segment) → s.canonical.text = s.text
  | .shorthand _ dots selector => by
    simp [Segment.canonical, Segment.text, Selectors.text, selector.text_canonical]
  | .bracketed _ dots _ selectors _ => by
    simp [Segment.canonical, Segment.text, selectors.text_canonical]

theorem Selectors.text_canonical : (ss : Selectors) → ss.canonical.text = ss.text
  | .last selector => selector.text_canonical
  | .more selector _ rest => by
    rw [Selectors.canonical, Selectors.text, Selectors.text, selector.text_canonical,
      rest.text_canonical]

theorem Selector.text_canonical : (s : Selector) → s.canonical.text = s.text
  | .name _ _ _ => rfl
  | .index _ _ _ => rfl
  | .slice _ start _ stop step => by
    rw [Selector.canonical, Selector.text, Selector.text]
    cases start <;> cases stop <;> rcases step with _ | ⟨_, _ | _⟩ <;> rfl
  | .wildcard _ _ => rfl
  | .filter _ _ test => by
    rw [Selector.canonical, Selector.text, Selector.text, test.text_canonical]
  | .missing _ _ => rfl

theorem Expr.text_canonical : (e : Expr) → e.canonical.text = e.text
  | .or _ first _ rest => by
    rw [Expr.canonical, Expr.text, Expr.text, first.text_canonical, rest.text_canonical]
  | .and _ first _ rest => by
    rw [Expr.canonical, Expr.text, Expr.text, first.text_canonical, rest.text_canonical]
  | .not _ _ inner => by rw [Expr.canonical, Expr.text, Expr.text, inner.text_canonical]
  | .comparison _ left _ _ right => by
    rw [Expr.canonical, Expr.text, Expr.text, left.text_canonical, right.text_canonical]
  | .path _ p => p.text_canonical
  | .call _ name _ arguments _ => by
    rw [Expr.canonical, Expr.text, Expr.text, arguments.text_canonical]
    rfl
  | .literal _ _ _ => rfl
  | .parens _ _ inner _ => by rw [Expr.canonical, Expr.text, Expr.text, inner.text_canonical]
  | .missing _ _ => rfl

theorem Operands.text_canonical (separator : String) : (os : Operands) →
    os.canonical.text separator = os.text separator
  | .last operand => operand.text_canonical
  | .more operand _ rest => by
    rw [Operands.canonical, Operands.text, Operands.text, operand.text_canonical,
      rest.text_canonical separator]

theorem Arguments.text_canonical : (as : Arguments) → as.canonical.text = as.text
  | .none => rfl
  | .some operands => operands.text_canonical ", "

end

/-- Queries of one canonical form are printed alike. -/
theorem Query.text_eq_of_canonical {q q' : Query} (h : q.path.canonical = q'.path.canonical) :
    q.text = q'.text := by
  rw [Query.text, Query.text, ← Path.text_canonical, h, Path.text_canonical]

end JsonPath
