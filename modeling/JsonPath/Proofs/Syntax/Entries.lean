import JsonPath.Syntax.Tree

/-!
Everything that the parser numbers in a part of a query, in the order in which it does. The
tokens among the entries are the leaves of the part's tree from left to right, and the numbers
are those of the tree's elements.
-/

namespace JsonPath

/-- An element that has been given a number, or a token with its own. -/
inductive Entry where
  | element (id : Nat)
  | token (t : Token)

namespace Entry

def id : Entry → Nat
  | element id => id
  | token t => t.id

def token? : Entry → Option Token
  | element _ => none
  | token t => some t

/-- The tokens among some entries. -/
def tokens (entries : List Entry) : List Token := entries.filterMap token?

/-- The numbers of some entries. -/
def ids (entries : List Entry) : List Nat := entries.map id

@[simp] theorem tokens_nil : tokens [] = [] := rfl

@[simp] theorem tokens_element (id : Nat) (rest : List Entry) :
    tokens (.element id :: rest) = tokens rest := rfl

@[simp] theorem tokens_token (t : Token) (rest : List Entry) :
    tokens (.token t :: rest) = t :: tokens rest := rfl

@[simp] theorem tokens_append (a b : List Entry) : tokens (a ++ b) = tokens a ++ tokens b :=
  List.filterMap_append

@[simp] theorem ids_nil : ids [] = [] := rfl

@[simp] theorem ids_cons (e : Entry) (rest : List Entry) : ids (e :: rest) = e.id :: ids rest := rfl

@[simp] theorem ids_append (a b : List Entry) : ids (a ++ b) = ids a ++ ids b :=
  List.map_append

end Entry

/-- The token of a bound, if there is one. -/
def Bound.entries (b : Option Bound) : List Entry := (b.map fun bound => .token bound.token).toList

def StepPart.entries (p : Option StepPart) : List Entry :=
  match p with
  | some part => .token part.colon :: Bound.entries part.bound
  | none => []

mutual

def Path.entries : Path → List Entry
  | .root id identifier => [.element id, .token identifier]
  | .step before segment => before.entries ++ segment.entries

def Segment.entries : Segment → List Entry
  | .shorthand id dots selector => .element id :: .token dots :: selector.entries
  | .bracketed id dots opening selectors closing =>
    .element id :: (dots.map Entry.token).toList ++ .token opening :: selectors.entries ++
      [.token closing]

def Selectors.entries : Selectors → List Entry
  | .last selector => selector.entries
  | .more selector comma rest => selector.entries ++ .token comma :: rest.entries

def Selector.entries : Selector → List Entry
  | .name id token _ | .index id token _ | .wildcard id token | .missing id token =>
    [.element id, .token token]
  | .slice id start colon stop step =>
    .element id :: Bound.entries start ++ .token colon :: Bound.entries stop ++
      StepPart.entries step
  | .filter id question test => .element id :: .token question :: test.entries

/-- The entries of an expression. An operator's element is numbered after its first operand. -/
def Expr.entries : Expr → List Entry
  | .or id first operator rest | .and id first operator rest =>
    first.entries ++ .element id :: .token operator :: rest.entries
  | .not id bang inner => .element id :: .token bang :: inner.entries
  | .comparison id left operator _ right =>
    left.entries ++ .element id :: .token operator :: right.entries
  | .path id p => .element id :: p.entries
  | .call id name opening arguments closing =>
    .element id :: .token name :: .token opening :: arguments.entries ++ [.token closing]
  | .literal id token _ | .missing id token => [.element id, .token token]
  | .parens id opening inner closing =>
    .element id :: .token opening :: inner.entries ++ [.token closing]

def Operands.entries : Operands → List Entry
  | .last operand => operand.entries
  | .more operand separator rest => operand.entries ++ .token separator :: rest.entries

def Arguments.entries : Arguments → List Entry
  | .none => []
  | .some operands => operands.entries

end

/-- The entries of a whole query. -/
def Query.entries (q : Query) : List Entry :=
  .element q.id :: q.path.entries ++ [.token q.ending]

namespace Tree

@[simp] theorem tokensAll_nil : tokensAll [] = [] := by simp [tokensAll]

@[simp] theorem tokensAll_cons (t : Tree) (rest : List Tree) :
    tokensAll (t :: rest) = t.tokens ++ tokensAll rest := by simp [tokensAll]

@[simp] theorem tokensAll_append (a b : List Tree) :
    tokensAll (a ++ b) = tokensAll a ++ tokensAll b := by
  induction a with
  | nil => simp
  | cons t rest ih => simp [ih]

@[simp] theorem tokens_leaf (t : Token) : (leaf t).tokens = [t] := by simp [leaf, tokens]

@[simp] theorem tokensAll_leaf? (t : Option Token) : tokensAll (leaf? t) = t.toList := by
  cases t <;> simp [leaf?]

end Tree

@[simp] theorem Bound.tokensAll_leaf? (b : Option Bound) :
    Tree.tokensAll (Bound.leaf? b) = Entry.tokens (Bound.entries b) := by
  cases b <;> simp [Bound.leaf?, Bound.entries]

@[simp] theorem StepPart.tokensAll_leaves (p : Option StepPart) :
    Tree.tokensAll (StepPart.leaves p) = Entry.tokens (StepPart.entries p) := by
  cases p <;> simp [StepPart.leaves, StepPart.entries]

mutual

theorem Path.tokens_entries : (p : Path) → Tree.tokensAll p.parts = Entry.tokens p.entries
  | .root _ _ => by simp [Path.parts, Path.entries]
  | .step before segment => by
    simp [Path.parts, Path.entries, before.tokens_entries, segment.tokens_entries]

theorem Segment.tokens_entries : (s : Segment) → s.tree.tokens = Entry.tokens s.entries
  | .shorthand _ _ selector => by
    simp [Segment.tree, Segment.entries, Tree.tokens, selector.tokens_entries]
  | .bracketed _ dots _ selectors _ => by
    cases dots <;>
      simp [Segment.tree, Segment.entries, Tree.tokens, selectors.tokens_entries]

theorem Selectors.tokens_entries :
    (ss : Selectors) → Tree.tokensAll ss.trees = Entry.tokens ss.entries
  | .last selector => by simp [Selectors.trees, Selectors.entries, selector.tokens_entries]
  | .more selector _ rest => by
    simp [Selectors.trees, Selectors.entries, selector.tokens_entries, rest.tokens_entries]

theorem Selector.tokens_entries : (s : Selector) → s.tree.tokens = Entry.tokens s.entries
  | .name .. | .index .. | .wildcard .. | .missing .. | .slice .. => by
    simp [Selector.tree, Selector.entries, Tree.tokens]
  | .filter _ _ test => by
    simp [Selector.tree, Selector.entries, Tree.tokens, test.tokens_entries]

theorem Expr.tokens_entries : (e : Expr) → e.tree.tokens = Entry.tokens e.entries
  | .or _ first _ rest | .and _ first _ rest => by
    simp [Expr.tree, Expr.entries, Tree.tokens, first.tokens_entries, rest.tokens_entries]
  | .not _ _ inner | .parens _ _ inner _ => by
    simp [Expr.tree, Expr.entries, Tree.tokens, inner.tokens_entries]
  | .comparison _ left _ _ right => by
    simp [Expr.tree, Expr.entries, Tree.tokens, left.tokens_entries, right.tokens_entries]
  | .path _ p => by simp [Expr.tree, Expr.entries, Tree.tokens, p.tokens_entries]
  | .call _ _ _ arguments _ => by
    simp [Expr.tree, Expr.entries, Tree.tokens, arguments.tokens_entries]
  | .literal .. | .missing .. => by simp [Expr.tree, Expr.entries, Tree.tokens]

theorem Operands.tokens_entries :
    (os : Operands) → Tree.tokensAll os.trees = Entry.tokens os.entries
  | .last operand => by simp [Operands.trees, Operands.entries, operand.tokens_entries]
  | .more operand _ rest => by
    simp [Operands.trees, Operands.entries, operand.tokens_entries, rest.tokens_entries]

theorem Arguments.tokens_entries :
    (as : Arguments) → Tree.tokensAll as.trees = Entry.tokens as.entries
  | .none => by simp [Arguments.trees, Arguments.entries]
  | .some operands => by simp [Arguments.trees, Arguments.entries, operands.tokens_entries]

end

theorem Query.tokens_entries (q : Query) : q.tree.tokens = Entry.tokens q.entries := by
  simp [Query.tree, Path.tree, Query.entries, Tree.tokens, q.path.tokens_entries]

end JsonPath
