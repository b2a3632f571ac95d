import JsonPath.Syntax.Parser
import JsonPath.Syntax.Printer

/-!
Queries as plain trees of elements. Tokens are the leaves, and the children of an element
stand in the order of the source.
-/

namespace JsonPath

/-- Any element of a query. -/
inductive Element where
  | query (q : Query)
  | path (p : Path)
  | segment (s : Segment)
  | selector (s : Selector)
  | expression (e : Expr)
  | token (t : Token)

namespace Element

def id : Element → Nat
  | query q => q.id
  | path p => p.id
  | segment s => s.id
  | selector s => s.id
  | expression e => e.id
  | token t => t.id

/-- The name of the element's kind. -/
def kind : Element → String
  | query _ => "Query"
  | path p => if p.isRelative then "RelativeQuery" else "AbsoluteQuery"
  | segment s => if s.isDescendant then "DescendantSegment" else "ChildSegment"
  | selector s =>
    match s with
    | .name .. => "NameSelector"
    | .index .. => "IndexSelector"
    | .slice .. => "SliceSelector"
    | .wildcard .. => "WildcardSelector"
    | .filter .. => "FilterSelector"
    | .missing .. => "MissingSelector"
  | expression e =>
    match e with
    | .or .. => "OrExpression"
    | .and .. => "AndExpression"
    | .not .. => "NotExpression"
    | .comparison .. => "ComparisonExpression"
    | .path .. => "QueryExpression"
    | .call .. => "FunctionExpression"
    | .literal .. => "LiteralExpression"
    | .parens .. => "ParenExpression"
    | .missing .. => "MissingExpression"
  | token t => t.kind.text

def firstToken : Element → Token
  | query q => q.path.firstToken
  | path p => p.firstToken
  | segment s => s.firstToken
  | selector s => s.firstToken
  | expression e => e.firstToken
  | token t => t

def lastToken : Element → Token
  | query q => q.ending
  | path p => p.lastToken
  | segment s => s.lastToken
  | selector s => s.lastToken
  | expression e => e.lastToken
  | token t => t

/-- The whole source for a query, and what the tokens span for all else. -/
def range : Element → Range
  | query q => q.range
  | path p => p.range
  | segment s => s.range
  | selector s => s.range
  | expression e => e.range
  | token t => t.range

def asToken? : Element → Option Token
  | token t => some t
  | _ => none

end Element

/-- An element with the trees of its children. -/
inductive Tree where
  | node (element : Element) (children : List Tree)

namespace Tree

def element : Tree → Element
  | node e _ => e

def children : Tree → List Tree
  | node _ cs => cs

def range (t : Tree) : Range := t.element.range

def leaf (t : Token) : Tree := node (.token t) []

def leaf? (t : Option Token) : List Tree := (t.map leaf).toList

end Tree

def Bound.leaf? (b : Option Bound) : List Tree := Tree.leaf? (b.map (·.token))

def StepPart.leaves (p : Option StepPart) : List Tree :=
  match p with
  | some part => Tree.leaf part.colon :: Bound.leaf? part.bound
  | none => []

mutual

/-- The trees of a path's identifier and segments. -/
def Path.parts : Path → List Tree
  | .root _ identifier => [.leaf identifier]
  | .step before segment => before.parts ++ [segment.tree]

def Segment.tree : Segment → Tree
  | .shorthand id dots selector =>
    .node (.segment (.shorthand id dots selector)) [.leaf dots, selector.tree]
  | .bracketed id dots opening selectors closing =>
    .node (.segment (.bracketed id dots opening selectors closing))
      (Tree.leaf? dots ++ .leaf opening :: selectors.trees ++ [.leaf closing])

def Selectors.trees : Selectors → List Tree
  | .last selector => [selector.tree]
  | .more selector comma rest => selector.tree :: .leaf comma :: rest.trees

def Selector.tree : Selector → Tree
  | .name id token value => .node (.selector (.name id token value)) [.leaf token]
  | .index id token value => .node (.selector (.index id token value)) [.leaf token]
  | .slice id start colon stop step =>
    .node (.selector (.slice id start colon stop step))
      (Bound.leaf? start ++ .leaf colon :: Bound.leaf? stop ++ StepPart.leaves step)
  | .wildcard id token => .node (.selector (.wildcard id token)) [.leaf token]
  | .filter id question test =>
    .node (.selector (.filter id question test)) [.leaf question, test.tree]
  | .missing id token => .node (.selector (.missing id token)) [.leaf token]

def Expr.tree : Expr → Tree
  | .or id first operator rest =>
    .node (.expression (.or id first operator rest))
      (first.tree :: .leaf operator :: rest.trees)
  | .and id first operator rest =>
    .node (.expression (.and id first operator rest))
      (first.tree :: .leaf operator :: rest.trees)
  | .not id bang inner => .node (.expression (.not id bang inner)) [.leaf bang, inner.tree]
  | .comparison id left operator op right =>
    .node (.expression (.comparison id left operator op right))
      [left.tree, .leaf operator, right.tree]
  | .path id p => .node (.expression (.path id p)) [.node (.path p) p.parts]
  | .call id name opening arguments closing =>
    .node (.expression (.call id name opening arguments closing))
      (.leaf name :: .leaf opening :: arguments.trees ++ [.leaf closing])
  | .literal id token value => .node (.expression (.literal id token value)) [.leaf token]
  | .parens id opening inner closing =>
    .node (.expression (.parens id opening inner closing))
      [.leaf opening, inner.tree, .leaf closing]
  | .missing id token => .node (.expression (.missing id token)) [.leaf token]

def Operands.trees : Operands → List Tree
  | .last operand => [operand.tree]
  | .more operand separator rest => operand.tree :: .leaf separator :: rest.trees

def Arguments.trees : Arguments → List Tree
  | .none => []
  | .some operands => operands.trees

end

def Path.tree (p : Path) : Tree := .node (.path p) p.parts

def Query.tree (q : Query) : Tree := .node (.query q) [q.path.tree, .leaf q.ending]

namespace Tree

mutual

/-- The elements of a tree, each before its children, with their depths. Elements below
one that `prune` holds of are left out. -/
def visit (prune : Element → Bool) (depth : Nat) : Tree → List (Nat × Element)
  | node e cs => (depth, e) :: if prune e then [] else visitAll prune (depth + 1) cs

def visitAll (prune : Element → Bool) (depth : Nat) : List Tree → List (Nat × Element)
  | [] => []
  | c :: rest => visit prune depth c ++ visitAll prune depth rest

end

/-- All elements, each before its children. -/
def elements (t : Tree) : List Element := (t.visit (fun _ => false) 0).map (·.2)

mutual

/-- The tokens, in the order of the source. -/
def tokens : Tree → List Token
  | node (.token t) _ => [t]
  | node _ cs => tokensAll cs

def tokensAll : List Tree → List Token
  | [] => []
  | c :: rest => c.tokens ++ tokensAll rest

end

end Tree

/-- The text that a token covers, with what was skipped before it. -/
def Token.source (t : Token) : String := t.skipped ++ t.text

/-- The source of a query, put together from its tokens. -/
def Query.source (q : Query) : String := String.join (q.tree.tokens.map Token.source)

/-- The canonical text of a query. -/
def Query.text (q : Query) : String := q.path.text

end JsonPath
