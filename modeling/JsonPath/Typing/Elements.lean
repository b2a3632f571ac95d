import JsonPath.Syntax.Position
import JsonPath.Typing

/-!
The types of all elements of a query. Tokens share the type of the element that they are
part of, except for `$` and `@`, which have the type of what they stand for.
-/

namespace JsonPath

/-- An element with the type of what it produces, and for segments and selectors also the
type of what they are applied to. -/
structure Typed where
  element : Element
  incoming : Option DataType
  type : DataType

namespace Typed

def token (type : DataType) (t : Token) : Typed := ⟨.token t, none, type⟩

def expression (s : TypeScope) (e : Expr) : Typed := ⟨.expression e, none, e.type s⟩

end Typed

mutual

/-- The elements below a path, each before its children. -/
def Path.typed (s : TypeScope) : Path → List Typed
  | .root id identifier => [.token ((Path.root id identifier).seedType s) identifier]
  | .step before segment =>
    before.typed s ++ segment.typed s (segment.incoming (before.type s))

def Segment.typed (s : TypeScope) (incoming : DataType) : Segment → List Typed
  | .shorthand id dots selector =>
    let self := Segment.shorthand id dots selector
    let t := self.type s incoming
    ⟨.segment self, some incoming, t⟩ :: .token t dots :: selector.typed s incoming
  | .bracketed id dots opening selectors closing =>
    let self := Segment.bracketed id dots opening selectors closing
    let t := self.type s incoming
    ⟨.segment self, some incoming, t⟩ ::
      (dots.toList.map (Typed.token t) ++ .token t opening ::
        selectors.typed s incoming t ++ [.token t closing])

/-- The elements of selectors, the commas having the type of the segment. -/
def Selectors.typed (s : TypeScope) (incoming whole : DataType) : Selectors → List Typed
  | .last selector => selector.typed s incoming
  | .more selector comma rest =>
    selector.typed s incoming ++ .token whole comma :: rest.typed s incoming whole

def Selector.typed (s : TypeScope) (incoming : DataType) : Selector → List Typed
  | .filter id question test =>
    let self := Selector.filter id question test
    let t := self.type s incoming
    ⟨.selector self, some incoming, t⟩ :: .token t question ::
      test.typed { s with current := incoming.children }
  | self =>
    let t := self.type s incoming
    ⟨.selector self, some incoming, t⟩ :: self.tree.tokens.map (Typed.token t)

def Expr.typed (s : TypeScope) : Expr → List Typed
  | .or id first operator rest =>
    let self := Expr.or id first operator rest
    let t := self.type s
    .expression s self :: (first.typed s ++ .token t operator :: rest.typed s t)
  | .and id first operator rest =>
    let self := Expr.and id first operator rest
    let t := self.type s
    .expression s self :: (first.typed s ++ .token t operator :: rest.typed s t)
  | .not id bang inner =>
    let self := Expr.not id bang inner
    .expression s self :: .token (self.type s) bang :: inner.typed s
  | .comparison id left operator op right =>
    let self := Expr.comparison id left operator op right
    .expression s self ::
      (left.typed s ++ .token (self.type s) operator :: right.typed s)
  | .path id p =>
    .expression s (.path id p) :: ⟨.path p, none, p.type s⟩ :: p.typed s
  | .call id name opening arguments closing =>
    let self := Expr.call id name opening arguments closing
    let t := self.type s
    .expression s self :: .token t name :: .token t opening ::
      (arguments.typed s t ++ [.token t closing])
  | .literal id token value =>
    let self := Expr.literal id token value
    [.expression s self, .token (self.type s) token]
  | .parens id opening inner closing =>
    let self := Expr.parens id opening inner closing
    let t := self.type s
    .expression s self :: .token t opening :: (inner.typed s ++ [.token t closing])
  | .missing id token =>
    let self := Expr.missing id token
    [.expression s self, .token (self.type s) token]

/-- The elements of operands, what separates them having the type of the whole. -/
def Operands.typed (s : TypeScope) (whole : DataType) : Operands → List Typed
  | .last operand => operand.typed s
  | .more operand separator rest =>
    operand.typed s ++ .token whole separator :: rest.typed s whole

def Arguments.typed (s : TypeScope) (whole : DataType) : Arguments → List Typed
  | .none => []
  | .some operands => operands.typed s whole

end

namespace Query

/-- The types of everything in a query for documents of type `root`. Outside filters the
current value is the document. -/
def typed (q : Query) (environment : Environment) (root : DataType) : List Typed :=
  let s : TypeScope := ⟨environment, root, root⟩
  let t := q.path.type s
  ⟨.query q, none, t⟩ :: ⟨.path q.path, none, t⟩ :: (q.path.typed s ++ [.token t q.ending])

/-- The type of the element with a number. -/
def typeOf? (q : Query) (environment : Environment) (root : DataType) (id : Nat) :
    Option DataType :=
  ((q.typed environment root).find? fun e => e.element.id == id).map (·.type)

end Query

end JsonPath
