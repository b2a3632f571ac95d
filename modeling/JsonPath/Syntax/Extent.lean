import JsonPath.Syntax.Basic

/-!
The first and the last token of every element, and the range they span.
-/

namespace JsonPath

mutual

def Path.lastToken : Path → Token
  | .root _ identifier => identifier
  | .step _ segment => segment.lastToken

def Segment.lastToken : Segment → Token
  | .shorthand _ _ selector => selector.lastToken
  | .bracketed _ _ _ _ closing => closing

def Selector.lastToken : Selector → Token
  | .name _ token _ => token
  | .index _ token _ => token
  | .slice _ _ colon stop step =>
    match step, stop with
    | some ⟨_, some bound⟩, _ => bound.token
    | some ⟨colon, none⟩, _ => colon
    | none, some bound => bound.token
    | none, none => colon
  | .wildcard _ token => token
  | .filter _ _ test => test.lastToken
  | .missing _ token => token

def Expr.lastToken : Expr → Token
  | .or _ _ _ rest => rest.lastToken
  | .and _ _ _ rest => rest.lastToken
  | .not _ _ inner => inner.lastToken
  | .comparison _ _ _ _ right => right.lastToken
  | .path _ p => p.lastToken
  | .call _ _ _ _ closing => closing
  | .literal _ token _ => token
  | .parens _ _ _ closing => closing
  | .missing _ token => token

def Operands.lastToken : Operands → Token
  | .last operand => operand.lastToken
  | .more _ _ rest => rest.lastToken

end

def Path.firstToken (p : Path) : Token := p.identifier

def Selector.firstToken : Selector → Token
  | .name _ token _ => token
  | .index _ token _ => token
  | .slice _ start colon _ _ =>
    match start with
    | some bound => bound.token
    | none => colon
  | .wildcard _ token => token
  | .filter _ question _ => question
  | .missing _ token => token

def Segment.firstToken : Segment → Token
  | .shorthand _ dots _ => dots
  | .bracketed _ dots opening _ _ => dots.getD opening

def Expr.firstToken : Expr → Token
  | .or _ first _ _ => first.firstToken
  | .and _ first _ _ => first.firstToken
  | .not _ bang _ => bang
  | .comparison _ left _ _ _ => left.firstToken
  | .path _ p => p.identifier
  | .call _ name _ _ _ => name
  | .literal _ token _ => token
  | .parens _ opening _ _ => opening
  | .missing _ token => token

def Path.range (p : Path) : Range := p.firstToken.range.cover p.lastToken.range

def Segment.range (s : Segment) : Range := s.firstToken.range.cover s.lastToken.range

def Selector.range (s : Selector) : Range := s.firstToken.range.cover s.lastToken.range

def Expr.range (e : Expr) : Range := e.firstToken.range.cover e.lastToken.range

end JsonPath
