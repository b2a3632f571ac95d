import JsonPath.Syntax.Token

/-!
What can be wrong with the text of a query, and the message for each fault.
-/

namespace JsonPath

/-- What is wrong inside a string literal. -/
inductive EscapeFault where
  | incomplete
  | unknown (c : Char)
  | control
  | lowSurrogate
  | highSurrogate
deriving DecidableEq

def EscapeFault.message : EscapeFault → String
  | incomplete => "incomplete escape sequence"
  | unknown c => "invalid escape sequence '\\" ++ String.singleton c ++ "'"
  | control => "invalid character in string literal"
  | lowSurrogate => "unexpected low surrogate"
  | highSurrogate => "unpaired high surrogate"

/-- What was expected at some place of a query. -/
inductive Wanted where
  | root
  | endOfQuery
  | shorthand (after : TokenKind)
  | selector
  | selectorEnd
  | argumentEnd
  | integer
  | number
  | expression
  | doubleEqual
deriving DecidableEq

def Wanted.text : Wanted → String
  | root => TokenKind.root.text
  | endOfQuery => "end of query"
  | shorthand after => "a name or '*' after " ++ after.text
  | selector => "a selector"
  | selectorEnd => "',' or ']'"
  | argumentEnd => "',' or ')'"
  | integer => "an integer"
  | number => "a number"
  | expression => "a filter expression"
  | doubleEqual => TokenKind.equal.text

/-- What was found instead. -/
inductive Found where
  | text (chars : List Char)
  | endOfQuery
deriving DecidableEq

def Found.message : Found → String
  | text chars => "'" ++ String.ofList chars ++ "'"
  | endOfQuery => "end of query"

/-- What is wrong at some range of a query. -/
inductive SyntaxFault where
  | leadingBlanks
  | trailingBlanks
  | relativeStart
  | expected (wanted : Wanted) (found : Found)
  | blanksAfter (kind : TokenKind)
  | blanksBeforeArguments
  | unclosedBrackets
  | unclosedString
  | unclosedParentheses
  | leadingZeros (wanted : Wanted)
  | negativeZero
  | decimalIndex
  | missingFraction
  | missingExponent
  | escape (fault : EscapeFault)
  | parenthesesCompared
  | negationCompared
  | manyNodesCompared
deriving DecidableEq

def SyntaxFault.message : SyntaxFault → String
  | leadingBlanks => "leading whitespace is not allowed"
  | trailingBlanks => "trailing whitespace is not allowed"
  | relativeStart => "a query must start with " ++ TokenKind.root.text
  | expected wanted found => "expected " ++ wanted.text ++ ", found " ++ found.message
  | blanksAfter kind => "whitespace is not allowed after " ++ kind.text
  | blanksBeforeArguments => "whitespace is not allowed between a function name and '('"
  | unclosedBrackets => "unclosed bracketed selection"
  | unclosedString => "unclosed string literal"
  | unclosedParentheses => "unbalanced parentheses"
  | leadingZeros .number => "leading zeros are not allowed in numbers"
  | leadingZeros _ => "leading zeros are not allowed in indices"
  | negativeZero => "negative zero is not allowed in indices"
  | decimalIndex => "expected an integer, found a decimal number"
  | missingFraction => "expected a digit after the decimal point"
  | missingExponent => "expected a digit in the exponent"
  | escape fault => fault.message
  | parenthesesCompared => "parenthesized expressions are not comparable"
  | negationCompared => "negated expressions are not comparable"
  | manyNodesCompared => "non-singular query is not comparable"

end JsonPath
