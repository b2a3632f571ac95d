import JsonPath.Json.Reader
import JsonPath.Syntax.Cursor
import JsonPath.Syntax.Extent
import JsonPath.Syntax.StringLiteral

/-!
The grammar of queries. Every production gives an element, whatever stands at the cursor:
what it does not expect is reported and passed over, and a placeholder takes the place of
what is missing. Productions for nested expressions are handed in, and the knot is tied
once, to a depth that the length of the query bounds.
-/

namespace JsonPath

namespace Parser

/-! ### Numbers -/

/-- What follows a minus sign, if a text begins with one, or the whole text. -/
def unsigned (chars : List Char) : List Char :=
  if chars.head? = some '-' then chars.drop 1 else chars

/-- An index or a bound as it stands in the source. -/
structure IntegerText where
  negative : Bool
  digits : List Char
  /-- A point or an exponent mark and what may follow it in a decimal number. -/
  tail : List Char

namespace IntegerText

/-- What would make a decimal number of a whole one, at the start of a text. -/
def tailOf : List Char → List Char
  | c :: more =>
    if c = '.' || c = 'e' || c = 'E' then
      c :: more.takeWhile fun c => Text.isDigit c || c = '+' || c = '-'
    else []
  | [] => []

def ofChars (chars : List Char) : IntegerText where
  negative := chars.head? = some '-'
  digits := (unsigned chars).takeWhile Text.isDigit
  tail := tailOf ((unsigned chars).dropWhile Text.isDigit)

/-- The number of characters of the sign and the digits. -/
def wholeLength (t : IntegerText) : Nat := (if t.negative then 1 else 0) + t.digits.length

/-- The number that is meant, cut to 64 bits. -/
def value (t : IntegerText) : Int :=
  let n : Int := Text.decimalValue t.digits
  if t.negative then max (-(2 ^ 63)) (-n) else min (2 ^ 63 - 1) n

end IntegerText

/-- An index or a bound, which begins with a sign or a digit. -/
def integer : Parser Bound := do
  let c ← get
  let t := IntegerText.ofChars c.rest
  let whole := c.ahead t.wholeLength
  if t.digits.isEmpty then
    report (.expected .integer (c.pass t.wholeLength).found) whole
  else if 1 < t.digits.length && t.digits.head? = some '0' then
    report (.leadingZeros .integer) whole
  else if t.negative && t.digits = ['0'] then
    report .negativeZero whole
  let length := t.wholeLength + t.tail.length
  if !t.tail.isEmpty then report .decimalIndex (c.ahead length)
  return ⟨← take .number length, t.value⟩

/-- The bound of a slice, if one stands at the cursor. -/
def bound? : Parser (Option Bound) := do
  match ← peek with
  | some c => if c = '-' || Text.isDigit c then some <$> integer else return none
  | none => return none

/-- A number literal as it stands in the source. -/
structure NumberText where
  negative : Bool
  digits : List Char
  /-- The digits after a point, if there is one. -/
  fraction : Option (List Char)
  /-- A sign and the digits after an exponent mark, if there is one. -/
  exponent : Option (List Char × List Char)

namespace NumberText

/-- The digits after a point at the start of a text. -/
def fractionOf : List Char → Option (List Char)
  | '.' :: more => some (more.takeWhile Text.isDigit)
  | _ => none

/-- The number of characters of a fraction, its point included. -/
def fractionSize : Option (List Char) → Nat
  | some part => 1 + part.length
  | none => 0

/-- The sign at the start of a text. -/
def signOf (chars : List Char) : List Char :=
  match chars.head? with
  | some '+' => ['+']
  | some '-' => ['-']
  | _ => []

/-- The sign and the digits after an exponent mark at the start of a text. -/
def exponentOf : List Char → Option (List Char × List Char)
  | c :: more =>
    if c = 'e' || c = 'E' then
      some (signOf more, (more.drop (signOf more).length).takeWhile Text.isDigit)
    else none
  | [] => none

/-- The number of characters of an exponent, its mark included. -/
def exponentSize : Option (List Char × List Char) → Nat
  | some (sign, part) => 1 + sign.length + part.length
  | none => 0

def ofChars (chars : List Char) : NumberText :=
  let after := (unsigned chars).dropWhile Text.isDigit
  {
    negative := chars.head? = some '-'
    digits := (unsigned chars).takeWhile Text.isDigit
    fraction := fractionOf after
    exponent := exponentOf (after.drop (fractionSize (fractionOf after)))
  }

def wholeLength (t : NumberText) : Nat := (if t.negative then 1 else 0) + t.digits.length

/-- The number of characters up to the end of the fraction. -/
def fractionLength (t : NumberText) : Nat := t.wholeLength + fractionSize t.fraction

def length (t : NumberText) : Nat := t.fractionLength + exponentSize t.exponent

end NumberText

/-- The number that a text denotes; zero for a text that is none or out of range. -/
def numberValue (text : String) : Json :=
  match Json.read text with
  | .ok (.number n) => .number n
  | _ => .natural 0

/-- A number literal, which begins with a sign or a digit. -/
def numberLiteral : Parser Expr := do
  let id ← freshId
  let c ← get
  let t := NumberText.ofChars c.rest
  if t.digits.isEmpty then
    report (.expected .number (c.pass t.wholeLength).found) (c.ahead t.wholeLength)
  else if 1 < t.digits.length && t.digits.head? = some '0' then
    report (.leadingZeros .number) (c.ahead t.wholeLength)
  if t.fraction = some [] then report .missingFraction (c.ahead t.fractionLength)
  if t.exponent.any fun e => e.2.isEmpty then report .missingExponent (c.ahead t.length)
  let token ← take .number t.length
  return .literal id token (numberValue token.text)

/-! ### Names and strings -/

/-- A string literal, which begins with the quote given, and the text it stands for. -/
def stringLiteral (quote : Char) : Parser (Token × String) := do
  let c ← get
  let (body, closed) := StringLiteral.body quote (c.rest.drop 1)
  let length := 1 + body.length + if closed then 1 else 0
  if !closed then report .unclosedString (c.ahead length)
  let (value, faults) := StringLiteral.decode quote body
  let start := (c.pass 1).offset
  for fault in faults do
    report (.escape fault.what) ⟨start + fault.range.start, start + fault.range.stop⟩
  return (← take .string length, String.ofList value)

/-- A character that may begin a name in dot notation. -/
def isNameFirst (c : Char) : Bool := Text.isLetter c || c = '_' || 0x80 ≤ c.toNat

def isNameChar (c : Char) : Bool := isNameFirst c || Text.isDigit c

/-- A character that may stand in the name of a function, after a letter. -/
def isFunctionChar (c : Char) : Bool := Text.isLowerLetter c || Text.isDigit c || c = '_'

/-- The selector after a dot or two dots: an asterisk or a name. -/
def shorthandSelector (after : TokenKind) : Parser Selector := do
  let id ← freshId
  match (← get).rest with
  | '*' :: _ => return .wildcard id (← take .wildcard 1)
  | c :: more =>
    if isNameFirst c then
      let token ← take .name (1 + (more.takeWhile isNameChar).length)
      return .name id token token.text
    else
      reportFound (.shorthand after)
      return .missing id (← missing .name)
  | [] =>
    reportFound (.shorthand after)
    return .missing id (← missing .name)

/-! ### Selectors and segments -/

/-- What follows the second colon of a slice, after blanks, if there is one. -/
def stepPart? : Parser (Option StepPart) := do
  let c ← get
  let _ ← skipBlanks
  if ← isAt [':'] then
    let colon ← take .colon 1
    let _ ← skipBlanks
    return some ⟨colon, ← bound?⟩
  else
    set c
    return none

/-- An index or a slice, which begins with a sign, a digit or a colon. -/
def indexOrSlice : Parser Selector := do
  let id ← freshId
  let start ← bound?
  let c ← get
  let _ ← skipBlanks
  if ← isAt [':'] then
    let colon ← take .colon 1
    let _ ← skipBlanks
    let stop ← bound?
    return .slice id start colon stop (← stepPart?)
  else
    set c
    match start with
    | some ⟨token, value⟩ => return .index id token value
    | none => return .missing id (← missing .number)

/-- A placeholder for a selector. -/
def missingSelector : Parser Selector := do
  let id ← freshId
  reportFound .selector
  return .missing id (← missing .name)

/-- A selector between brackets; `filter` reads the expression after a question mark. -/
def selector (filter : Parser Expr) : Parser Selector := do
  match ← peek with
  | some '\'' =>
    let id ← freshId
    let (token, value) ← stringLiteral '\''
    return .name id token value
  | some '"' =>
    let id ← freshId
    let (token, value) ← stringLiteral '"'
    return .name id token value
  | some '*' => return .wildcard (← freshId) (← take .wildcard 1)
  | some '?' =>
    let id ← freshId
    let question ← take .question 1
    return .filter id question (← filter)
  | some c =>
    if c = '-' || c = ':' || Text.isDigit c then indexOrSlice
    else if c = ',' || c = ']' then missingSelector
    else
      let id ← freshId
      skipGarbage .selector [',', ']']
      return .missing id (← missing .name)
  | none => missingSelector

/-- The closing bracket, or a placeholder at the end of the query. -/
def closeBracket (opening : Token) : Parser Token := do
  if ← isAt [']'] then take .rightBracket 1
  else
    report .unclosedBrackets opening.range
    missing .rightBracket

/-- The selectors after an opening bracket and the closing one. Every round but the last
reads a comma. -/
def selectors (filter : Parser Expr) (opening : Token) : Nat → Parser (Selectors × Token)
  | 0 => return (.last (← missingSelector), ← closeBracket opening)
  | rounds + 1 => do
    let _ ← skipBlanks
    let first ← selector filter
    let _ ← skipBlanks
    skipGarbage .selectorEnd [',', ']']
    if ← isAt [','] then
      let comma ← take .comma 1
      let (rest, closing) ← selectors filter opening rounds
      return (.more first comma rest, closing)
    else return (.last first, ← closeBracket opening)

/-- Selectors between brackets, as a segment whose number and dots have been read. -/
def bracketed (filter : Parser Expr) (id : Nat) (dots : Option Token) : Parser Segment := do
  let opening ← take .leftBracket 1
  let (found, closing) ← selectors filter opening ((← get).rest.length + 1)
  return .bracketed id dots opening found closing

/-- A segment, if one comes next after blanks. -/
def segment? (filter : Parser Expr) : Parser (Option Segment) := do
  let c ← get
  let _ ← skipBlanks
  if ← isAt ['.', '.'] then
    let id ← freshId
    let dots ← take .doubleDot 2
    rejectBlanks (.blanksAfter .doubleDot)
    if ← isAt ['['] then some <$> bracketed filter id (some dots)
    else return some (.shorthand id dots (← shorthandSelector .doubleDot))
  else if ← isAt ['.'] then
    let id ← freshId
    let dot ← take .dot 1
    rejectBlanks (.blanksAfter .dot)
    return some (.shorthand id dot (← shorthandSelector .dot))
  else if ← isAt ['['] then
    let id ← freshId
    some <$> bracketed filter id none
  else
    set c
    return none

/-- The path with all segments that follow. Every round reads a character. -/
def segments (filter : Parser Expr) : Nat → Path → Parser Path
  | 0, path => return path
  | rounds + 1, path => do
    match ← segment? filter with
    | some segment => segments filter rounds (.step path segment)
    | none => return path

/-- A path inside an expression, which begins with an identifier of the given kind. -/
def pathExpression (filter : Parser Expr) (kind : TokenKind) : Parser Expr := do
  let id ← freshId
  let pathId ← freshId
  let identifier ← take kind 1
  return .path id (← segments filter (← get).rest.length (.root pathId identifier))

/-! ### Expressions -/

/-- A placeholder for an expression. -/
def missingExpression : Parser Expr := do
  let id ← freshId
  reportFound .expression
  return .missing id (← missing .name)

/-- The operands after an operator, each further one after another such operator. Every
round but the last reads an operator. -/
def operands (kind : TokenKind) (mark : List Char) (operand : Parser Expr) :
    Nat → Parser Operands
  | 0 => return .last (← missingExpression)
  | rounds + 1 => do
    let first ← operand
    let _ ← skipBlanks
    if ← isAt mark then
      let operator ← take kind mark.length
      return .more first operator (← operands kind mark operand rounds)
    else return .last first

/-- The closing parenthesis, or a placeholder where it is missing. -/
def closeParen (opening : Token) : Parser Token := do
  if ← isAt [')'] then take .rightParen 1
  else
    report .unclosedParentheses opening.range
    missing .rightParen

/-- The arguments after an opening parenthesis and the closing one. Every round but the
last reads a comma. -/
def arguments (argument : Parser Expr) (opening : Token) : Nat → Parser (Operands × Token)
  | 0 => return (.last (← missingExpression), ← closeParen opening)
  | rounds + 1 => do
    let first ← argument
    let _ ← skipBlanks
    skipGarbage .argumentEnd [',', ')', ']']
    if ← isAt [','] then
      let comma ← take .comma 1
      let (rest, closing) ← arguments argument opening rounds
      return (.more first comma rest, closing)
    else return (.last first, ← closeParen opening)

/-- A call of the function whose name has been read. -/
def call (argument : Parser Expr) (id : Nat) (name : Token) : Parser Expr := do
  let opening ← take .leftParen 1
  let _ ← skipBlanks
  if ← isAt [')'] then return .call id name opening .none (← take .rightParen 1)
  else
    let (found, closing) ← arguments argument opening ((← get).rest.length + 1)
    return .call id name opening (.some found) closing

/-- A call or a word that stands for a value, which begins with a lowercase letter. Another
word is reported and left to be skipped. -/
def callOrWord (argument : Parser Expr) : Parser Expr := do
  let id ← freshId
  let c ← get
  let word := c.rest.takeWhile isFunctionChar
  let after := c.pass word.length
  if (after.pass after.blanks).isAt ['('] then
    let name ← take .function word.length
    rejectBlanks .blanksBeforeArguments
    call argument id name
  else if word = ['t', 'r', 'u', 'e'] then
    return .literal id (← take .true word.length) (.bool true)
  else if word = ['f', 'a', 'l', 's', 'e'] then
    return .literal id (← take .false word.length) (.bool false)
  else if word = ['n', 'u', 'l', 'l'] then
    return .literal id (← take .null word.length) .null
  else
    report (.expected .expression (.text word)) (c.ahead word.length)
    modify (·.pass word.length)
    return .missing id (← missing .name)

/-- Parsers for expressions of each rank. -/
structure Expressions where
  disjunction : Parser Expr
  negation : Parser Expr
  primary : Parser Expr

/-- An expression that no operator takes apart. -/
def primary (inner : Expressions) : Parser Expr := do
  let _ ← skipBlanks
  match (← get).rest with
  | '(' :: _ =>
    let id ← freshId
    let opening ← take .leftParen 1
    let e ← inner.disjunction
    let _ ← skipBlanks
    return .parens id opening e (← closeParen opening)
  | '!' :: more =>
    if more.head? = some '=' then missingExpression
    else
      let id ← freshId
      let bang ← take .not 1
      return .not id bang (← inner.primary)
  | '$' :: _ => pathExpression inner.disjunction .root
  | '@' :: _ => pathExpression inner.disjunction .current
  | '\'' :: _ =>
    let id ← freshId
    let (token, value) ← stringLiteral '\''
    return .literal id token (.string value)
  | '"' :: _ =>
    let id ← freshId
    let (token, value) ← stringLiteral '"'
    return .literal id token (.string value)
  | c :: _ =>
    if c = '-' || Text.isDigit c then numberLiteral
    else if Text.isLowerLetter c then callOrWord inner.disjunction
    else missingExpression
  | [] => missingExpression

/-- The comparison that comes next and the length of its operator. A single `=` is taken
for `==`. -/
def comparison? (c : Cursor) : Option (Comparison × Nat) :=
  if c.isAt ['=', '='] then some (.equal, 2)
  else if c.isAt ['!', '='] then some (.notEqual, 2)
  else if c.isAt ['<', '='] then some (.lessOrEqual, 2)
  else if c.isAt ['>', '='] then some (.greaterOrEqual, 2)
  else if c.isAt ['<'] then some (.less, 1)
  else if c.isAt ['>'] then some (.greater, 1)
  else if c.isAt ['='] then some (.equal, 1)
  else none

/-- Reports an operand that has no single value to compare. -/
def checkComparable (e : Expr) : Parser Unit :=
  match e with
  | .parens .. => report .parenthesesCompared e.range
  | .not .. => report .negationCompared e.range
  | .path _ p => if p.isSingular then return else report .manyNodesCompared e.range
  | _ => return

/-- A primary expression or a comparison of two. -/
def comparison (inner : Expressions) : Parser Expr := do
  let left ← primary inner
  let _ ← skipBlanks
  match comparison? (← get) with
  | none => return left
  | some (op, length) =>
    let id ← freshId
    let operator ← take op.tokenKind length
    if operator.text = "=" then
      report (.expected .doubleEqual (.text ['='])) operator.range
    let right ← primary inner
    checkComparable left
    checkComparable right
    return .comparison id left operator op right

/-- A comparison with any number of exclamation marks before it. -/
def negation (inner : Expressions) : Parser Expr := do
  let _ ← skipBlanks
  if (← isAt ['!']) && !(← isAt ['!', '=']) then
    let id ← freshId
    let bang ← take .not 1
    return .not id bang (← inner.negation)
  else comparison inner

/-- An operand, or several with operators of one kind between them, of which `make` makes one
expression. -/
def joined (kind : TokenKind) (mark : List Char)
    (make : Nat → Expr → Token → Operands → Expr) (operand : Parser Expr) : Parser Expr := do
  let first ← operand
  let _ ← skipBlanks
  if ← isAt mark then
    let id ← freshId
    let operator ← take kind mark.length
    return make id first operator
      (← operands kind mark operand ((← get).rest.length + 1))
  else return first

/-- Negations with `&&` between them. -/
def conjunction (inner : Expressions) : Parser Expr :=
  joined .and ['&', '&'] .and (negation inner)

/-- Conjunctions with `||` between them. -/
def disjunction (inner : Expressions) : Parser Expr :=
  joined .or ['|', '|'] .or (conjunction inner)

/-- Expressions nested at most `depth` deep. -/
def expressions : Nat → Expressions
  | 0 => ⟨missingExpression, missingExpression, missingExpression⟩
  | depth + 1 =>
    let inner := expressions depth
    ⟨disjunction inner, negation inner, primary inner⟩

/-! ### The query -/

/-- The identifier at the start of a query. -/
def identifier : Parser Token := do
  match ← peek with
  | some '$' => take .root 1
  | some '@' =>
    let token ← take .current 1
    report .relativeStart token.range
    return token
  | _ =>
    reportFound .root
    missing .root

/-- What follows a path that has ended: nothing, or something to pass over and further
segments. Every round but the last reads a character. -/
def remainder (filter : Parser Expr) : Nat → Path → Parser Path
  | 0, path => return path
  | rounds + 1, path => do
    let trailing ← skipBlanks
    if (← peek).isNone then
      if !trailing.isEmpty then report .trailingBlanks trailing
      return path
    else
      skipGarbage .endOfQuery ['.', '[']
      let path ← segments filter (← get).rest.length path
      remainder filter rounds path

end Parser

/-- A query: its path, the token at its end, and what is wrong with its text, in the order
in which it was found. -/
structure Query where
  id : Nat
  path : Path
  ending : Token
  faults : List (Located SyntaxFault)
  /-- The number of elements of the tree. -/
  elementCount : Nat
  /-- The length of the source. -/
  length : Nat

namespace Query

/-- The whole query, with filters read by `filter`. -/
def parser (filter : Parser Expr) : Parser (Nat × Path × Token) := do
  let id ← Parser.freshId
  let pathId ← Parser.freshId
  Parser.rejectBlanks .leadingBlanks
  let identifier ← Parser.identifier
  let path ← Parser.segments filter (← get).rest.length (.root pathId identifier)
  let path ← Parser.remainder filter ((← get).rest.length + 1) path
  return (id, path, ← Parser.take .endOfQuery 0)

/-- The query that a text holds. There always is one. -/
def parse (source : String) : Query :=
  let chars := source.toList
  let filter := (Parser.expressions (chars.length + 1)).disjunction
  let ((id, path, ending), cursor) := (parser filter).run (Cursor.ofChars chars)
  {
    id := id
    path := path
    ending := ending
    faults := cursor.faults.reverse
    elementCount := cursor.nextId
    length := Text.byteLength chars
  }

/-- The positions of the source. -/
def range (q : Query) : Range := ⟨0, q.length⟩

def isSingular (q : Query) : Bool := q.path.isSingular

end Query

end JsonPath
