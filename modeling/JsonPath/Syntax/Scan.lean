import JsonPath.Syntax.Escape
import JsonPath.Syntax.Parser

/-!
Reading a query by positions in its source, with every check on the way. A slice or a range must
start and stop between characters of the source and must not be inverted. The position must not
go back behind the last token. A loop that goes round again must have read something, and so must
a production before it is entered again inside itself. Where a check fails, reading ends with a
mishap.
-/

namespace JsonPath

namespace Text

/-- What follows so many bytes of a text, if they are whole characters of it. -/
def dropBytes : List Char → (count : Nat) → Option (List Char)
  | chars, 0 => some chars
  | [], _ + 1 => none
  | c :: rest, count + 1 =>
    if c.utf8Size ≤ count + 1 then dropBytes rest (count + 1 - c.utf8Size) else none

/-- So many bytes of a text, if they are whole characters of it. -/
def takeBytes : List Char → (count : Nat) → Option (List Char)
  | _, 0 => some []
  | [], _ + 1 => none
  | c :: rest, count + 1 =>
    if c.utf8Size ≤ count + 1 then (takeBytes rest (count + 1 - c.utf8Size)).map (c :: ·)
    else none

/-- What stands in a text between two positions. -/
def slice? (chars : List Char) (start stop : Nat) : Option (List Char) :=
  if start ≤ stop then (dropBytes chars start).bind (takeBytes · (stop - start)) else none

end Text

/-- The position in a source, where the last token ended, and what has been noted so far, latest
first. -/
structure Place where
  position : Nat
  lastEnd : Nat
  nextId : Nat
  faults : List (Located SyntaxFault)

/-- What must not happen while a source is read. -/
inductive Mishap where
  /-- A slice or a range is inverted, leaves the source or splits a character. -/
  | slice (start stop : Nat)
  /-- The position goes back behind the end of the last token. -/
  | reset (position : Nat)
  /-- Nothing has been read since the loop or the production began at the position. -/
  | idle (position : Nat)
  /-- A loop or a recursion goes on without end. -/
  | endless

/-- A part of the reading of a source. -/
abbrev Scan := ReaderT (List Char) (StateT Place (Except Mishap))

namespace Scan

def slice (start stop : Nat) : Scan (List Char) := fun source place =>
  match Text.slice? source start stop with
  | some part => .ok (part, place)
  | none => .error (.slice start stop)

def range (start stop : Nat) : Scan Range := do
  let _ ← slice start stop
  return ⟨start, stop⟩

def position : Scan Nat := fun _ place => .ok (place.position, place)

def lastEnd : Scan Nat := fun _ place => .ok (place.lastEnd, place)

/-- The end of the source. -/
def length : Scan Nat := fun source place => .ok (Text.byteLength source, place)

/-- More rounds than any loop needs. -/
def budget : Scan Nat := fun source place => .ok (source.length + 1, place)

def move (position : Nat) : Scan Unit := fun _ place => .ok ((), { place with position })

def reset (position : Nat) : Scan Unit := fun _ place =>
  if place.lastEnd ≤ position then .ok ((), { place with position })
  else .error (.reset position)

/-- Goes on only if something has been read since the position `entered`. -/
def advanced (entered : Nat) : Scan Unit := fun _ place =>
  if entered < place.position then .ok ((), place) else .error (.idle entered)

def endless {α : Type} : Scan α := fun _ _ => .error .endless

def freshId : Scan Nat := fun _ place =>
  .ok (place.nextId, { place with nextId := place.nextId + 1 })

/-- What is left of the source. -/
def rest : Scan (List Char) := do
  let start ← position
  slice start (← length)

def peek : Scan (Option Char) := do
  let chars ← rest
  return chars.head?

def isAt (chars : List Char) : Scan Bool := do
  let next ← rest
  return chars.isPrefixOf next

def bump : Scan (Option Char) := do
  match ← peek with
  | some c =>
    let start ← position
    move (start + c.utf8Size)
    return some c
  | none => return none

/-- Passes over characters that pass a test. -/
def bumpEach (test : Char → Bool) : (rounds : Nat) → Scan Unit
  | 0 => endless
  | rounds + 1 => do
    let entered ← position
    match ← peek with
    | some c =>
      if test c then
        let _ ← bump
        advanced entered
        bumpEach test rounds
      else return ()
    | none => return ()

/-- As `bumpEach`, with the number of bytes passed over. -/
def bumpWhile (test : Char → Bool) : Scan Nat := do
  let start ← position
  bumpEach test (← budget)
  let stop ← position
  return stop - start

def skipBlanks : Scan Range := do
  let start ← position
  let _ ← bumpWhile Cursor.isBlank
  range start (← position)

/-- Makes a token of the text from `start` on. -/
def token (kind : TokenKind) (start : Nat) : Scan Token := do
  let id ← freshId
  let stop ← position
  let text ← slice start stop
  let skipped ← slice (← lastEnd) start
  let range ← range start stop
  modify fun place => { place with lastEnd := stop }
  return {
    id := id
    kind := kind
    text := String.ofList text
    skipped := String.ofList skipped
    range := range
    missing := false
  }

/-- Makes a token of the next `length` bytes. -/
def eat (kind : TokenKind) (length : Nat) : Scan Token := do
  let start ← position
  move (start + length)
  token kind start

/-- A token without text, for one that was expected here. -/
def missing (kind : TokenKind) : Scan Token := do
  let t ← token kind (← position)
  return { t with missing := true }

def error (fault : SyntaxFault) (range : Range) : Scan Unit := do
  let _ ← slice range.start range.stop
  modify fun place => { place with faults := ⟨fault, range⟩ :: place.faults }

/-- Passes over characters up to one of `stops` and reports them, if there are any. -/
def skipGarbage (wanted : Wanted) (stops : List Char) : Scan Unit := do
  let start ← position
  let _ ← bumpWhile fun c => !stops.contains c
  let stop ← position
  if start < stop then
    let range ← range start stop
    let garbage ← slice start stop
    error (.expected wanted (.text garbage)) range
  else return ()

/-- Passes over blanks and reports them, if there are any. -/
def rejectBlanks (fault : SyntaxFault) : Scan Unit := do
  let blanks ← skipBlanks
  if !blanks.isEmpty then error fault blanks else return ()

/-- What stands at the position, for a message. -/
def found : Scan Found := do
  match ← peek with
  | some c => return .text [c]
  | none => return .endOfQuery

def nextRange : Scan Range := do
  let start ← position
  match ← peek with
  | some c => range start (start + c.utf8Size)
  | none => range start start

/-- Reports that something else was expected at the position. -/
def reportFound (wanted : Wanted) : Scan Unit := do
  let what ← found
  error (.expected wanted what) (← nextRange)

/-! ### Numbers -/

/-- Passes over a minus sign, if there is one. -/
def minus : Scan Bool := do
  let negative ← isAt ['-']
  if negative then
    let _ ← bump
    return true
  else return false

/-- Reports what is wrong with the digits of an index or a bound. -/
def checkInteger (start digits stop : Nat) (negative : Bool) (text : List Char) : Scan Unit :=
  if digits = 0 then do
    let what ← found
    error (.expected .integer what) (← range start (← position))
  else if 1 < digits && text.head? = some '0' then do
    error (.leadingZeros .integer) (← range start stop)
  else if negative && text = ['0'] then do
    error .negativeZero (← range start stop)
  else return ()

/-- Passes over what would make a decimal number of a whole one. -/
def decimalTail (start : Nat) : Scan Unit := do
  match ← peek with
  | some c =>
    if c = '.' || c = 'e' || c = 'E' then
      let _ ← bump
      let _ ← bumpWhile fun c => Text.isDigit c || c = '+' || c = '-'
      error .decimalIndex (← range start (← position))
    else return ()
  | none => return ()

/-- An index or a bound, which begins with a sign or a digit. -/
def integer : Scan Bound := do
  let start ← position
  let negative ← minus
  let digitsStart ← position
  let digits ← bumpWhile Text.isDigit
  let stop ← position
  let text ← slice digitsStart stop
  checkInteger start digits stop negative text
  let _ ← slice start stop
  decimalTail start
  return ⟨← token .number start, (Parser.IntegerText.mk negative text []).value⟩

/-- The bound of a slice, if one stands at the position. -/
def bound? : Scan (Option Bound) := do
  match ← peek with
  | some c => if c = '-' || Text.isDigit c then some <$> integer else return none
  | none => return none

/-- Passes over the digits of a number and reports what is wrong with them. -/
def wholePart (start : Nat) : Scan Unit := do
  let digitsStart ← position
  let digits ← bumpWhile Text.isDigit
  if digits = 0 then
    let what ← found
    error (.expected .number what) (← range start (← position))
  else if 1 < digits then
    let text ← slice digitsStart (← length)
    if text.head? = some '0' then error (.leadingZeros .number) (← range start (← position))
    else return ()
  else return ()

/-- Passes over a point and the digits after it, if there is one. -/
def fractionPart (start : Nat) : Scan Unit := do
  if ← isAt ['.'] then
    let _ ← bump
    let digits ← bumpWhile Text.isDigit
    if digits = 0 then error .missingFraction (← range start (← position)) else return ()
  else return ()

/-- Passes over the sign of an exponent, if there is one. -/
def exponentSign : Scan Unit := do
  match ← peek with
  | some c =>
    if c = '+' || c = '-' then
      let _ ← bump
      return ()
    else return ()
  | none => return ()

/-- Passes over an exponent mark and what may follow it, if there is one. -/
def exponentPart (start : Nat) : Scan Unit := do
  match ← peek with
  | some c =>
    if c = 'e' || c = 'E' then
      let _ ← bump
      exponentSign
      let digits ← bumpWhile Text.isDigit
      if digits = 0 then error .missingExponent (← range start (← position)) else return ()
    else return ()
  | none => return ()

/-- A number literal, which begins with a sign or a digit. -/
def numberLiteral : Scan Expr := do
  let id ← freshId
  let start ← position
  let _ ← minus
  wholePart start
  fractionPart start
  exponentPart start
  let token ← token .number start
  return .literal id token (Parser.numberValue token.text)

/-! ### Names and strings -/

/-- Passes over the body of a string literal and the closing quote, if there is one. -/
def stringBody (quote : Char) : (rounds : Nat) → Scan Bool
  | 0 => endless
  | rounds + 1 => do
    let entered ← position
    match ← peek with
    | none => return false
    | some c =>
      if c = '\\' then
        let _ ← bump
        let _ ← bump
        advanced entered
        stringBody quote rounds
      else if c = quote then
        let _ ← bump
        return true
      else
        let _ ← bump
        advanced entered
        stringBody quote rounds

/-- Reports the faults in the body of a literal that begins at the position `start`. -/
def reportEscapes (start : Nat) : List (Located EscapeFault) → Scan Unit
  | [] => return ()
  | fault :: rest => do
    error (.escape fault.what) (← range (start + fault.range.start) (start + fault.range.stop))
    reportEscapes start rest

/-- A string literal, which begins with a quote, and the text it stands for. -/
def stringLiteral : Scan (Token × String) := do
  let start ← position
  let quote := (← bump).getD '\''
  let closed ← stringBody quote (← budget)
  let stop ← position
  unless closed do error .unclosedString (← range start stop)
  let body ← slice (start + 1) (if closed then stop - 1 else stop)
  let (value, faults) := StringLiteral.unescape quote body
  reportEscapes (start + 1) faults
  return (← token .string start, String.ofList value)

/-- The selector after a dot or two dots: an asterisk or a name. -/
def shorthandSelector (after : TokenKind) : Scan Selector := do
  let id ← freshId
  match ← peek with
  | some c =>
    if c = '*' then return .wildcard id (← eat .wildcard 1)
    else if Parser.isNameFirst c then
      let start ← position
      let _ ← bumpWhile Parser.isNameChar
      let token ← token .name start
      return .name id token token.text
    else
      reportFound (.shorthand after)
      return .missing id (← missing .name)
  | none =>
    reportFound (.shorthand after)
    return .missing id (← missing .name)

/-! ### Selectors and segments -/

/-- What follows the second colon of a slice, after blanks, if there is one. -/
def stepPart? : Scan (Option StepPart) := do
  let saved ← position
  let _ ← skipBlanks
  if ← isAt [':'] then
    let colon ← eat .colon 1
    let _ ← skipBlanks
    return some ⟨colon, ← bound?⟩
  else
    reset saved
    return none

/-- An index or a slice, which begins with a sign, a digit or a colon. -/
def indexOrSlice : Scan Selector := do
  let id ← freshId
  let start ← bound?
  let saved ← position
  let _ ← skipBlanks
  if ← isAt [':'] then
    let colon ← eat .colon 1
    let _ ← skipBlanks
    let stop ← bound?
    return .slice id start colon stop (← stepPart?)
  else
    reset saved
    match start with
    | some ⟨token, value⟩ => return .index id token value
    | none => return .missing id (← missing .number)

/-- A placeholder for a selector. -/
def missingSelector : Scan Selector := do
  let id ← freshId
  reportFound .selector
  return .missing id (← missing .name)

/-- Goes on only if something has been read since the position `entered`. -/
def after {α : Type} (entered : Nat) (s : Scan α) : Scan α := do
  advanced entered
  s

/-- A selector between brackets; `filter` reads the expression after a question mark. -/
def selector (filter : Scan Expr) : Scan Selector := do
  let entered ← position
  match ← peek with
  | some c =>
    if c = '\'' || c = '"' then
      let id ← freshId
      let (token, name) ← stringLiteral
      return .name id token name
    else if c = '*' then
      let id ← freshId
      return .wildcard id (← eat .wildcard 1)
    else if c = '?' then
      let id ← freshId
      let question ← eat .question 1
      return .filter id question (← after entered filter)
    else if c = '-' || c = ':' || Text.isDigit c then indexOrSlice
    else if c = ',' || c = ']' then missingSelector
    else
      let id ← freshId
      skipGarbage .selector [',', ']']
      return .missing id (← missing .name)
  | none => missingSelector

/-- How a list of selectors or of arguments ends. -/
structure Closing where
  char : Char
  kind : TokenKind
  wanted : Wanted
  /-- Where garbage after an item ends. -/
  stops : List Char
  unclosed : SyntaxFault

def Closing.bracket : Closing := ⟨']', .rightBracket, .selectorEnd, [',', ']'], .unclosedBrackets⟩

def Closing.paren : Closing :=
  ⟨')', .rightParen, .argumentEnd, [',', ')', ']'], .unclosedParentheses⟩

/-- A comma, the end of the list or the place where it is missing; `beyond` reads on from
garbage. -/
def separatorAt (closing : Closing) (opening : Token) (beyond : Scan (Token ⊕ Token)) :
    Scan (Token ⊕ Token) := do
  match ← peek with
  | some c =>
    if c = ',' then return .inl (← eat .comma 1)
    else if c = closing.char then return .inr (← eat closing.kind 1)
    else if closing.stops.contains c then
      error closing.unclosed opening.range
      return .inr (← missing closing.kind)
    else beyond
  | none =>
    error closing.unclosed opening.range
    return .inr (← missing closing.kind)

/-- What follows an item of a list. Garbage before it is passed over. -/
def separator (closing : Closing) (opening : Token) : (rounds : Nat) → Scan (Token ⊕ Token)
  | 0 => endless
  | rounds + 1 => do
    let entered ← position
    let _ ← skipBlanks
    separatorAt closing opening do
      skipGarbage closing.wanted closing.stops
      advanced entered
      separator closing opening rounds

/-- The selectors after an opening bracket and the closing one. -/
def selectors (filter : Scan Expr) (opening : Token) : (rounds : Nat) → Scan (Selectors × Token)
  | 0 => endless
  | rounds + 1 => do
    let entered ← position
    let _ ← skipBlanks
    let first ← selector filter
    match ← separator .bracket opening (← budget) with
    | .inl comma =>
      advanced entered
      let (rest, closing) ← selectors filter opening rounds
      return (.more first comma rest, closing)
    | .inr closing => return (.last first, closing)

/-- Selectors between brackets, as a segment whose number and dots have been read. -/
def bracketed (filter : Scan Expr) (id : Nat) (dots : Option Token) : Scan Segment := do
  let opening ← eat .leftBracket 1
  let (found, closing) ← selectors filter opening (← budget)
  return .bracketed id dots opening found closing

/-- A segment, if one comes next after blanks. -/
def segment? (filter : Scan Expr) : Scan (Option Segment) := do
  let saved ← position
  let _ ← skipBlanks
  if ← isAt ['.', '.'] then
    let id ← freshId
    let dots ← eat .doubleDot 2
    rejectBlanks (.blanksAfter .doubleDot)
    if ← isAt ['['] then some <$> bracketed filter id (some dots)
    else return some (.shorthand id dots (← shorthandSelector .doubleDot))
  else if ← isAt ['.'] then
    let id ← freshId
    let dot ← eat .dot 1
    rejectBlanks (.blanksAfter .dot)
    return some (.shorthand id dot (← shorthandSelector .dot))
  else if ← isAt ['['] then
    let id ← freshId
    some <$> bracketed filter id none
  else
    reset saved
    return none

/-- The path with all segments that follow. -/
def segments (filter : Scan Expr) : (rounds : Nat) → Path → Scan Path
  | 0, _ => endless
  | rounds + 1, path => do
    let entered ← position
    match ← segment? filter with
    | some segment =>
      advanced entered
      segments filter rounds (.step path segment)
    | none => return path

/-- A path inside an expression, which begins with an identifier of the given kind. -/
def pathExpression (filter : Scan Expr) (kind : TokenKind) : Scan Expr := do
  let id ← freshId
  let pathId ← freshId
  let identifier ← eat kind 1
  return .path id (← segments filter (← budget) (.root pathId identifier))

/-! ### Expressions -/

/-- A placeholder for an expression. -/
def missingExpression : Scan Expr := do
  let id ← freshId
  reportFound .expression
  return .missing id (← missing .name)

/-- The operands after an operator, each further one after another such operator. -/
def operands (kind : TokenKind) (mark : List Char) (operand : Scan Expr) :
    (rounds : Nat) → Scan Operands
  | 0 => endless
  | rounds + 1 => do
    let entered ← position
    let first ← operand
    let _ ← skipBlanks
    if ← isAt mark then
      let operator ← eat kind mark.length
      advanced entered
      return .more first operator (← operands kind mark operand rounds)
    else return .last first

/-- The closing parenthesis, or a placeholder where it is missing. -/
def closeParen (opening : Token) : Scan Token := do
  if ← isAt [')'] then eat .rightParen 1
  else
    error .unclosedParentheses opening.range
    missing .rightParen

/-- The arguments after an opening parenthesis and the closing one. -/
def arguments (argument : Scan Expr) (opening : Token) : (rounds : Nat) → Scan (Operands × Token)
  | 0 => endless
  | rounds + 1 => do
    let entered ← position
    let first ← argument
    match ← separator .paren opening (← budget) with
    | .inl comma =>
      advanced entered
      let (rest, closing) ← arguments argument opening rounds
      return (.more first comma rest, closing)
    | .inr closing => return (.last first, closing)

/-- A call of the function whose name has been read. -/
def call (argument : Scan Expr) (id : Nat) (name : Token) : Scan Expr := do
  let opening ← eat .leftParen 1
  let _ ← skipBlanks
  if ← isAt [')'] then return .call id name opening .none (← eat .rightParen 1)
  else
    let (found, closing) ← arguments argument opening (← budget)
    return .call id name opening (.some found) closing

/-- A word that stands for a value, which has been passed over. Another word is reported and left
to be skipped. -/
def word (id start stop : Nat) : Scan Expr := do
  let text ← slice start stop
  if text = ['t', 'r', 'u', 'e'] then return .literal id (← token .true start) (.bool true)
  else if text = ['f', 'a', 'l', 's', 'e'] then
    return .literal id (← token .false start) (.bool false)
  else if text = ['n', 'u', 'l', 'l'] then return .literal id (← token .null start) .null
  else
    error (.expected .expression (.text text)) (← range start stop)
    return .missing id (← missing .name)

/-- A call or a word that stands for a value, which begins with a lowercase letter. -/
def callOrWord (argument : Scan Expr) : Scan Expr := do
  let id ← freshId
  let start ← position
  let _ ← bumpWhile Parser.isFunctionChar
  let stop ← position
  let _ ← skipBlanks
  let isCall ← isAt ['(']
  reset stop
  if isCall then
    let name ← token .function start
    rejectBlanks .blanksBeforeArguments
    call argument id name
  else word id start stop

/-- Readers of expressions of each rank. -/
structure Expressions where
  disjunction : Scan Expr
  negation : Scan Expr
  primary : Scan Expr

/-- An expression that no operator takes apart. -/
def primary (inner : Expressions) : Scan Expr := do
  let entered ← position
  let _ ← skipBlanks
  match ← peek with
  | some c =>
    if c = '(' then
      let id ← freshId
      let opening ← eat .leftParen 1
      let e ← after entered inner.disjunction
      let _ ← skipBlanks
      return .parens id opening e (← closeParen opening)
    else if c = '!' then
      if ← isAt ['!', '='] then missingExpression
      else
        let id ← freshId
        let bang ← eat .not 1
        return .not id bang (← after entered inner.primary)
    else if c = '$' then pathExpression (after entered inner.disjunction) .root
    else if c = '@' then pathExpression (after entered inner.disjunction) .current
    else if c = '\'' || c = '"' then
      let id ← freshId
      let (token, value) ← stringLiteral
      return .literal id token (.string value)
    else if c = '-' || Text.isDigit c then numberLiteral
    else if Text.isLowerLetter c then callOrWord (after entered inner.disjunction)
    else missingExpression
  | none => missingExpression

/-- The comparison that comes next and the length of its operator. A single `=` is taken
for `==`. -/
def comparison? : Scan (Option (Comparison × Nat)) := do
  if ← isAt ['=', '='] then return some (.equal, 2)
  else if ← isAt ['!', '='] then return some (.notEqual, 2)
  else if ← isAt ['<', '='] then return some (.lessOrEqual, 2)
  else if ← isAt ['>', '='] then return some (.greaterOrEqual, 2)
  else if ← isAt ['<'] then return some (.less, 1)
  else if ← isAt ['>'] then return some (.greater, 1)
  else if ← isAt ['='] then return some (.equal, 1)
  else return none

/-- Reports an operand that has no single value to compare. -/
def checkComparable (e : Expr) : Scan Unit :=
  match e with
  | .parens .. => error .parenthesesCompared e.range
  | .not .. => error .negationCompared e.range
  | .path _ p => if p.isSingular then return () else error .manyNodesCompared e.range
  | _ => return ()

/-- Reports an operator that is a single `=`. -/
def checkOperator (operator : Token) : Scan Unit :=
  if operator.text = "=" then error (.expected .doubleEqual (.text ['='])) operator.range
  else return ()

/-- A primary expression or a comparison of two. -/
def comparison (inner : Expressions) : Scan Expr := do
  let left ← primary inner
  let _ ← skipBlanks
  match ← comparison? with
  | none => return left
  | some (op, length) =>
    let id ← freshId
    let operator ← eat op.tokenKind length
    checkOperator operator
    let right ← primary inner
    checkComparable left
    checkComparable right
    return .comparison id left operator op right

/-- A comparison with any number of exclamation marks before it. -/
def negation (inner : Expressions) : Scan Expr := do
  let entered ← position
  let _ ← skipBlanks
  if (← isAt ['!']) && !(← isAt ['!', '=']) then
    let id ← freshId
    let bang ← eat .not 1
    return .not id bang (← after entered inner.negation)
  else comparison inner

/-- An operand, or several with operators of one kind between them, of which `make` makes one
expression. -/
def joined (kind : TokenKind) (mark : List Char)
    (make : Nat → Expr → Token → Operands → Expr) (operand : Scan Expr) : Scan Expr := do
  let first ← operand
  let _ ← skipBlanks
  if ← isAt mark then
    let id ← freshId
    let operator ← eat kind mark.length
    return make id first operator (← operands kind mark operand (← budget))
  else return first

def conjunction (inner : Expressions) : Scan Expr :=
  joined .and ['&', '&'] .and (negation inner)

def disjunction (inner : Expressions) : Scan Expr :=
  joined .or ['|', '|'] .or (conjunction inner)

/-- Expressions nested at most `depth` deep. -/
def expressions : (depth : Nat) → Expressions
  | 0 => ⟨endless, endless, endless⟩
  | depth + 1 =>
    let inner := expressions depth
    ⟨disjunction inner, negation inner, primary inner⟩

/-! ### The query -/

/-- The identifier at the start of a query. -/
def identifier : Scan Token := do
  match ← peek with
  | some c =>
    if c = '$' then eat .root 1
    else if c = '@' then
      let token ← eat .current 1
      error .relativeStart token.range
      return token
    else
      reportFound .root
      missing .root
  | none =>
    reportFound .root
    missing .root

/-- What follows a path that has ended: nothing, or something to pass over and further
segments. -/
def remainder (filter : Scan Expr) : (rounds : Nat) → Path → Scan Path
  | 0, _ => endless
  | rounds + 1, path => do
    let entered ← position
    let trailing ← skipBlanks
    if (← length) ≤ (← position) then
      if !trailing.isEmpty then
        error .trailingBlanks trailing
        return path
      else return path
    else
      skipGarbage .endOfQuery ['.', '[']
      let path ← segments filter (← budget) path
      advanced entered
      remainder filter rounds path

/-- The number and the path of a query, and the token at its end. -/
def query (filter : Scan Expr) : Scan (Nat × Path × Token) := do
  let id ← freshId
  let pathId ← freshId
  rejectBlanks .leadingBlanks
  let identifier ← identifier
  let path ← segments filter (← budget) (.root pathId identifier)
  let path ← remainder filter (← budget) path
  let ending ← token .endOfQuery (← position)
  return (id, path, ending)

end Scan

/-- The query that a text holds, if no mishap happens while it is read. -/
def Query.scan (source : String) : Except Mishap Query := do
  let chars := source.toList
  let filter := (Scan.expressions (chars.length + 1)).disjunction
  let ((id, path, ending), place) ← (Scan.query filter).run chars |>.run ⟨0, 0, 0, []⟩
  return {
    id := id
    path := path
    ending := ending
    faults := place.faults.reverse
    elementCount := place.nextId
    length := Text.byteLength chars
  }

end JsonPath
