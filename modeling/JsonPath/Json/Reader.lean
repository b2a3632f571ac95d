import JsonPath.Double.Decimal
import JsonPath.Json
import JsonPath.Text

/-!
Reading a document from text. A fault is reported with the line and the column at which it
was met, both counted from one byte to the next: a column is the number of bytes since the
last line feed. Values nest at most 127 deep.
-/

namespace JsonPath.Json

/-- Why a text is no document. -/
inductive ReadFault where
  | endInList
  | endInObject
  | endInString
  | endInValue
  | missingColon
  | listCommaOrEnd
  | objectCommaOrEnd
  | misspelledWord
  | missingValue
  | badEscape
  | badNumber
  | numberOutOfRange
  | controlCharacter
  | keyNotString
  | loneSurrogate
  | endOfHexEscape
  | trailingComma
  | trailingCharacters
  | tooDeep
deriving DecidableEq

def ReadFault.message : ReadFault → String
  | .endInList => "EOF while parsing a list"
  | .endInObject => "EOF while parsing an object"
  | .endInString => "EOF while parsing a string"
  | .endInValue => "EOF while parsing a value"
  | .missingColon => "expected `:`"
  | .listCommaOrEnd => "expected `,` or `]`"
  | .objectCommaOrEnd => "expected `,` or `\x7d`"
  | .misspelledWord => "expected ident"
  | .missingValue => "expected value"
  | .badEscape => "invalid escape"
  | .badNumber => "invalid number"
  | .numberOutOfRange => "number out of range"
  | .controlCharacter => "control character (\\u0000-\\u001F) found while parsing a string"
  | .keyNotString => "key must be a string"
  | .loneSurrogate => "lone leading surrogate in hex escape"
  | .endOfHexEscape => "unexpected end of hex escape"
  | .trailingComma => "trailing comma"
  | .trailingCharacters => "trailing characters"
  | .tooDeep => "recursion limit exceeded"

/-- A fault and where it was met. -/
structure ReadError where
  fault : ReadFault
  line : Nat
  column : Nat
deriving DecidableEq

def ReadError.message (e : ReadError) : String :=
  e.fault.message ++ " at line " ++ toString e.line ++ " column " ++ toString e.column

/-- What is left to read, and where it begins. -/
structure Source where
  rest : List Char
  line : Nat
  column : Nat

namespace Source

def ofChars (chars : List Char) : Source := ⟨chars, 1, 0⟩

/-- The source after `count` more bytes, which may end inside a character. -/
def skipBytes : Nat → Source → Source
  | _, ⟨[], line, column⟩ => ⟨[], line, column⟩
  | count, ⟨c :: rest, line, column⟩ =>
    if count = 0 then ⟨c :: rest, line, column⟩
    else if c = '\n' then skipBytes (count - 1) ⟨rest, line + 1, 0⟩
    else if c.utf8Size ≤ count then
      skipBytes (count - c.utf8Size) ⟨rest, line, column + c.utf8Size⟩
    else ⟨rest, line, column + count⟩
termination_by _ s => s.rest.length

/-- The source after its first character. -/
def advance : Source → Source
  | ⟨[], line, column⟩ => ⟨[], line, column⟩
  | ⟨c :: rest, line, column⟩ =>
    if c = '\n' then ⟨rest, line + 1, 0⟩ else ⟨rest, line, column + c.utf8Size⟩

end Source

/-- A reader takes a value from the front of a source or fails. -/
abbrev Reader := StateT Source (Except ReadError)

namespace Reader

variable {α : Type}

/-- Fail at the place reached. -/
def fail (fault : ReadFault) : Reader α := do
  let s ← get
  throw ⟨fault, s.line, s.column⟩

/-- Fail one byte after the place reached, or at the end of the text. -/
def failNext (fault : ReadFault) : Reader α := do
  let s := (← get).skipBytes 1
  throw ⟨fault, s.line, s.column⟩

def peek : Reader (Option Char) := return (← get).rest.head?

def skip : Reader Unit := modify Source.advance

def skipBlanks : Reader Unit :=
  modify fun s =>
    (s.rest.takeWhile fun c => c = ' ' || c = '\n' || c = '\t' || c = '\r').foldl
      (fun s _ => s.advance) s

/-- The next character after blanks. -/
def peekToken : Reader (Option Char) := do
  skipBlanks
  peek

/-- The decimal digits that come next. -/
def digits : Reader (List Char) := do
  let found := (← get).rest.takeWhile Text.isDigit
  modify fun s => found.foldl (fun s _ => s.advance) s
  return found

/-- The letters of a word after its first one. -/
def word : List Char → Reader Unit
  | [] => return
  | expected :: rest => do
    match ← peek with
    | none => fail .endInValue
    | some c =>
      if c = expected then
        skip
        word rest
      else failNext .misspelledWord

/-- Four hexadecimal digits, counted in bytes. -/
def hexQuad : Reader Nat := do
  let s ← get
  let after := s.skipBytes 4
  if Text.byteLength (s.rest.take 4) < 4 then
    set (s.skipBytes 3)
    fail .endInString
  else
    set after
    match Text.hexQuad? s.rest with
    | some n => return n
    | none => fail .badEscape

/-- A character of the escape of a surrogate pair. -/
def pairMark (mark : Char) : Reader Unit := do
  match ← peek with
  | none => fail .endInString
  | some c => if c = mark then skip else failNext .endOfHexEscape

/-- The character of a `\u` escape, whose `u` has been read. -/
def unicodeEscape : Reader Char := do
  let n ← hexQuad
  if Text.isLowSurrogate n then fail .loneSurrogate
  else if Text.isHighSurrogate n then do
    pairMark '\\'
    pairMark 'u'
    let low ← hexQuad
    if Text.isLowSurrogate low then return Text.surrogatePair n low
    else fail .loneSurrogate
  else return Char.ofNat n

/-- The character of an escape, whose backslash has been read. -/
def escape : Reader Char := do
  match ← peek with
  | none => fail .endInString
  | some c =>
    let simple (c : Char) : Reader Char := do
      skip
      return c
    match c with
    | '"' => simple '"'
    | '\\' => simple '\\'
    | '/' => simple '/'
    | 'b' => simple '\x08'
    | 'f' => simple '\x0c'
    | 'n' => simple '\n'
    | 'r' => simple '\r'
    | 't' => simple '\t'
    | 'u' => do
      skip
      unicodeEscape
    | _ => failNext .badEscape

/-- The characters up to a closing quote. Every round reads a character, so as many rounds
as there are characters left are enough. -/
def stringBody : Nat → List Char → Reader String
  | 0, _ => fail .endInString
  | rounds + 1, read => do
    match ← peek with
    | none => fail .endInString
    | some c =>
      if c = '"' then
        skip
        return String.ofList read.reverse
      else if c = '\\' then
        skip
        let c ← escape
        stringBody rounds (c :: read)
      else if c.toNat < 0x20 then
        skip
        fail .controlCharacter
      else
        skip
        stringBody rounds (c :: read)

/-- A string, whose opening quote comes next. -/
def string : Reader String := do
  skip
  stringBody ((← get).rest.length + 1) []

/-- The significand with as many of some digits added to it as it can take without exceeding
64 bits, and their count. -/
def significant (significand : Nat) : List Char → Nat × Nat
  | [] => (significand, 0)
  | c :: rest =>
    let next := significand * 10 + (c.toNat - 48)
    if next < 2 ^ 64 then
      let (result, count) := significant next rest
      (result, count + 1)
    else (significand, 0)

/-- The digits of an exponent, none once it exceeds 31 bits. Such an exponent makes a number
other than zero too large or zero. -/
def exponentDigits (large : Reader Unit) : Nat → Nat → Reader (Option Nat)
  | 0, value => return some value
  | rounds + 1, value => do
    match ← peek with
    | some c =>
      if Text.isDigit c then do
        skip
        let value := value * 10 + (c.toNat - 48)
        if value < 2 ^ 31 then exponentDigits large rounds value
        else do
          large
          let _ ← digits
          return none
      else return some value
    | none => return some value

/-- A double that has to be in range. -/
def inRange : Option Double → Reader Number
  | some d => return .double d
  | none => fail .numberOutOfRange

/-- A double from its parts. -/
def double (negative : Bool) (significand : Nat) (exponent : Int) : Reader Number :=
  inRange (Double.ofDecimal? negative significand exponent)

/-- A number scaled up or down by an exponent, whose digits come next. -/
def scaled (negative : Bool) (significand : Nat) (scale : Int) (down : Bool) : Reader Number := do
  match ← peek with
  | none => fail .endInValue
  | some c =>
    if !Text.isDigit c then failNext .badNumber
    else
      let large : Reader Unit :=
        if significand ≠ 0 && !down then fail .numberOutOfRange else return
      match ← exponentDigits large ((← get).rest.length) 0 with
      | none => return .double (Double.zero negative)
      | some n =>
        let n : Int := n
        double negative significand (if down then scale - n else scale + n)

/-- The exponent of a number, whose mark comes next. -/
def exponent (negative : Bool) (significand : Nat) (scale : Int) : Reader Number := do
  skip
  let sign ← peek
  if sign = some '+' || sign = some '-' then skip
  scaled negative significand scale (decide (sign = some '-'))

/-- The fraction of a number, whose point comes next. -/
def fraction (negative : Bool) (whole : Nat) (scale : Int) : Reader Number := do
  skip
  let part ← digits
  if part.isEmpty then
    match ← peek with
    | some _ => failNext .badNumber
    | none => fail .endInValue
  else
    let (significand, count) := significant whole part
    let scale := scale - count
    match ← peek with
    | some 'e' => exponent negative significand scale
    | some 'E' => exponent negative significand scale
    | _ => double negative significand scale

/-- A whole number is kept as such when it fits 64 bits and is not a negative zero. -/
def whole (negative : Bool) (significand : Nat) (scale : Int) : Reader Number :=
  if negative && significand = 0 then return .double (Double.zero true)
  else if scale ≠ 0 then double negative significand scale
  else return .ofInt (if negative then -significand else significand)

/-- What follows the digits of the whole part. Those that are not significant count by their
number. -/
def afterDigits (negative : Bool) (lead : List Char) : Reader Number := do
  let (significand, count) := significant 0 lead
  let scale : Int := lead.length - count
  match ← peek with
  | some '.' => fraction negative significand scale
  | some 'e' => exponent negative significand scale
  | some 'E' => exponent negative significand scale
  | some d =>
    if lead.head? = some '0' && Text.isDigit d then failNext .badNumber
    else whole negative significand scale
  | none => whole negative significand scale

/-- A number, whose sign has been read. -/
def number (negative : Bool) : Reader Number := do
  match ← peek with
  | none => fail .endInValue
  | some c =>
    if !Text.isDigit c then failNext .badNumber
    else if c = '0' then
      skip
      afterDigits negative ['0']
    else afterDigits negative (← digits)

/-- The items of a list after its bracket or after an item. Every round reads a character. -/
def items (item : Reader Json) : Nat → List Json → Reader Json
  | 0, _ => fail .endInList
  | rounds + 1, read => do
    match ← peekToken with
    | none => fail .endInList
    | some c =>
      if c = ']' then
        skip
        return .array read.reverse
      else if read.isEmpty then
        items item rounds ((← item) :: read)
      else if c = ',' then
        skip
        match ← peekToken with
        | none => fail .endInValue
        | some ']' => failNext .trailingComma
        | some _ => items item rounds ((← item) :: read)
      else failNext .listCommaOrEnd

/-- A member of an object: a name, a colon and a value. -/
def member (item : Reader Json) : Reader (String × Json) := do
  let name ← string
  match ← peekToken with
  | none => fail .endInObject
  | some ':' =>
    skip
    return (name, ← item)
  | some _ => failNext .missingColon

/-- The members of an object after its brace or after a member. -/
def members (item : Reader Json) : Nat → Bool → Fields Json → Reader Json
  | 0, _, _ => fail .endInObject
  | rounds + 1, first, read => do
    match ← peekToken with
    | none => fail .endInObject
    | some c =>
      if c = '\x7d' then
        skip
        return .object read
      else if first then
        if c = '"' then
          let (name, value) ← member item
          members item rounds false (read.insert name value)
        else failNext .keyNotString
      else if c = ',' then
        skip
        match ← peekToken with
        | none => fail .endInValue
        | some '"' =>
          let (name, value) ← member item
          members item rounds false (read.insert name value)
        | some '\x7d' => failNext .trailingComma
        | some _ => failNext .keyNotString
      else failNext .objectCommaOrEnd

/-- A value whose items and members are read by `nested`, or that may hold none. -/
def valueWith (nested : Option (Reader Json)) : Reader Json := do
  match ← peekToken with
  | none => fail .endInValue
  | some 'n' =>
    skip
    word ['u', 'l', 'l']
    return .null
  | some 't' =>
    skip
    word ['r', 'u', 'e']
    return .bool true
  | some 'f' =>
    skip
    word ['a', 'l', 's', 'e']
    return .bool false
  | some '"' => return .string (← string)
  | some '-' =>
    skip
    return .number (← number true)
  | some '[' =>
    match nested with
    | none => failNext .tooDeep
    | some item =>
      skip
      items item ((← get).rest.length + 1) []
  | some '\x7b' =>
    match nested with
    | none => failNext .tooDeep
    | some item =>
      skip
      members item ((← get).rest.length + 1) true []
  | some c => if Text.isDigit c then return .number (← number false) else failNext .missingValue

/-- A value with at most `depth` brackets open at once. -/
def value : Nat → Reader Json
  | 0 => valueWith none
  | depth + 1 => valueWith (some (value depth))

/-- A value and nothing but blanks after it. -/
def document : Reader Json := do
  let v ← value 127
  match ← peekToken with
  | none => return v
  | some _ => failNext .trailingCharacters

end Reader

/-- The document that a text holds. -/
def read (text : String) : Except ReadError Json :=
  (·.1) <$> Reader.document.run (Source.ofChars text.toList)

end JsonPath.Json
