import JsonPath.Text

/-!
Tokens, the leaves of a query's tree. A token keeps the text that was passed over before
it, so that the tokens of a query spell out the whole of it. Positions are counted in
UTF-8 bytes.
-/

namespace JsonPath

/-- The positions from `start` up to but not including `stop`. -/
structure Range where
  start : Nat
  stop : Nat
deriving DecidableEq

namespace Range

def length (r : Range) : Nat := r.stop - r.start

def isEmpty (r : Range) : Bool := r.start == r.stop

/-- The smallest range that holds both. -/
def cover (a b : Range) : Range := ⟨min a.start b.start, max a.stop b.stop⟩

/-- The position is inside the range or at one of its ends. -/
def touches (r : Range) (position : Nat) : Bool := r.start ≤ position && position ≤ r.stop

/-- The position is inside the range and at neither end. -/
def surrounds (r : Range) (position : Nat) : Bool := r.start < position && position < r.stop

def text (r : Range) : String := toString r.start ++ ".." ++ toString r.stop

end Range

/-- Something found at a range of a query. -/
structure Located (α : Type) where
  what : α
  range : Range

inductive TokenKind where
  | endOfQuery
  | root
  | current
  | dot
  | doubleDot
  | leftBracket
  | rightBracket
  | comma
  | colon
  | wildcard
  | question
  | name
  | string
  | number
  | true
  | false
  | null
  | function
  | leftParen
  | rightParen
  | not
  | and
  | or
  | equal
  | notEqual
  | less
  | lessOrEqual
  | greater
  | greaterOrEqual
deriving DecidableEq

namespace TokenKind

/-- How a token of the kind is called in messages. -/
def text : TokenKind → String
  | endOfQuery => "'end of query'"
  | root => "'$'"
  | current => "'@'"
  | dot => "'.'"
  | doubleDot => "'..'"
  | leftBracket => "'['"
  | rightBracket => "']'"
  | comma => "','"
  | colon => "':'"
  | wildcard => "'*'"
  | question => "'?'"
  | name => "a name"
  | string => "a string"
  | number => "a number"
  | true => "'true'"
  | false => "'false'"
  | null => "'null'"
  | function => "a function name"
  | leftParen => "'('"
  | rightParen => "')'"
  | not => "'!'"
  | and => "'&&'"
  | or => "'||'"
  | equal => "'=='"
  | notEqual => "'!='"
  | less => "'<'"
  | lessOrEqual => "'<='"
  | greater => "'>'"
  | greaterOrEqual => "'>='"

end TokenKind

/-- A comparison of two values. -/
inductive Comparison where
  | equal
  | notEqual
  | less
  | lessOrEqual
  | greater
  | greaterOrEqual
deriving DecidableEq

namespace Comparison

def text : Comparison → String
  | equal => "=="
  | notEqual => "!="
  | less => "<"
  | lessOrEqual => "<="
  | greater => ">"
  | greaterOrEqual => ">="

/-- The comparison with its operands exchanged. -/
def mirror : Comparison → Comparison
  | less => greater
  | greater => less
  | lessOrEqual => greaterOrEqual
  | greaterOrEqual => lessOrEqual
  | op => op

def tokenKind : Comparison → TokenKind
  | equal => .equal
  | notEqual => .notEqual
  | less => .less
  | lessOrEqual => .lessOrEqual
  | greater => .greater
  | greaterOrEqual => .greaterOrEqual

end Comparison

/-- The comparison that a token of the kind stands for. -/
def TokenKind.comparison? : TokenKind → Option Comparison
  | .equal => some .equal
  | .notEqual => some .notEqual
  | .less => some .less
  | .lessOrEqual => some .lessOrEqual
  | .greater => some .greater
  | .greaterOrEqual => some .greaterOrEqual
  | _ => none

/-- A leaf of the tree. `skipped` is what was passed over between the token before and this
one. A missing token stands where one was expected and has no text. -/
structure Token where
  id : Nat
  kind : TokenKind
  text : String
  skipped : String
  range : Range
  missing : Bool

end JsonPath
