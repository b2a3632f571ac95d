import JsonPath.Unicode.Category

/-!
The grammar of the patterns that filters may match strings with. Each rule takes what it
can from the front of a text, the first alternative that fits, and gives the rest.
-/

namespace JsonPath.Pattern

/-- A rule takes characters from the front of a text or does not fit. -/
abbrev Rule := List Char → Option (List Char)

/-- A character that a condition holds of. -/
def charRule (p : Char → Bool) : Rule
  | c :: rest => if p c then some rest else none
  | [] => none

/-- The first of two rules that fits. -/
def either (a b : Rule) : Rule := fun s => a s <|> b s

/-- One rule after another. -/
def both (a b : Rule) : Rule := fun s => (a s).bind b

/-- A rule if it fits. -/
def optional (a : Rule) : Rule := fun s => some ((a s).getD s)

/-- A rule as often as it fits, at most `rounds` times. -/
def repeated (a : Rule) : Nat → Rule
  | 0, s => some s
  | rounds + 1, s =>
    match a s with
    | some rest => repeated a rounds rest
    | none => some s

/-- A rule as often as it fits. Every round takes a character. -/
def many (a : Rule) : Rule := fun s => repeated a s.length s

/-- A character that stands for itself, or for a place. -/
def isNormal (c : Char) : Bool :=
  !(['.', '(', ')', '*', '+', '?', '[', '\\', ']', '\x7b', '|', '\x7d'].contains c)

/-- A character that may be escaped. -/
def isEscapable (c : Char) : Bool :=
  ['(', ')', '*', '+', '-', '.', '?', '[', '\\', ']', '^', 'n', 'r', 't', '\x7b', '|',
    '\x7d'].contains c

/-- A character that stands for itself between brackets. -/
def isClassChar (c : Char) : Bool := !(['-', '[', '\\', ']'].contains c)

def mark (c : Char) : Rule := charRule (· == c)

def escape : Rule := both (mark '\\') (charRule isEscapable)

/-- The letters that may follow the first letter of a property. -/
def propertyLetters (c : Char) : List Char :=
  if c = 'L' then ['l', 'm', 'o', 't', 'u']
  else if c = 'M' then ['c', 'e', 'n']
  else if c = 'N' then ['d', 'l', 'o']
  else if c = 'P' then ['c', 'd', 'e', 'f', 'i', 'o', 's']
  else if c = 'Z' then ['l', 'p', 's']
  else if c = 'S' then ['c', 'k', 'm', 'o']
  else if c = 'C' then ['c', 'f', 'n', 'o']
  else []

/-- The letters of a property. -/
def property : Rule
  | c :: rest =>
    let letters := propertyLetters c
    if letters.isEmpty then none else optional (charRule letters.contains) rest
  | [] => none

/-- A property in braces, or the characters without it. -/
def category : Rule :=
  both (mark '\\') <| both (charRule fun c => c = 'p' || c = 'P') <|
    both (mark '\x7b') <| both property (mark '\x7d')

def classChar : Rule := either (charRule isClassChar) escape

/-- A character or a range between brackets, or a property. -/
def classItem : Rule :=
  either (both classChar (optional (both (mark '-') classChar))) category

/-- Characters between brackets. A hyphen stands for itself only at an end. -/
def bracketClass : Rule :=
  both (mark '[') <| both (optional (mark '^')) <| both (either (mark '-') classItem) <|
    both (many classItem) <| both (optional (mark '-')) (mark ']')

def isDigit (c : Char) : Bool := '0' ≤ c && c ≤ '9'

/-- How often an atom may stand. Counts have one digit. -/
def quantifier : Rule :=
  either (charRule fun c => c = '*' || c = '+' || c = '?') <|
    both (mark '\x7b') <| both (charRule isDigit) <|
      both (optional (both (mark ',') (optional (charRule isDigit)))) (mark '\x7d')

/-- What may be repeated; `nested` is the rule for a pattern between parentheses. -/
def atom (nested : Rule) : Rule :=
  either (charRule isNormal) <| either (mark '.') <| either escape <| either category <|
    either bracketClass (both (mark '(') (both nested (mark ')')))

def branch (nested : Rule) : Rule := many (both (atom nested) (optional quantifier))

/-- Branches with bars between them. -/
def alternatives (nested : Rule) : Rule :=
  both (branch nested) (many (both (mark '|') (branch nested)))

/-- Patterns with parentheses at most `depth` deep. -/
def pattern : Nat → Rule
  | 0 => fun _ => none
  | depth + 1 => alternatives (pattern depth)

/-- The whole text is a pattern. -/
def isValid (s : List Char) : Bool := pattern (s.length + 1) s == some []

/-- The pattern with every point outside brackets spelled out: it stands for all characters
but line breaks. What follows a backslash is left alone. -/
def expandPoints : (escaped bracketed : Bool) → List Char → List Char
  | _, _, [] => []
  | true, bracketed, c :: rest => c :: expandPoints false bracketed rest
  | false, bracketed, c :: rest =>
    if c = '.' && !bracketed then
      ['[', '^', '\\', 'n', '\\', 'r', ']'] ++ expandPoints false bracketed rest
    else
      let bracketed := if c = '[' then true else if c = ']' then false else bracketed
      c :: expandPoints (c = '\\') bracketed rest

end JsonPath.Pattern
