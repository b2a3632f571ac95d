import JsonPath.Pattern.Regex
import JsonPath.Text

/-!
Reading a regular expression. Unescaped, `^` and `$` stand for the ends of the text; between
brackets, `&&`, `--` and `~~` combine what is left and right of them, from left to right. A
range or a repetition whose bounds are out of order is no expression.
-/

namespace JsonPath.Pattern

/-- A reader takes something from the front of a text or fails. -/
abbrev Take (α : Type) := List Char → Option (α × List Char)

/-- The character that an escaped one stands for. -/
def escapedChar (c : Char) : Char :=
  if c = 'n' then '\n' else if c = 'r' then '\r' else if c = 't' then '\t' else c

/-- A property in braces, whose backslash and letter have been read. -/
def takeCategories (negated : Bool) : Take CharSet
  | '\x7b' :: rest => do
    let name := rest.takeWhile (· != '\x7d')
    let ks ← Unicode.Category.ofProperty? name
    let set := CharSet.categories ks
    return (if negated then .complement set else set, rest.drop (name.length + 1))
  | _ => none

/-- A single character between brackets. -/
def takeClassChar : Take Char
  | '\\' :: c :: rest => some (escapedChar c, rest)
  | c :: rest => some (c, rest)
  | [] => none

/-- A character, a range or a property between brackets. A hyphen before the closing bracket
or before another one makes no range. -/
def takeClassItem : Take CharSet
  | '\\' :: 'p' :: rest => takeCategories false rest
  | '\\' :: 'P' :: rest => takeCategories true rest
  | s => do
    let (low, rest) ← takeClassChar s
    match rest with
    | '-' :: ']' :: _ => return (.range low low, rest)
    | '-' :: '-' :: _ => return (.range low low, rest)
    | '-' :: more =>
      let (high, rest) ← takeClassChar more
      if low ≤ high then return (.range low high, rest) else none
    | _ => return (.range low low, rest)

/-- The operator between two parts of a class. -/
def classOperator? : List Char → Option ((CharSet → CharSet → CharSet) × List Char)
  | '&' :: '&' :: rest => some (.intersection, rest)
  | '-' :: '-' :: rest => some (.difference, rest)
  | '~' :: '~' :: rest => some (.symmetricDifference, rest)
  | _ => none

/-- What follows in a class up to its closing bracket. `left` combines what stands before
the last operator with the part after it, of which `part` has been read. -/
def takeClassRest (left : CharSet → CharSet) (part : CharSet) : Nat → Take CharSet
  | 0, _ => none
  | rounds + 1, s =>
    match s with
    | ']' :: rest => some (left part, rest)
    | _ =>
      match classOperator? s with
      | some (combine, rest) => takeClassRest (combine (left part)) .empty rounds rest
      | none => do
        let (item, rest) ← takeClassItem s
        takeClassRest left (.union part item) rounds rest

/-- A class, whose opening bracket has been read. Hyphens in front stand for themselves. -/
def takeClass : Take CharSet := fun s =>
  let negated := s.head? = some '^'
  let s := if negated then s.drop 1 else s
  let hyphens := s.takeWhile (· == '-')
  let part := if hyphens.isEmpty then .empty else .range '-' '-'
  let rest := s.drop hyphens.length
  do
    let (set, rest) ← takeClassRest id part (rest.length + 1) rest
    return (if negated then .complement set else set, rest)

/-- The digits of a count. -/
def takeCount : Take Nat := fun s =>
  let digits := s.takeWhile Text.isDigit
  if digits.isEmpty then none else some (Text.decimalValue digits, s.drop digits.length)

/-- The expression with the repetition that follows it, if one does. -/
def takeRepetition (r : Regex) : Take Regex
  | '*' :: rest => some (.star r, rest)
  | '+' :: rest => some (.append r (.star r), rest)
  | '?' :: rest => some (.alternate r .empty, rest)
  | '\x7b' :: rest => do
    let (low, rest) ← takeCount rest
    match rest with
    | '\x7d' :: rest => return (r.power low, rest)
    | ',' :: '\x7d' :: rest => return ((r.power low).append (.star r), rest)
    | ',' :: rest =>
      let (high, rest) ← takeCount rest
      match rest with
      | '\x7d' :: rest =>
        if low ≤ high then return ((r.power low).append (r.upTo (high - low)), rest) else none
      | _ => none
    | _ => none
  | rest => some (r, rest)

/-- What may be repeated; `nested` reads an expression between parentheses. -/
def takeAtom (nested : Take Regex) : Take Regex
  | '(' :: rest => do
    match ← nested rest with
    | (r, ')' :: rest) => return (r, rest)
    | _ => none
  | '[' :: rest => do
    let (set, rest) ← takeClass rest
    return (.char set, rest)
  | '^' :: rest => some (.start, rest)
  | '$' :: rest => some (.finish, rest)
  | '\\' :: 'p' :: rest => (takeCategories false rest).map fun x => (.char x.1, x.2)
  | '\\' :: 'P' :: rest => (takeCategories true rest).map fun x => (.char x.1, x.2)
  | s => (takeClassChar s).map fun x => (.char (.range x.1 x.1), x.2)

/-- Atoms up to a bar, a closing parenthesis or the end. Every round takes a character. -/
def takeBranch (nested : Take Regex) : Nat → Take Regex
  | 0, s => some (.empty, s)
  | rounds + 1, s =>
    match s with
    | [] => some (.empty, s)
    | c :: _ =>
      if c = '|' || c = ')' then some (.empty, s)
      else do
        let (atom, rest) ← takeAtom nested s
        let (first, rest) ← takeRepetition atom rest
        let (others, rest) ← takeBranch nested rounds rest
        return (if others = .empty then first else first.append others, rest)

/-- Branches with bars between them. Every round takes a bar. -/
def takeAlternatives (nested : Take Regex) : Nat → Take Regex
  | 0, _ => none
  | rounds + 1, s => do
    let (first, rest) ← takeBranch nested s.length s
    match rest with
    | '|' :: rest =>
      let (others, rest) ← takeAlternatives nested rounds rest
      return (.alternate first others, rest)
    | _ => return (first, rest)

/-- Expressions with parentheses at most `depth` deep. -/
def takeRegex : Nat → Take Regex
  | 0 => fun _ => none
  | depth + 1 => fun s => takeAlternatives (takeRegex depth) (s.length + 1) s

/-- The expression that a whole text stands for. -/
def Regex.ofChars? (s : List Char) : Option Regex :=
  match takeRegex (s.length + 1) s with
  | some (r, []) => some r
  | _ => none

end JsonPath.Pattern
