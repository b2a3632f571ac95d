import JsonPath.Location

/-!
Pointers into documents: names and indices, each after a slash. In a name `~1` stands for a
slash and `~0` for a tilde.
-/

namespace JsonPath

namespace Pointer

/-- The text with every `~` and `digit` after it replaced by `c`. -/
def replaceEscape (digit c : Char) : List Char → List Char
  | '~' :: d :: rest =>
    if d = digit then c :: replaceEscape digit c rest
    else '~' :: replaceEscape digit c (d :: rest)
  | d :: rest => d :: replaceEscape digit c rest
  | [] => []

/-- The name that a part of a pointer stands for. -/
def unescape (part : List Char) : List Char :=
  replaceEscape '0' '~' (replaceEscape '1' '/' part)

/-- The index that a part stands for: digits without a zero in front. -/
def index? (part : List Char) : Option Nat :=
  if part.isEmpty || !part.all Text.isDigit then none
  else if part.head? = some '0' && part.length ≠ 1 then none
  else some (Text.decimalValue part)

/-- The parts between slashes; always at least one. -/
def parts : List Char → List (List Char)
  | [] => [[]]
  | c :: rest =>
    match parts rest with
    | first :: others => if c = '/' then [] :: first :: others else (c :: first) :: others
    | [] => [[c]]

/-- The step that a part stands for in a value. -/
def step? (part : List Char) : Json → Option Step
  | .array _ => (index? part).map .index
  | .object _ => some (.name (String.ofList part))
  | _ => none

/-- The location and the value that parts lead to. -/
def follow? (v : Json) : List (List Char) → Option (Location × Json)
  | [] => some ([], v)
  | part :: rest => do
    let step ← step? part v
    let child ← v.child? step
    let (location, found) ← follow? child rest
    return (step :: location, found)

end Pointer

/-- The location and the value that a pointer leads to. The empty pointer leads to the value
itself, and any other has to begin with a slash. -/
def Json.pointer? (v : Json) (pointer : List Char) : Option (Location × Json) :=
  match pointer with
  | [] => some ([], v)
  | '/' :: rest => Pointer.follow? v ((Pointer.parts rest).map Pointer.unescape)
  | _ => none

end JsonPath
