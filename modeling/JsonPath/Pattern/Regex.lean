import JsonPath.Unicode.Category

/-!
Regular expressions and matching. An expression is followed through a text as a set of
expressions, each of which has to match what is left; only the two anchors ask for the
place in the text.
-/

namespace JsonPath.Pattern

/-- A set of characters. -/
inductive CharSet where
  | empty
  | range (low high : Char)
  | categories (ks : List Unicode.Category)
  | complement (a : CharSet)
  | union (a b : CharSet)
  | intersection (a b : CharSet)
  | difference (a b : CharSet)
  | symmetricDifference (a b : CharSet)
deriving DecidableEq

namespace CharSet

def contains : CharSet → Char → Bool
  | empty, _ => false
  | range low high, c => low ≤ c && c ≤ high
  | categories ks, c => ks.any fun k => k.contains c
  | complement a, c => !a.contains c
  | union a b, c => a.contains c || b.contains c
  | intersection a b, c => a.contains c && b.contains c
  | difference a b, c => a.contains c && !b.contains c
  | symmetricDifference a b, c => a.contains c != b.contains c

end CharSet

inductive Regex where
  | empty
  | start
  | finish
  | char (set : CharSet)
  | concat (a b : Regex)
  | alternate (a b : Regex)
  | star (a : Regex)
deriving DecidableEq

namespace Regex

/-- The expression matches no characters at a place of a text. -/
def nullable (atStart atEnd : Bool) : Regex → Bool
  | empty => true
  | start => atStart
  | finish => atEnd
  | char _ => false
  | concat a b => a.nullable atStart atEnd && b.nullable atStart atEnd
  | alternate a b => a.nullable atStart atEnd || b.nullable atStart atEnd
  | star _ => true

/-- One expression after another; the empty one is left out. -/
def append (a b : Regex) : Regex := if a = empty then b else concat a b

/-- The expressions one of which has to match what comes after a character. -/
def after (atStart : Bool) (c : Char) : Regex → List Regex
  | empty => []
  | start => []
  | finish => []
  | char set => if set.contains c then [empty] else []
  | concat a b =>
    (a.after atStart c).map (·.append b) ++
      if a.nullable atStart false then b.after atStart c else []
  | alternate a b => a.after atStart c ++ b.after atStart c
  | star a => (a.after atStart c).map (·.append (star a))

/-- One of the expressions matches the rest of a text. -/
def matchesRest (states : List Regex) (atStart : Bool) : List Char → Bool
  | [] => states.any fun r => r.nullable atStart true
  | c :: rest =>
    let next := (states.flatMap fun r => r.after atStart c).eraseDups
    !next.isEmpty && matchesRest next false rest

/-- The expression matches the whole text. -/
def isFullMatch (r : Regex) (text : List Char) : Bool := matchesRest [r] true text

/-- One of the expressions matches a part of the text from here on, or `r` does from some
later place. -/
def findsFrom (r : Regex) (states : List Regex) (atStart : Bool) : List Char → Bool
  | [] => (r :: states).any fun r => r.nullable atStart true
  | c :: rest =>
    let here := r :: states
    here.any (fun r => r.nullable atStart false) ||
      findsFrom r (here.flatMap fun r => r.after atStart c).eraseDups false rest

/-- The expression matches some part of the text. -/
def finds (r : Regex) (text : List Char) : Bool := findsFrom r [] true text

/-- The expression `n` times. -/
def power (r : Regex) : Nat → Regex
  | 0 => empty
  | n + 1 => append r (power r n)

/-- The expression at most `n` times. -/
def upTo (r : Regex) : Nat → Regex
  | 0 => empty
  | n + 1 => alternate (append r (upTo r n)) empty

end Regex

end JsonPath.Pattern
