import JsonPath.Syntax.Tree

/-!
Finding elements of a query by position, by number and by their place in the tree.
-/

namespace JsonPath.Tree

mutual

/-- The innermost element at a position: always on into the first child that ends after
it. -/
def atPosition (position : Nat) : Tree → Element
  | node e cs => (atPositionAmong position cs).getD e

def atPositionAmong (position : Nat) : List Tree → Option Element
  | [] => none
  | c :: rest =>
    if position < c.range.stop then some (c.atPosition position)
    else atPositionAmong position rest

end

mutual

/-- The innermost element that has the position strictly inside, if the tree's root has. -/
def surrounding? (position : Nat) : Tree → Option Element
  | node e cs =>
    if e.range.surrounds position then some ((surroundingAmong position cs).getD e) else none

def surroundingAmong (position : Nat) : List Tree → Option Element
  | [] => none
  | c :: rest =>
    match c.surrounding? position with
    | some e => some e
    | none => surroundingAmong position rest

end

/-- The tokens that have the position inside or at an end. -/
def touching (position : Nat) (t : Tree) : List Token :=
  (t.visit (fun e => !e.range.touches position) 0).filterMap fun entry =>
    match entry.2.asToken? with
    | some token => if token.range.touches position then some token else none
    | none => none

mutual

/-- The element with a number, after the elements that contain it, outermost first. -/
def lineage? (id : Nat) : Tree → Option (List Element)
  | node e cs =>
    if e.id = id then some [e] else (lineageAmong id cs).map (e :: ·)

def lineageAmong (id : Nat) : List Tree → Option (List Element)
  | [] => none
  | c :: rest =>
    match c.lineage? id with
    | some found => some found
    | none => lineageAmong id rest

end

/-- The element with a number. -/
def find? (t : Tree) (id : Nat) : Option Element := (t.lineage? id).bind (·.getLast?)

/-- The elements that contain the one with a number, innermost first. -/
def ancestors (t : Tree) (id : Nat) : List Element :=
  match t.lineage? id with
  | some found => found.dropLast.reverse
  | none => []

/-- The element that the one with a number is a child of. -/
def parent? (t : Tree) (id : Nat) : Option Element := (t.ancestors id).head?

/-- The segment of a selector, given the selector's number. -/
def segmentOf? (t : Tree) (id : Nat) : Option Segment :=
  match t.parent? id with
  | some (.segment s) => some s
  | _ => none

/-- The innermost filter selector that contains the element with a number. -/
def enclosingFilter? (t : Tree) (id : Nat) : Option Selector :=
  (t.ancestors id).findSome? fun e =>
    match e with
    | .selector (.filter id question test) => some (.filter id question test)
    | _ => none

end JsonPath.Tree
