import JsonPath.DataType.Subtype

/-!
Union, intersection and difference of types. A union is normal: flat, without the empty
type, and without members that are subtypes of each other. Intersection and difference
distribute over the members of unions.
-/

namespace JsonPath.DataType

/-- The members of types, none of them a union or empty. -/
def flatten : List DataType → List DataType
  | [] => []
  | union ms _ :: rest => ms ++ flatten rest
  | never _ :: rest => flatten rest
  | t :: rest => t :: flatten rest

def isTruth (b : Bool) : DataType → Bool
  | literal (.bool c) _ => b == c
  | _ => false

/-- Both truth values together become the boolean type, at the end. -/
def joinTruths (ts : List DataType) : List DataType :=
  if ts.any (isTruth true) && ts.any (isTruth false) then
    ts.filter (fun t => !isTruth true t && !isTruth false t) ++ [ofPrimitive .boolean]
  else ts

/-- The first type that has `t` as a subtype takes up its annotations, if it is equal to
it; none if there is no such type. -/
def absorb? (t : DataType) : List DataType → Option (List DataType)
  | [] => none
  | s :: rest =>
    if t.isSubtypeOf s then some ((if s.same t then s.mergeNotes t else s) :: rest)
    else (absorb? t rest).map (s :: ·)

/-- Types unrelated to each other, with one more: it is absorbed, or its subtypes go. -/
def addMember (ts : List DataType) (t : DataType) : List DataType :=
  match absorb? t ts with
  | some absorbed => absorbed
  | none => ts.filter (fun s => !s.isSubtypeOf t) ++ [t]

/-- The values of any of the types. -/
def unionOf (ts : List DataType) : DataType :=
  let flat := flatten ts
  match flat.find? isAny with
  | some t => t
  | none =>
    match (joinTruths flat).foldl addMember [] with
    | [] => bottom
    | [t] => t
    | members => union members {}

/-- The names of both, each once, in the order of their first occurrence. -/
def allNames (a b : List String) : List String :=
  (a ++ b).foldl (fun found name => if found.contains name then found else found ++ [name]) []

/-- The common values of an object type, given by the meets of its members' types, and
another type. -/
def objectMeet (self : DataType) (meets : Fields (DataType → DataType))
    (restMeet : DataType → DataType) (required : List String) : DataType → DataType
  | object properties rest required' notes =>
    let names := allNames meets.names (Fields.names properties)
    let meet (name : String) : DataType :=
      (meets.get? name).getD restMeet (property properties rest name)
    ((ofObject (names.map fun name => (name, meet name)) (restMeet rest)
      (NameSet.union required required')).mergeNotes self).mergeNotes
        (object properties rest required' notes)
  | _ => bottom

def arrayMeet (self : DataType) (meets : List (DataType → DataType))
    (restMeet : DataType → DataType) (minimum : Nat) : DataType → DataType
  | array front rest minimum' notes =>
    let meet (i : Nat) : DataType := meets[i]?.getD restMeet (element front rest i)
    ((ofArray ((List.range (max meets.length front.length)).map meet) (restMeet rest)
      (max minimum minimum')).mergeNotes self).mergeNotes (array front rest minimum' notes)
  | _ => bottom

/-- The smaller of two types, if they are related, with the annotations of both. -/
def lesser? (a b : DataType) : Option DataType :=
  if a.isSubtypeOf b then some (a.mergeNotes b)
  else if b.isSubtypeOf a then some (b.mergeNotes a)
  else none

mutual

/-- The common values of `a` and a type: the lesser of them, or the union over the type's
members, or what `meet` gives. -/
def meetMembers (a : DataType) (meet : DataType → DataType) : DataType → DataType
  | union ms notes => (lesser? a (union ms notes)).getD (unionOf (meetEach a meet ms))
  | b => (lesser? a b).getD (meet b)

def meetEach (a : DataType) (meet : DataType → DataType) : List DataType → List DataType
  | [] => []
  | b :: rest => meetMembers a meet b :: meetEach a meet rest

end

mutual

/-- The values of both types. -/
def intersect : DataType → DataType → DataType
  | any n => meetMembers (any n) fun _ => bottom
  | never n => meetMembers (never n) fun _ => bottom
  | literal v n => meetMembers (literal v n) fun _ => bottom
  | primitive k n => meetMembers (primitive k n) fun _ => bottom
  | object properties rest required n =>
    let self := object properties rest required n
    meetMembers self (objectMeet self (propertyMeets properties) rest.intersect required)
  | array front rest minimum n =>
    let self := array front rest minimum n
    meetMembers self (arrayMeet self (frontMeets front) rest.intersect minimum)
  | union ms n => fun b => (lesser? (union ms n) b).getD (unionOf (intersectEach ms b))

def propertyMeets : List (String × DataType) → Fields (DataType → DataType)
  | [] => []
  | (name, t) :: rest => (name, t.intersect) :: propertyMeets rest

def frontMeets : List DataType → List (DataType → DataType)
  | [] => []
  | t :: rest => t.intersect :: frontMeets rest

def intersectEach : List DataType → DataType → List DataType
  | [], _ => []
  | t :: rest, b => t.intersect b :: intersectEach rest b

end

/-- A type that is not taken apart, or nothing of it. -/
def unlessSubtype (t other : DataType) : DataType := if t.isSubtypeOf other then bottom else t

mutual

/-- The values of the first type, without those members of it that belong to the second.
The boolean type has the two truth values as members. -/
def subtract : DataType → DataType → DataType
  | union ms n, other =>
    if (union ms n).isSubtypeOf other then bottom
    else
      let left := unionOf (subtractEach ms other)
      if left.isNever then left else left.mergeNotes (union ms n)
  | primitive .boolean n, other =>
    if (primitive .boolean n).isSubtypeOf other then bottom
    else
      let t := unlessSubtype (ofBool true) other
      let f := unlessSubtype (ofBool false) other
      if t.isNever || f.isNever then (unionOf [t, f]).mergeNotes (primitive .boolean n)
      else primitive .boolean n
  | t, other => unlessSubtype t other

def subtractEach : List DataType → DataType → List DataType
  | [], _ => []
  | t :: rest, other => t.subtract other :: subtractEach rest other

end

end JsonPath.DataType
