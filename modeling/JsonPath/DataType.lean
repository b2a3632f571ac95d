import JsonPath.Json
import JsonPath.NameSet

/-!
Types of JSON values. A type describes a set of values, to which the absence of a value
may belong. Types are built by functions that keep them normal: an object or an array that
requires what cannot exist is the empty type, and an optional element that cannot exist
ends the array.
-/

namespace JsonPath

inductive Primitive where
  | number
  | string
  | boolean
  | null
  | /-- The absence of a value. -/ nothing
deriving DecidableEq

/-- The kind of a value that is neither an array nor an object. -/
def Primitive.of? : Json → Option Primitive
  | .null => some null
  | .bool _ => some boolean
  | .number _ => some number
  | .string _ => some string
  | .array _ => none
  | .object _ => none

/-- What the author of a type has noted about its values. Notes have no effect on which
values a type describes. -/
structure Annotations where
  title : Option String := none
  description : Option String := none
  deprecated : Bool := false
  readOnly : Bool := false
  writeOnly : Bool := false
  default : Option Json := none
  examples : List Json := []

namespace Annotations

def isEmpty (a : Annotations) : Bool :=
  a.title.isNone && a.description.isNone && !a.deprecated && !a.readOnly && !a.writeOnly &&
    a.default.isNone && a.examples.isEmpty

/-- The examples followed by those of a second list that are not equal to one before. -/
def mergeExamples (first second : List Json) : List Json :=
  second.foldl (fun found e => if found.any fun f => f.same e then found else found ++ [e]) first

/-- The notes of both, the first taking precedence. -/
def merge (a b : Annotations) : Annotations where
  title := a.title <|> b.title
  description := a.description <|> b.description
  deprecated := a.deprecated || b.deprecated
  readOnly := a.readOnly || b.readOnly
  writeOnly := a.writeOnly || b.writeOnly
  default := a.default <|> b.default
  examples := mergeExamples a.examples b.examples

end Annotations

/-- A type, with its annotations. The members of an object are described by name, all
others by `rest`; the elements of an array by position, all further ones by `rest`. -/
inductive DataType where
  | any (notes : Annotations)
  | never (notes : Annotations)
  | literal (value : Json) (notes : Annotations)
  | primitive (kind : Primitive) (notes : Annotations)
  | object (properties : List (String × DataType)) (rest : DataType) (required : List String)
      (notes : Annotations)
  | array (front : List DataType) (rest : DataType) (minimum : Nat) (notes : Annotations)
  | union (members : List DataType) (notes : Annotations)

namespace DataType

instance : Inhabited DataType := ⟨.any {}⟩

def notes : DataType → Annotations
  | any n | never n | literal _ n | primitive _ n | object _ _ _ n | array _ _ _ n
  | union _ n => n

/-- The type with its annotations replaced. -/
def withNotes (notes : Annotations) : DataType → DataType
  | any _ => any notes
  | never _ => never notes
  | literal value _ => literal value notes
  | primitive kind _ => primitive kind notes
  | object properties rest required _ => object properties rest required notes
  | array front rest minimum _ => array front rest minimum notes
  | union members _ => union members notes

/-- The type with the annotations of another added to its own. -/
def mergeNotes (t other : DataType) : DataType :=
  if other.notes.isEmpty then t else t.withNotes (t.notes.merge other.notes)

/-- Every value, and the absence of one. -/
def top : DataType := any {}

/-- No value at all. -/
def bottom : DataType := never {}

def ofPrimitive (kind : Primitive) : DataType := primitive kind {}

/-- One of the two truth values. -/
def ofBool (b : Bool) : DataType := literal (.bool b) {}

def isAny : DataType → Bool
  | any _ => true
  | _ => false

def isNever : DataType → Bool
  | never _ => true
  | _ => false

def isUnion : DataType → Bool
  | union _ _ => true
  | _ => false

/-- The members of a union; any other type but the empty one is its own member. -/
def members : DataType → List DataType
  | union ms _ => ms
  | never _ => []
  | t => [t]

/-- The type has exactly one value. -/
def isSingleton : DataType → Bool
  | literal _ _ => true
  | primitive .null _ => true
  | primitive .nothing _ => true
  | _ => false

/-- The type of the member `name` of an object, where it is present. -/
def property (properties : Fields DataType) (rest : DataType) (name : String) : DataType :=
  (properties.get? name).getD rest

/-- The type of an array's element at a position, where it is present. -/
def element (front : List DataType) (rest : DataType) (i : Nat) : DataType :=
  front[i]?.getD rest

/-- Objects with the given members. -/
def ofObject (properties : Fields DataType) (rest : DataType) (required : List String) :
    DataType :=
  let required := NameSet.ofList required
  if required.any fun name => (property properties rest name).isNever then bottom
  else object properties rest required {}

/-- Arrays with the given elements and at least `minimum` of them. -/
def ofArray (front : List DataType) (rest : DataType) (minimum : Nat) : DataType :=
  let needsRest := decide (front.length < minimum)
  if (front.take minimum).any isNever || (needsRest && rest.isNever) then bottom
  else
    let kept := front.takeWhile fun t => !t.isNever
    if kept.length < front.length then array kept bottom minimum {}
    else array front rest minimum {}

/-- Arrays of any length. -/
def arrayOf (item : DataType) : DataType := ofArray [] item 0

/-- Objects with any members. -/
def recordOf (value : DataType) : DataType := ofObject [] value []

mutual

/-- The type of the values equal to a given one. -/
def ofJson : Json → DataType
  | .null => ofPrimitive .null
  | .bool b => literal (.bool b) {}
  | .number n => literal (.number n) {}
  | .string s => literal (.string s) {}
  | .array items => ofArray (ofItems items) bottom items.length
  | .object members => ofObject (ofMembers members) bottom (Fields.names members)

def ofItems : List Json → List DataType
  | [] => []
  | item :: rest => ofJson item :: ofItems rest

def ofMembers : List (String × Json) → List (String × DataType)
  | [] => []
  | (name, value) :: rest => (name, ofJson value) :: ofMembers rest

end

mutual

/-- Equality of types, annotations and the order of properties and members apart. -/
def same : DataType → DataType → Bool
  | any _, any _ => true
  | never _, never _ => true
  | literal a _, literal b _ => a.same b
  | primitive a _, primitive b _ => a == b
  | object ps r req _, object qs s req' _ =>
    ps.length == qs.length && r.same s && req == req' && sameProperties ps qs
  | array fs r m _, array gs s n _ => m == n && r.same s && sameFront fs gs
  | union ms _, union ns _ => ms.length == ns.length && sameMembers ms ns
  | _, _ => false

def sameProperties : List (String × DataType) → Fields DataType → Bool
  | [], _ => true
  | (name, t) :: rest, other =>
    (match other.get? name with
      | some u => t.same u
      | none => false) && sameProperties rest other

def sameFront : List DataType → List DataType → Bool
  | [], [] => true
  | t :: rest, u :: others => t.same u && sameFront rest others
  | _, _ => false

/-- Every type of the first list is in the second. -/
def sameMembers : List DataType → List DataType → Bool
  | [], _ => true
  | t :: rest, others => others.any (fun u => t.same u) && sameMembers rest others

end

end DataType

end JsonPath
