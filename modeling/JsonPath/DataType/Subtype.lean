import JsonPath.DataType

/-!
The subtype relation, as a test. It recurses on the left type; on the right it looks for a
member of a union that passes. A subtype describes nothing that the other type does not,
while a pair that fails the test may still be so related.
-/

namespace JsonPath.DataType

mutual

/-- The type is `any`, or it or a member of it passes the test. -/
def someMember (test : DataType → Bool) : DataType → Bool
  | any _ => true
  | union ms _ => someMemberAmong test ms
  | t => test t

def someMemberAmong (test : DataType → Bool) : List DataType → Bool
  | [] => false
  | t :: rest => someMember test t || someMemberAmong test rest

end

/-- A literal belongs to an equal one and to its kind. -/
def literalTest (value : Json) : DataType → Bool
  | literal other _ => value.same other
  | primitive kind _ => Primitive.of? value = some kind
  | _ => false

def primitiveTest (kind : Primitive) : DataType → Bool
  | primitive other _ => kind = other
  | _ => false

/-- An object type belongs to another if it requires as much, and its members' types, given
as tests, belong to those of the other. -/
def objectTest (tests : Fields (DataType → Bool)) (restTest : DataType → Bool)
    (required : List String) : DataType → Bool
  | object properties rest required' _ =>
    NameSet.subset required' required && restTest rest &&
      (tests.names ++ Fields.names properties).all fun name =>
        (tests.get? name).getD restTest (property properties rest name)
  | _ => false

def arrayTest (tests : List (DataType → Bool)) (restTest : DataType → Bool) (minimum : Nat) :
    DataType → Bool
  | array front rest minimum' _ =>
    minimum' ≤ minimum && restTest rest &&
      (List.range (max tests.length front.length)).all fun i =>
        tests[i]?.getD restTest (element front rest i)
  | _ => false

mutual

/-- Whether everything the first type describes is told to belong to the second. Among the
members of a union the truth values stand for themselves. -/
def isSubtypeOf : DataType → DataType → Bool
  | never _ => fun _ => true
  | any _ => isAny
  | literal value _ => someMember (literalTest value)
  | primitive kind _ => fun other =>
    if kind = .boolean && other.isUnion then
      someMember (literalTest (.bool true)) other && someMember (literalTest (.bool false)) other
    else someMember (primitiveTest kind) other
  | object properties rest required _ =>
    someMember (objectTest (propertyTests properties) rest.isSubtypeOf required)
  | array front rest minimum _ =>
    someMember (arrayTest (frontTests front) rest.isSubtypeOf minimum)
  | union members _ => fun other => !other.isNever && (other.isAny || allSubtypes members other)

/-- Subtype tests for each property. -/
def propertyTests : List (String × DataType) → Fields (DataType → Bool)
  | [] => []
  | (name, t) :: rest => (name, t.isSubtypeOf) :: propertyTests rest

def frontTests : List DataType → List (DataType → Bool)
  | [] => []
  | t :: rest => t.isSubtypeOf :: frontTests rest

def allSubtypes : List DataType → DataType → Bool
  | [], _ => true
  | t :: rest, other => t.isSubtypeOf other && allSubtypes rest other

end

/-- Each type is a subtype of the other. -/
def equivalent (a b : DataType) : Bool := a.isSubtypeOf b && b.isSubtypeOf a

/-- The absence of a value is told to belong to the type. -/
def mayBeNothing (t : DataType) : Bool := (ofPrimitive .nothing).isSubtypeOf t

end JsonPath.DataType
