import JsonPath.Fields
import JsonPath.Number

/-!
Documents. The members of an object have an order and, in every document that is read or
built, no repeated names. Two documents are equal when they agree up to the order of
members and the representation of numbers.
-/

namespace JsonPath

/-- A document, or any value inside one. -/
inductive Json where
  | null
  | bool (value : Bool)
  | number (value : Number)
  | string (value : String)
  | array (items : List Json)
  | object (members : List (String × Json))

namespace Json

instance : Inhabited Json := ⟨.null⟩

def natural (n : Nat) : Json := .number (.ofNat n)

def asString? : Json → Option String
  | .string s => some s
  | _ => none

def asBool? : Json → Option Bool
  | .bool b => some b
  | _ => none

def asArray? : Json → Option (List Json)
  | .array items => some items
  | _ => none

def asObject? : Json → Option (Fields Json)
  | .object members => some members
  | _ => none

/-- The member of an object called `name`. -/
def member? (name : String) : Json → Option Json
  | .object members => Fields.get? members name
  | _ => none

mutual

/-- No object inside the value repeats a name. -/
def WellFormed : Json → Prop
  | .array items => WellFormedItems items
  | .object members => (Fields.names members).Nodup ∧ WellFormedMembers members
  | _ => True

def WellFormedItems : List Json → Prop
  | [] => True
  | item :: rest => item.WellFormed ∧ WellFormedItems rest

def WellFormedMembers : List (String × Json) → Prop
  | [] => True
  | (_, value) :: rest => value.WellFormed ∧ WellFormedMembers rest

end

mutual

/-- The number of values in a document, itself included. -/
def size : Json → Nat
  | .array items => 1 + sizeItems items
  | .object members => 1 + sizeMembers members
  | _ => 1

def sizeItems : List Json → Nat
  | [] => 0
  | item :: rest => item.size + sizeItems rest

def sizeMembers : List (String × Json) → Nat
  | [] => 0
  | (_, value) :: rest => value.size + sizeMembers rest

end

mutual

/-- Equality up to the order of members and the representation of numbers. -/
def same : Json → Json → Bool
  | .null, .null => true
  | .bool a, .bool b => a == b
  | .number a, .number b => a.order b == .eq
  | .string a, .string b => a == b
  | .array a, .array b => sameItems a b
  | .object a, .object b => a.length == b.length && sameMembers a b
  | _, _ => false

/-- Item by item, with equal lengths. -/
def sameItems : List Json → List Json → Bool
  | [], [] => true
  | a :: rest, b :: others => a.same b && sameItems rest others
  | _, _ => false

/-- Every member has an equal one of its name in the other object. -/
def sameMembers : List (String × Json) → Fields Json → Bool
  | [], _ => true
  | (name, a) :: rest, other =>
    (match other.get? name with
      | some b => a.same b
      | none => false) && sameMembers rest other

end

end Json

end JsonPath
