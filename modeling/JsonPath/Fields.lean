/-!
Named values in a fixed order. A name that is inserted again keeps its place and takes the
new value, so a list that starts without repeated names never gets one.
-/

namespace JsonPath

/-- Named values, in order. -/
abbrev Fields (α : Type) := List (String × α)

namespace Fields

variable {α : Type}

/-- The value of a name, if it has one. -/
def get? : Fields α → String → Option α
  | [], _ => none
  | (key, value) :: rest, name => if key = name then some value else get? rest name

def contains (fields : Fields α) (name : String) : Bool := (fields.get? name).isSome

/-- The names, in order. -/
def names (fields : Fields α) : List String := fields.map Prod.fst

/-- The values, in order. -/
def values (fields : Fields α) : List α := fields.map Prod.snd

/-- The fields with `name` set to `value`, in place if it occurs and at the end if not. -/
def insert : Fields α → String → α → Fields α
  | [], name, value => [(name, value)]
  | (key, old) :: rest, name, value =>
    if key = name then (key, value) :: rest else (key, old) :: insert rest name value

/-- The fields without the first one called `name`. -/
def erase : Fields α → String → Fields α
  | [], _ => []
  | (key, value) :: rest, name => if key = name then rest else (key, value) :: erase rest name

/-- The fields of a list in which a later value of a name replaces an earlier one. -/
def ofList (entries : List (String × α)) : Fields α :=
  entries.foldl (fun fields entry => insert fields entry.1 entry.2) []

@[simp] theorem get?_insert (fields : Fields α) (name other : String) (value : α) :
    (insert fields name value).get? other =
      if name = other then some value else fields.get? other := by
  induction fields with
  | nil => simp [insert, get?]
  | cons entry rest ih =>
    obtain ⟨key, old⟩ := entry
    by_cases hkey : key = name <;> by_cases hname : name = other <;>
      by_cases hother : key = other <;> simp_all [insert, get?]

end Fields

end JsonPath
