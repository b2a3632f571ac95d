/-!
Finite sets of names, kept as strictly increasing lists so that equal sets are equal lists.
-/

namespace JsonPath

/-- A set of names in increasing order. -/
abbrev NameSet := List String

namespace NameSet

def insert (name : String) : NameSet → NameSet
  | [] => [name]
  | first :: rest =>
    if name < first then name :: first :: rest
    else if name = first then first :: rest
    else first :: insert name rest

def ofList (names : List String) : NameSet := names.foldr insert []

def union (a b : NameSet) : NameSet := a.foldr insert b

def subset (a b : NameSet) : Bool := a.all fun name => b.contains name

theorem mem_insert (name other : String) (set : NameSet) :
    other ∈ insert name set ↔ other = name ∨ other ∈ set := by
  induction set with
  | nil => simp [insert]
  | cons first rest ih =>
    unfold insert
    split
    · simp
    · split
      · rename_i h
        subst h
        simp
      · simp only [List.mem_cons, ih]
        exact or_left_comm

theorem mem_ofList (names : List String) (name : String) :
    name ∈ ofList names ↔ name ∈ names := by
  induction names with
  | nil => simp [ofList]
  | cons first rest ih =>
    simp only [ofList, List.foldr_cons, List.mem_cons, mem_insert] at ih ⊢
    rw [ih]

theorem mem_union (a b : NameSet) (name : String) :
    name ∈ union a b ↔ name ∈ a ∨ name ∈ b := by
  induction a with
  | nil => simp [union]
  | cons first rest ih =>
    simp only [union, List.foldr_cons, List.mem_cons, mem_insert] at ih ⊢
    rw [ih, or_assoc]

end NameSet

end JsonPath
