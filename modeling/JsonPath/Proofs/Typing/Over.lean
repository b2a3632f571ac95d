import JsonPath.Proofs.Typing.Elements
import JsonPath.Proofs.Typing.Narrowing

/-!
The literals in the types of a query's elements. They come from the types of the document and of
the functions and from the literals of the query, so they are scalars with numbers of a set from
which all of these have theirs.
-/

namespace JsonPath

variable {S : NumberSet} {elements : List Element} {types : Nat → Option DataType}

/-- The element is among the given ones and its type is found by its number. -/
def Typed.Known (elements : List Element) (types : Nat → Option DataType) (e : Typed) : Prop :=
  e.element ∈ elements ∧ types e.element.id = some e.type

/-- All elements of the list are known. -/
abbrev Typed.AllKnown (elements : List Element) (types : Nat → Option DataType)
    (typed : List Typed) : Prop := ∀ e ∈ typed, e.Known elements types

theorem Expr.known {s : TypeScope} {e : Expr} (h : Typed.AllKnown elements types (e.typed s)) :
    (Typed.expression s e).Known elements types := by
  apply h
  cases e <;> simp [Expr.typed]

/-- The types in a scope and of its functions, and the literals among the elements, have numbers
of the set. -/
structure TypeScope.Over (S : NumberSet) (elements : List Element) (s : TypeScope) : Prop where
  root : s.root.Over S
  current : s.current.Over S
  functions : ∀ name f, s.environment.function? name = some f → f.type.Over S
  literals : ∀ id token v, Element.expression (.literal id token v) ∈ elements → v.Over S

/-- The scope of the test of a filter that is applied to values of a type. -/
def TypeScope.filter (s : TypeScope) (incoming : DataType) : TypeScope :=
  { s with current := incoming.children }

theorem TypeScope.Over.filter {s : TypeScope} (hs : s.Over S elements) {incoming : DataType}
    (hincoming : incoming.Over S) : (s.filter incoming).Over S elements where
  root := hs.root
  current := (DataType.over_closed S).children hincoming
  functions := hs.functions
  literals := hs.literals

section Known

variable {s : TypeScope} (hs : s.Over S elements)

include hs

theorem TypeScope.Over.has : s.Has (DataType.Over S) where
  root := hs.root
  current := hs.current
  functions := hs.functions

/-- Trees whose elements are known have only literals with numbers of the set. -/
theorem TypeScope.Over.drawsFrom {typed : List Typed} {trees : List Tree}
    (hknown : Typed.AllKnown elements types typed)
    (htrees : Typed.elements typed = trees.flatMap Tree.elements) :
    ∀ c ∈ trees, c.All (Element.DrawsFrom S) := by
  intro c hc e he id token v heq
  have hmem : e ∈ Typed.elements typed := by
    rw [htrees]
    exact List.mem_flatMap.mpr ⟨c, hc, he⟩
  obtain ⟨x, hx, rfl⟩ := List.mem_map.mp hmem
  refine hs.literals id token v ?_
  rw [← heq]
  exact (hknown x hx).1

theorem TypeScope.Over.drawsFrom_tree {typed : List Typed} {tree : Tree}
    (hknown : Typed.AllKnown elements types typed)
    (htree : Typed.elements typed = tree.elements) : tree.All (Element.DrawsFrom S) := by
  have htrees : Typed.elements typed = [tree].flatMap Tree.elements := by
    rw [htree, List.flatMap_singleton]
  exact hs.drawsFrom hknown htrees tree List.mem_cons_self

theorem Path.over_type (p : Path) (hknown : Typed.AllKnown elements types (p.typed s)) :
    (p.type s).Over S :=
  p.has_type (DataType.over_algebraic S) hs.has (hs.drawsFrom hknown (p.elements_typed s))

theorem Selector.over_type {incoming : DataType} (hincoming : incoming.Over S)
    (selector : Selector)
    (hknown : Typed.AllKnown elements types (selector.typed s incoming)) :
    (selector.type s incoming).Over S :=
  selector.has_type (DataType.over_algebraic S) hs.has hincoming
    (hs.drawsFrom_tree hknown (selector.elements_typed s incoming))

theorem Selectors.over_types {incoming whole : DataType} (hincoming : incoming.Over S)
    (selectors : Selectors)
    (hknown : Typed.AllKnown elements types (selectors.typed s incoming whole)) :
    ∀ t ∈ selectors.types s incoming, t.Over S :=
  selectors.has_types (DataType.over_algebraic S) hs.has hincoming
    (hs.drawsFrom hknown (selectors.elements_typed s incoming whole))

theorem Expr.over_type (e : Expr) (hknown : Typed.AllKnown elements types (e.typed s)) :
    (e.type s).Over S :=
  e.has_type (DataType.over_algebraic S) hs.has (hs.drawsFrom_tree hknown (e.elements_typed s))

theorem Expr.over_narrow (assume : Bool) {t : DataType} (ht : t.Over S) (e : Expr)
    (hknown : Typed.AllKnown elements types (e.typed s)) : (e.narrow s assume t).Over S :=
  e.has_narrow (DataType.over_algebraic S) hs.has assume ht
    (hs.drawsFrom_tree hknown (e.elements_typed s))

theorem Operands.over_narrowEach (assume : Bool) {t whole : DataType} (ht : t.Over S)
    (os : Operands)
    (hknown : Typed.AllKnown elements types (os.typed s whole)) :
    ∀ u ∈ os.narrowEach s assume t, u.Over S :=
  os.has_narrowEach (DataType.over_algebraic S) hs.has assume ht
    (hs.drawsFrom hknown (os.elements_typed s whole))

end Known

end JsonPath
