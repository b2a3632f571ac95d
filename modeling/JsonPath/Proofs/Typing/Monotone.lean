import JsonPath.Proofs.DataType.Monotone
import JsonPath.Proofs.Typing.Algebraic
import JsonPath.Proofs.Typing.Elements

/-!
Queries without filters are monotone. If the type of the documents is refined, so is the type of
every element, and no element gets more results. What a selector finds grows with what it is
applied to, and a path applies selectors to what the segments before have found.
-/

namespace JsonPath

variable {S : NumberSet} {s s' : TypeScope} {t u : DataType}

namespace DataType.Refines

theorem present (h : Refines S t u) : Refines S t.present u.present :=
  h.subtract .primitive

theorem elements (h : Refines S t u) : Refines S t.elements u.elements where
  left := (tidy_explored S).elements h.left
  right := (tidy_explored S).elements h.right
  below := by
    refine Inward.mono ?_ h.left h.right.1 h.below
    refine ⟨?_, fun _ => rfl, fun _ => rfl, ⟨bottom, ?_⟩, fun _ _ _ _ => rfl, ?_⟩
    · intro t ht
      cases t with
      | any => exact .any
      | array => exact (normal_closed S).memberChildren ht
      | never | literal | primitive | object | union => exact .never
    · intro t ht
      cases t with
      | literal | primitive => rfl
      | any | never | object | array | union => cases ht
    · exact (inward_memberChildren S).array

end DataType.Refines

/-- The element is a selector with a test. -/
def Element.isFilter : Element → Bool
  | .selector (.filter ..) => true
  | _ => false

/-- No selector in the tree has a test. -/
def Tree.Unfiltered (t : Tree) : Prop := t.All fun e => e.isFilter = false

theorem Tree.unfiltered_node {e : Element} {cs : List Tree} :
    (node e cs).Unfiltered ↔ e.isFilter = false ∧ ∀ c ∈ cs, c.Unfiltered :=
  all_node

/-- The types of the document and of the current values are refined. -/
structure TypeScope.Refines (S : NumberSet) (s s' : TypeScope) : Prop where
  root : s.root.Refines S s'.root
  current : s.current.Refines S s'.current

/-- The element is the same, and its type is refined. -/
structure Typed.Refines (S : NumberSet) (e e' : Typed) : Prop where
  element : e.element = e'.element
  type : e.type.Refines S e'.type

section Tokens

open DataType (Refines)

theorem Typed.refines_token (h : DataType.Refines S t u) (token : Token) :
    (Typed.token t token).Refines S (.token u token) :=
  ⟨rfl, h⟩

theorem Typed.refines_tokens (h : DataType.Refines S t u) (tokens : List Token) :
    List.Forall₂ (Typed.Refines S) (tokens.map (.token t)) (tokens.map (.token u)) := by
  rw [List.forall₂_map_left_iff, List.forall₂_map_right_iff, List.forall₂_same]
  exact fun token _ => refines_token h token

end Tokens

section Selectors

open DataType (Refines)

theorem Selector.type_refines (h : Refines S t u) (selector : Selector)
    (hplain : selector.tree.Unfiltered) : Refines S (selector.type s t) (selector.type s' u) := by
  cases selector with
  | name => exact (h.atStep _).present
  | index =>
    rw [Selector.type, Selector.type]
    split
    · exact (h.atStep _).present
    · exact h.elements
  | slice => exact h.elements
  | wildcard => exact h.children
  | filter => cases (Tree.unfiltered_node.mp hplain).1
  | missing => exact .refl (DataType.tidy_explored S).bottom

theorem Selector.typed_refines (h : Refines S t u) (selector : Selector)
    (hplain : selector.tree.Unfiltered) :
    List.Forall₂ (Typed.Refines S) (selector.typed s t) (selector.typed s' u) := by
  have htype : Refines S (selector.type s t) (selector.type s' u) :=
    selector.type_refines h hplain
  cases selector with
  | filter => cases (Tree.unfiltered_node.mp hplain).1
  | name | index | slice | wildcard | missing =>
    exact .cons ⟨rfl, htype⟩ (Typed.refines_tokens htype _)

theorem Selectors.types_refines (h : Refines S t u) : (selectors : Selectors) →
    (∀ c ∈ selectors.trees, c.Unfiltered) →
    List.Forall₂ (Refines S) (selectors.types s t) (selectors.types s' u)
  | .last selector, hplain => by
    rw [Selectors.trees, List.forall_mem_singleton] at hplain
    exact .cons (selector.type_refines h hplain) .nil
  | .more selector _ rest, hplain => by
    simp only [Selectors.trees, List.forall_mem_cons] at hplain
    obtain ⟨hselector, -, hrest⟩ := hplain
    exact .cons (selector.type_refines h hselector) (rest.types_refines h hrest)

/-- The commas have the type of the whole segment. -/
theorem Selectors.typed_refines (h : Refines S t u) {whole whole' : DataType}
    (hwhole : Refines S whole whole') : (selectors : Selectors) →
    (∀ c ∈ selectors.trees, c.Unfiltered) →
    List.Forall₂ (Typed.Refines S) (selectors.typed s t whole) (selectors.typed s' u whole')
  | .last selector, hplain => by
    rw [Selectors.trees, List.forall_mem_singleton] at hplain
    exact selector.typed_refines h hplain
  | .more selector comma rest, hplain => by
    simp only [Selectors.trees, List.forall_mem_cons] at hplain
    obtain ⟨hselector, -, hrest⟩ := hplain
    exact List.rel_append (selector.typed_refines h hselector)
      (.cons (Typed.refines_token hwhole comma) (rest.typed_refines h hwhole hrest))

end Selectors

section Paths

open DataType (Refines)

theorem Segment.incoming_refines (h : Refines S t u) (segment : Segment) :
    Refines S (segment.incoming t) (segment.incoming u) := by
  unfold Segment.incoming
  split
  · exact h.pair h.descendants
  · exact h

theorem Segment.type_refines (h : Refines S t u) (segment : Segment)
    (hplain : segment.tree.Unfiltered) : Refines S (segment.type s t) (segment.type s' u) := by
  cases segment with
  | shorthand id dots selector =>
    simp only [Segment.tree, Tree.unfiltered_node, List.forall_mem_cons] at hplain
    obtain ⟨-, -, hselector, -⟩ := hplain
    exact .unionOf (.cons (selector.type_refines h hselector) .nil)
  | bracketed id dots opening selectors closing =>
    simp only [Segment.tree, Tree.unfiltered_node, List.forall_mem_cons,
      List.forall_mem_append] at hplain
    obtain ⟨-, ⟨-, -, hselectors⟩, -⟩ := hplain
    exact .unionOf (selectors.types_refines h hselectors)

theorem Segment.typed_refines (h : Refines S t u) (segment : Segment)
    (hplain : segment.tree.Unfiltered) :
    List.Forall₂ (Typed.Refines S) (segment.typed s t) (segment.typed s' u) := by
  have htype : Refines S (segment.type s t) (segment.type s' u) := segment.type_refines h hplain
  have htoken := Typed.refines_token htype
  cases segment with
  | shorthand id dots selector =>
    simp only [Segment.tree, Tree.unfiltered_node, List.forall_mem_cons] at hplain
    obtain ⟨-, -, hselector, -⟩ := hplain
    exact .cons ⟨rfl, htype⟩ (.cons (htoken dots) (selector.typed_refines h hselector))
  | bracketed id dots opening selectors closing =>
    simp only [Segment.tree, Tree.unfiltered_node, List.forall_mem_cons,
      List.forall_mem_append] at hplain
    obtain ⟨-, ⟨-, -, hselectors⟩, -⟩ := hplain
    have hinside : List.Forall₂ (Typed.Refines S) (selectors.typed s t _)
        (selectors.typed s' u _) := selectors.typed_refines h htype hselectors
    have hopened := List.rel_append (Typed.refines_tokens htype dots.toList)
      (.cons (htoken opening) hinside)
    exact .cons ⟨rfl, htype⟩ (List.rel_append hopened (.cons (htoken closing) .nil))

theorem Path.seedType_refines (hs : s.Refines S s') (p : Path) :
    Refines S (p.seedType s) (p.seedType s') := by
  unfold Path.seedType
  split
  · exact hs.current
  · exact hs.root

theorem Path.type_refines (hs : s.Refines S s') : (p : Path) →
    (∀ c ∈ p.parts, c.Unfiltered) → Refines S (p.type s) (p.type s')
  | .root .., _ => Path.seedType_refines hs _
  | .step before segment, hplain => by
    rw [Path.parts, List.forall_mem_append, List.forall_mem_singleton] at hplain
    obtain ⟨hbefore, hsegment⟩ := hplain
    exact segment.type_refines (segment.incoming_refines (before.type_refines hs hbefore)) hsegment

theorem Path.typed_refines (hs : s.Refines S s') : (p : Path) →
    (∀ c ∈ p.parts, c.Unfiltered) → List.Forall₂ (Typed.Refines S) (p.typed s) (p.typed s')
  | .root .., _ => .cons (Typed.refines_token (Path.seedType_refines hs _) _) .nil
  | .step before segment, hplain => by
    rw [Path.parts, List.forall_mem_append, List.forall_mem_singleton] at hplain
    obtain ⟨hbefore, hsegment⟩ := hplain
    have hincoming := segment.incoming_refines (before.type_refines hs hbefore)
    exact List.rel_append (before.typed_refines hs hbefore)
      (segment.typed_refines hincoming hsegment)

end Paths

section Queries

theorem Query.typed_refines (h : DataType.Refines S t u) {q : Query} (hplain : q.tree.Unfiltered)
    (env : Environment) : List.Forall₂ (Typed.Refines S) (q.typed env t) (q.typed env u) := by
  rw [Query.tree, Tree.unfiltered_node, List.forall_mem_cons, Path.tree,
    Tree.unfiltered_node] at hplain
  obtain ⟨-, ⟨-, hparts⟩, -⟩ := hplain
  have hscope : TypeScope.Refines S ⟨env, t, t⟩ ⟨env, u, u⟩ := ⟨h, h⟩
  have hpath := q.path.type_refines hscope hparts
  exact .cons ⟨rfl, hpath⟩ (.cons ⟨rfl, hpath⟩ (List.rel_append (q.path.typed_refines hscope hparts)
    (.cons (Typed.refines_token hpath q.ending) .nil)))

/-- The first elements with a number are found at the same places. -/
theorem Typed.find?_refines {typed typed' : List Typed} {n : Nat}
    (h : List.Forall₂ (Typed.Refines S) typed typed') (hn : ∃ e ∈ typed, e.element.id = n) :
    ∃ e e', typed.find? (fun e => e.element.id == n) = some e ∧
      typed'.find? (fun e => e.element.id == n) = some e' ∧ e.Refines S e' := by
  induction h with
  | nil =>
    obtain ⟨_, hmem, _⟩ := hn
    cases hmem
  | @cons first first' rest rest' hfirst _ ih =>
    rw [List.find?_cons, List.find?_cons, ← hfirst.element]
    cases hsame : first.element.id == n with
    | true => exact ⟨first, first', rfl, rfl, hfirst⟩
    | false =>
      obtain ⟨e, hmem, he⟩ := hn
      rcases List.mem_cons.mp hmem with rfl | hmem
      · rw [he, beq_self_eq_true] at hsame
        cases hsame
      · exact ih ⟨e, hmem, he⟩

theorem Query.typeOf?_refines (h : DataType.Refines S t u) {q : Query}
    (hplain : q.tree.Unfiltered) (env : Environment) {e : Element} (he : e ∈ q.tree.elements) :
    ∃ x y, q.typeOf? env t e.id = some x ∧ q.typeOf? env u e.id = some y ∧
      DataType.Refines S x y := by
  rw [← q.elements_typed env t, Typed.elements] at he
  obtain ⟨typed, hmem, rfl⟩ := List.mem_map.mp he
  obtain ⟨e, e', hfound, hfound', hrefines⟩ :=
    Typed.find?_refines (Query.typed_refines h hplain env) ⟨typed, hmem, rfl⟩
  refine ⟨e.type, e'.type, ?_, ?_, hrefines.type⟩
  · rw [Query.typeOf?, hfound]
    rfl
  · rw [Query.typeOf?, hfound']
    rfl

/-- If the type of the documents becomes a subtype, so does the type of every element of a query
without filters, and no results are added. Equivalent types of documents give equivalent types. -/
theorem Query.typeOf?_mono {q : Query} (hplain : ∀ e ∈ q.tree.elements, e.isFilter = false)
    (env : Environment) (ht : t.Built S) (ht' : t.Distinct) (hu : u.Built S) (hu' : u.Distinct) :
    (t.isSubtypeOf u = true → ∀ e ∈ q.tree.elements, ∃ x y,
      q.typeOf? env t e.id = some x ∧ q.typeOf? env u e.id = some y ∧ x.isSubtypeOf y = true ∧
        ∀ v, Json.Held S v → x.Describes v → y.Describes v) ∧
    (t.equivalent u = true → ∀ e ∈ q.tree.elements, ∃ x y,
      q.typeOf? env t e.id = some x ∧ q.typeOf? env u e.id = some y ∧ x.equivalent y = true) := by
  constructor
  · intro hsub e he
    have hrefines : DataType.Refines S t u := ⟨⟨ht.normal, ht'⟩, ⟨hu.normal, hu'⟩, hsub⟩
    obtain ⟨x, y, hx, hy, hxy⟩ := Query.typeOf?_refines hrefines hplain env he
    refine ⟨x, y, hx, hy, hxy.below, ?_⟩
    intro v hv hdescribes
    exact hdescribes.of_isSubtypeOf hxy.left.1.over hxy.right.1.over hv hxy.below
  · intro hequivalent e he
    obtain ⟨htu, hut⟩ := Bool.and_eq_true_iff.mp hequivalent
    have hrefines : DataType.Refines S t u := ⟨⟨ht.normal, ht'⟩, ⟨hu.normal, hu'⟩, htu⟩
    have hback : DataType.Refines S u t := ⟨⟨hu.normal, hu'⟩, ⟨ht.normal, ht'⟩, hut⟩
    obtain ⟨x, y, hx, hy, hxy⟩ := Query.typeOf?_refines hrefines hplain env he
    obtain ⟨y', x', hy', hx', hyx⟩ := Query.typeOf?_refines hback hplain env he
    cases hx.symm.trans hx'
    cases hy.symm.trans hy'
    exact ⟨x, y, hx, hy, DataType.equivalent_of_isSubtypeOf hxy.below hyx.below⟩

/-- Objects with numbers, and with a list of some length under `items`. -/
def stockOf (items : DataType) (minimum : Nat) (required : List String) : DataType :=
  .ofObject [("items", .ofArray [] items minimum)] (.ofPrimitive .number) required

/-- Objects with at least one text under `items`. -/
def stock : DataType := stockOf (.ofPrimitive .string) 1 ["items"]

/-- Texts, or objects that may have texts and truth values under `items`. -/
def looseStock : DataType :=
  .unionOf [.ofPrimitive .string,
    stockOf (.unionOf [.ofPrimitive .string, .ofPrimitive .boolean]) 0 []]

/-- The same, with the members of the unions in another order. -/
def mixedStock : DataType :=
  .unionOf [stockOf (.unionOf [.ofPrimitive .boolean, .ofPrimitive .string]) 0 [],
    .ofPrimitive .string]

theorem stockOf_built {items : DataType} (h : items.Built .whole ∧ items.Distinct)
    (minimum : Nat) (required : List String) :
    (stockOf items minimum required).Built .whole ∧ (stockOf items minimum required).Distinct := by
  have hlist : (DataType.ofArray [] items minimum).Built .whole :=
    .ofArray minimum (List.forall_mem_nil _) h.1
  have hlist' : (DataType.ofArray [] items minimum).Distinct :=
    DataType.distinct_ofArray minimum (List.forall_mem_nil _) h.2
  exact ⟨.ofObject _ (List.forall_mem_singleton.mpr hlist) (.primitive _),
    DataType.distinct_ofObject _ (List.nodup_singleton _) (List.forall_mem_singleton.mpr hlist')
      .primitive⟩

theorem unionOf_built {x y : DataType} (hx : x.Built .whole ∧ x.Distinct)
    (hy : y.Built .whole ∧ y.Distinct) :
    (DataType.unionOf [x, y]).Built .whole ∧ (DataType.unionOf [x, y]).Distinct :=
  ⟨.unionOf (DataType.forall_mem_pair hx.1 hy.1), DataType.distinct_explored.pair hx.2 hy.2⟩

/-- A query that looks at the last and the first of the items, and at all that is inside. -/
def endItems : Query := .parse "$.items[-1, 0]..[*, 'a', 1:]"

theorem Query.typeOf?_mono_endItems :
    (∀ e ∈ endItems.tree.elements, e.isFilter = false) ∧
      (stock.Built .whole ∧ stock.Distinct) ∧ (looseStock.Built .whole ∧ looseStock.Distinct) ∧
      (mixedStock.Built .whole ∧ mixedStock.Distinct) ∧
      stock.isSubtypeOf looseStock = true ∧ looseStock.equivalent mixedStock = true ∧
      (∀ e ∈ endItems.tree.elements, ∃ x y, endItems.typeOf? .standard stock e.id = some x ∧
        endItems.typeOf? .standard looseStock e.id = some y ∧ x.isSubtypeOf y = true ∧
          ∀ v, Json.Held .whole v → x.Describes v → y.Describes v) ∧
      ∀ e ∈ endItems.tree.elements, ∃ x y, endItems.typeOf? .standard looseStock e.id = some x ∧
        endItems.typeOf? .standard mixedStock e.id = some y ∧ x.equivalent y = true := by
  have hplain : ∀ e ∈ endItems.tree.elements, e.isFilter = false := by
    have hall : (endItems.tree.elements.all fun e => !e.isFilter) = true := by decide +kernel
    simpa using hall
  have hprimitive (kind : Primitive) : (DataType.ofPrimitive kind).Built .whole ∧
      (DataType.ofPrimitive kind).Distinct := ⟨.primitive kind, .primitive⟩
  have hstock : stock.Built .whole ∧ stock.Distinct := stockOf_built (hprimitive _) _ _
  have hloose : looseStock.Built .whole ∧ looseStock.Distinct :=
    unionOf_built (hprimitive _) (stockOf_built (unionOf_built (hprimitive _) (hprimitive _)) _ _)
  have hmixed : mixedStock.Built .whole ∧ mixedStock.Distinct :=
    unionOf_built (stockOf_built (unionOf_built (hprimitive _) (hprimitive _)) _ _) (hprimitive _)
  have hsub : stock.isSubtypeOf looseStock = true := by decide +kernel
  have hequivalent : looseStock.equivalent mixedStock = true := by decide +kernel
  exact ⟨hplain, hstock, hloose, hmixed, hsub, hequivalent,
    (typeOf?_mono hplain .standard hstock.1 hstock.2 hloose.1 hloose.2).1 hsub,
    (typeOf?_mono hplain .standard hloose.1 hloose.2 hmixed.1 hmixed.2).2 hequivalent⟩

end Queries

end JsonPath
