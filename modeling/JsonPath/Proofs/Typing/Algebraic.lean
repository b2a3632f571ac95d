import JsonPath.Proofs.DataType.Exact
import JsonPath.Proofs.Environment.Honest
import JsonPath.Proofs.Syntax.Elements
import JsonPath.Typing

/-!
What the types of the elements of a query have in common with the types that they are made of. A
property that the functions which build types keep, as do intersection and difference, passes from
the types of the document, of the current values and of the functions to the types of all elements,
of elements with missing parts too.
-/

namespace JsonPath

variable {S : NumberSet} {P Q : DataType → Prop}

namespace DataType

/-- A property of types that is kept by all functions which build types, among these intersection
and difference, and that passes to parts. -/
structure Algebraic (S : NumberSet) (P : DataType → Prop) : Prop extends Closed P where
  ofJson : ∀ {v : Json}, v.Over S → P (ofJson v)
  intersect : ∀ {t u : DataType}, P t → P u → P (t.intersect u)
  subtract : ∀ {t u : DataType}, P t → P u → P (t.subtract u)

theorem normal_algebraic (S : NumberSet) : Algebraic S (Normal S) where
  toClosed := normal_closed S
  ofJson := normal_ofJson
  intersect := normal_intersect
  subtract ht _ := normal_subtract ht

theorem over_algebraic (S : NumberSet) : Algebraic S (Over S) where
  toClosed := over_closed S
  ofJson hv := (normal_ofJson hv).over
  intersect ht hu := (meets_intersect _ ht _ hu).1
  subtract ht hu := (leaves_subtract _ ht hu).1

theorem built_algebraic (S : NumberSet) : Algebraic S (Built S) where
  toClosed := built_closed S
  ofJson := .ofJson
  intersect := .intersect
  subtract := .subtract

theorem Algebraic.present (hP : Algebraic S P) {t : DataType} (ht : P t) : P t.present :=
  hP.subtract ht (hP.primitive .nothing)

theorem Explored.elements (hP : Explored P) {t : DataType} (ht : P t) : P t.elements := by
  refine hP.mapMembers ?_ t ht
  intro u _ hu
  cases u with
  | any => exact hP.top
  | array => exact hP.memberChildren hu
  | never | literal | primitive | object | union => exact hP.bottom

theorem Algebraic.foldl_intersect (hP : Algebraic S P) {others : List DataType} {t : DataType}
    (ht : P t) (hothers : ∀ u ∈ others, P u) : P (others.foldl DataType.intersect t) :=
  List.foldlRecOn others _ ht fun _ h u hu => hP.intersect h (hothers u hu)

end DataType

/-- A literal is a value with numbers of the set. -/
def Element.DrawsFrom (S : NumberSet) (e : Element) : Prop :=
  ∀ id token v, e = .expression (.literal id token v) → v.Over S

/-- The types in the scope and of its functions have a property. -/
structure TypeScope.Has (P : DataType → Prop) (s : TypeScope) : Prop where
  root : P s.root
  current : P s.current
  functions : ∀ name f, s.environment.function? name = some f → P f.type

theorem TypeScope.Has.mono {s : TypeScope} (hs : s.Has P) (h : ∀ t, P t → Q t) : s.Has Q where
  root := h _ hs.root
  current := h _ hs.current
  functions name f hf := h _ (hs.functions name f hf)

open DataType (Algebraic)

namespace Environment

theorem type_standard (hP : Algebraic S P) :
    ∀ name f, standard.function? name = some f → P f.type :=
  forall_standard (P := fun f => P f.type) (hP.primitive .number)
    (hP.pair (hP.primitive .number) (hP.primitive .nothing)) (fun _ => hP.primitive .boolean) hP.top

end Environment

section Narrowing

variable {other t : DataType} {others : List DataType}

theorem DataType.Algebraic.narrowComparison (hP : Algebraic S P) (l : Location) (op : Comparison)
    (assume : Bool) (hother : P other) (ht : P t) :
    P (narrowComparison l op other assume t) := by
  have hintersect : P (DataType.changeAt (·.intersect other) l t) :=
    hP.changeAt (fun u hu => hP.intersect hu hother) l t ht
  have hsubtract : P (DataType.changeAt (·.subtract other) l t) :=
    hP.changeAt (fun u hu => hP.subtract hu hother) l t ht
  have hequality (equal : Bool) : P (if equal then
      if other.mayBeNothing then DataType.changeAt (·.intersect other) l t
      else DataType.presentAt l (DataType.changeAt (·.intersect other) l t)
    else if other.isSingleton then DataType.changeAt (·.subtract other) l t
    else t) := by
    split
    · split
      · exact hintersect
      · exact hP.presentAt l _ hintersect
    · split
      · exact hsubtract
      · exact ht
  have horder : P (if assume then DataType.presentAt l t else t) := by
    split
    · exact hP.presentAt l t ht
    · exact ht
  cases op with
  | equal => exact hequality assume
  | notEqual => exact hequality !assume
  | less | lessOrEqual | greater | greaterOrEqual => exact horder

theorem DataType.Algebraic.narrowExistence (hP : Algebraic S P) (l : Location) (assume : Bool)
    (ht : P t) : P (narrowExistence l assume t) := by
  unfold JsonPath.narrowExistence
  split
  · exact hP.presentAt l t ht
  · exact hP.changeAt (fun u hu => hP.intersect hu (hP.primitive .nothing)) l t ht

theorem DataType.Algebraic.narrowTogether (hP : Algebraic S P) (all : Bool) (ht : P t)
    (hothers : ∀ u ∈ others, P u) : P (narrowTogether all t others) := by
  unfold JsonPath.narrowTogether
  split
  · exact hP.foldl_intersect ht hothers
  · exact hP.union (List.forall_mem_cons.mpr ⟨ht, hothers⟩)

end Narrowing

theorem Path.has_seedType {s : TypeScope} (hs : s.Has P) (p : Path) : P (p.seedType s) := by
  unfold Path.seedType
  split
  · exact hs.current
  · exact hs.root

theorem Segment.has_incoming (hP : Algebraic S P) {before : DataType} (h : P before)
    (segment : Segment) : P (segment.incoming before) := by
  unfold Segment.incoming
  split
  · exact hP.pair h (hP.descendants h)
  · exact h

mutual

theorem Path.has_type (hP : Algebraic S P) {s : TypeScope} (hs : s.Has P) : (p : Path) →
    (∀ c ∈ p.parts, c.All (Element.DrawsFrom S)) → P (p.type s)
  | .root _ _, _ => Path.has_seedType hs _
  | .step before segment, h => by
    simp only [Path.parts, List.forall_mem_append, List.forall_mem_singleton] at h
    obtain ⟨hbefore, hsegment⟩ := h
    have hincoming := segment.has_incoming hP (before.has_type hP hs hbefore)
    exact segment.has_type hP hs hincoming hsegment

theorem Segment.has_type (hP : Algebraic S P) {s : TypeScope} (hs : s.Has P) {incoming : DataType}
    (hincoming : P incoming) : (segment : Segment) →
    segment.tree.All (Element.DrawsFrom S) → P (segment.type s incoming)
  | .shorthand _ _ selector, h => by
    simp only [Segment.tree, Tree.all_node, List.forall_mem_cons] at h
    obtain ⟨-, -, hselector, -⟩ := h
    exact hP.union
      (List.forall_mem_singleton.mpr (selector.has_type hP hs hincoming hselector))
  | .bracketed _ _ _ selectors _, h => by
    simp only [Segment.tree, Tree.all_node, List.forall_mem_cons, List.forall_mem_append] at h
    obtain ⟨-, ⟨-, -, hselectors⟩, -⟩ := h
    exact hP.union (selectors.has_types hP hs hincoming hselectors)

theorem Selectors.has_types (hP : Algebraic S P) {s : TypeScope} (hs : s.Has P)
    {incoming : DataType} (hincoming : P incoming) : (selectors : Selectors) →
    (∀ c ∈ selectors.trees, c.All (Element.DrawsFrom S)) →
    ∀ t ∈ selectors.types s incoming, P t
  | .last selector, h => by
    simp only [Selectors.trees, List.forall_mem_singleton] at h
    exact List.forall_mem_singleton.mpr (selector.has_type hP hs hincoming h)
  | .more selector _ rest, h => by
    simp only [Selectors.trees, List.forall_mem_cons] at h
    obtain ⟨hselector, -, hrest⟩ := h
    exact List.forall_mem_cons.mpr ⟨selector.has_type hP hs hincoming hselector,
      rest.has_types hP hs hincoming hrest⟩

theorem Selector.has_type (hP : Algebraic S P) {s : TypeScope} (hs : s.Has P)
    {incoming : DataType} (hincoming : P incoming) : (selector : Selector) →
    selector.tree.All (Element.DrawsFrom S) → P (selector.type s incoming)
  | .name _ _ _, _ => hP.present (hP.atStep _ hincoming)
  | .index _ _ _, _ => by
    rw [Selector.type]
    split
    · exact hP.present (hP.atStep _ hincoming)
    · exact hP.elements hincoming
  | .slice _ _ _ _ _, _ => hP.elements hincoming
  | .wildcard _ _, _ => hP.children hincoming
  | .filter _ _ test, h => by
    simp only [Selector.tree, Tree.all_node, List.forall_mem_cons] at h
    obtain ⟨-, -, htest, -⟩ := h
    have hcandidates := hP.children hincoming
    have hscope : TypeScope.Has P { s with current := incoming.children } :=
      ⟨hs.root, hcandidates, hs.functions⟩
    exact test.has_narrow hP hscope true hcandidates htest
  | .missing _ _, _ => hP.bottom

theorem Expr.has_type (hP : Algebraic S P) {s : TypeScope} (hs : s.Has P) : (e : Expr) →
    e.tree.All (Element.DrawsFrom S) → P (e.type s)
  | .literal id token v, h => by
    simp only [Expr.tree, Tree.all_node] at h
    exact hP.ofJson (h.1 id token v rfl)
  | .path _ p, h => by
    simp only [Expr.tree, Tree.all_node, List.forall_mem_singleton] at h
    exact p.has_type hP hs h.2.2
  | .call _ name _ _ _, _ => by
    rw [Expr.type]
    cases hf : s.environment.function? name.text with
    | none => exact hP.top
    | some f => exact hs.functions _ f hf
  | .missing _ _, _ => hP.bottom
  | .or .., _ | .and .., _ | .not .., _ | .comparison .., _ | .parens .., _ => hP.primitive _

theorem Expr.has_narrow (hP : Algebraic S P) {s : TypeScope} (hs : s.Has P) (assume : Bool)
    {t : DataType} (ht : P t) : (e : Expr) → e.tree.All (Element.DrawsFrom S) →
    P (e.narrow s assume t)
  | .and _ first _ rest, h | .or _ first _ rest, h => by
    simp only [Expr.tree, Tree.all_node, List.forall_mem_cons] at h
    obtain ⟨-, hfirst, -, hrest⟩ := h
    exact hP.narrowTogether _ (first.has_narrow hP hs assume ht hfirst)
      (rest.has_narrowEach hP hs assume ht hrest)
  | .not _ _ inner, h => by
    simp only [Expr.tree, Tree.all_node, List.forall_mem_cons] at h
    obtain ⟨-, -, hinner, -⟩ := h
    exact inner.has_narrow hP hs (!assume) ht hinner
  | .parens _ _ inner _, h => by
    simp only [Expr.tree, Tree.all_node, List.forall_mem_cons] at h
    obtain ⟨-, -, hinner, -⟩ := h
    exact inner.has_narrow hP hs assume ht hinner
  | .comparison _ left _ op right, h => by
    simp only [Expr.tree, Tree.all_node, List.forall_mem_cons] at h
    obtain ⟨-, hleft, -, hright, -⟩ := h
    have hleftType := left.has_type hP hs hleft
    have hrightType := right.has_type hP hs hright
    rw [Expr.narrow]
    cases left.relativeLocation? with
    | some l => exact hP.narrowComparison l op assume hrightType ht
    | none =>
      cases right.relativeLocation? with
      | some l => exact hP.narrowComparison l op.mirror assume hleftType ht
      | none => exact ht
  | .path _ p, _ => by
    rw [Expr.narrow]
    cases p.relativeLocation? with
    | some l => exact hP.narrowExistence l assume ht
    | none => exact ht
  | .call .., _ | .literal .., _ | .missing .., _ => ht

theorem Operands.has_narrowEach (hP : Algebraic S P) {s : TypeScope} (hs : s.Has P)
    (assume : Bool) {t : DataType} (ht : P t) : (os : Operands) →
    (∀ c ∈ os.trees, c.All (Element.DrawsFrom S)) → ∀ u ∈ os.narrowEach s assume t, P u
  | .last operand, h => by
    simp only [Operands.trees, List.forall_mem_singleton] at h
    exact List.forall_mem_singleton.mpr (operand.has_narrow hP hs assume ht h)
  | .more operand _ rest, h => by
    simp only [Operands.trees, List.forall_mem_cons] at h
    obtain ⟨hoperand, -, hrest⟩ := h
    exact List.forall_mem_cons.mpr ⟨operand.has_narrow hP hs assume ht hoperand,
      rest.has_narrowEach hP hs assume ht hrest⟩

end

end JsonPath
