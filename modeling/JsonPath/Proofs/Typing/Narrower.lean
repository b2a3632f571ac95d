import JsonPath.Proofs.DataType.Narrower
import JsonPath.Proofs.Typing.Algebraic

/-!
Narrowing only narrows. Whatever a test is made of, and whether it is assumed to be true or false,
the type of the candidates that it leaves is a subtype of the type of the candidates: each single
test gives a subtype, intersections of subtypes are subtypes, and so are their unions.
-/

namespace JsonPath

variable {S : NumberSet} {s : TypeScope} {l : Location} {t other : DataType}

section Tests

open DataType

theorem changeAt_intersect_isSubtypeOf (hother : other.Normal S) (ht : t.Normal S) :
    (changeAt (·.intersect other) l t).isSubtypeOf t = true :=
  changeAt_isSubtypeOf (fun _ hu => normal_intersect hu hother)
    (fun u hu => (ordered_normal S).intersect_left u other hu hother) l ht

theorem changeAt_subtract_isSubtypeOf (ht : t.Normal S) :
    (changeAt (·.subtract other) l t).isSubtypeOf t = true :=
  changeAt_isSubtypeOf (fun _ hu => normal_subtract hu) (fun _ hu => subtract_isSubtypeOf hu) l ht

theorem narrowComparison_isSubtypeOf (op : Comparison) (assume : Bool) (hother : other.Normal S)
    (ht : t.Normal S) : (narrowComparison l op other assume t).isSubtypeOf t = true := by
  have hself : t.isSubtypeOf t = true := isSubtypeOf_refl ht
  have hshared : (changeAt (·.intersect other) l t).isSubtypeOf t = true :=
    changeAt_intersect_isSubtypeOf hother ht
  have hnormal : (changeAt (·.intersect other) l t).Normal S :=
    (normal_closed S).changeAt (fun _ hu => normal_intersect hu hother) l t ht
  have hpresent : (presentAt l (changeAt (·.intersect other) l t)).isSubtypeOf t = true :=
    isSubtypeOf_trans ((normal_closed S).presentAt l _ hnormal) hnormal ht
      (presentAt_isSubtypeOf l hnormal) hshared
  have hequality (equal : Bool) : (if equal then
      if other.mayBeNothing then changeAt (·.intersect other) l t
      else presentAt l (changeAt (·.intersect other) l t)
    else if other.isSingleton then changeAt (·.subtract other) l t
    else t).isSubtypeOf t = true := by
    split
    · split
      · exact hshared
      · exact hpresent
    · split
      · exact changeAt_subtract_isSubtypeOf ht
      · exact hself
  have horder : (if assume then presentAt l t else t).isSubtypeOf t = true := by
    split
    · exact presentAt_isSubtypeOf l ht
    · exact hself
  cases op with
  | equal => exact hequality assume
  | notEqual => exact hequality !assume
  | less | lessOrEqual | greater | greaterOrEqual => exact horder

theorem narrowExistence_isSubtypeOf (assume : Bool) (ht : t.Normal S) :
    (narrowExistence l assume t).isSubtypeOf t = true := by
  unfold narrowExistence
  split
  · exact presentAt_isSubtypeOf l ht
  · exact changeAt_intersect_isSubtypeOf .primitive ht

/-- What several tests leave together is a subtype if what each of them leaves is one. -/
theorem narrowTogether_isSubtypeOf {first : DataType} {others : List DataType} (all : Bool)
    (hnormal : ∀ u ∈ first :: others, u.Normal S) (ht : t.Normal S)
    (h : ∀ u ∈ first :: others, u.isSubtypeOf t = true) :
    (narrowTogether all first others).isSubtypeOf t = true := by
  unfold narrowTogether
  split
  · obtain ⟨hfirst, hothers⟩ := List.forall_mem_cons.mp hnormal
    have hkept : ∀ found : DataType, found.Normal S ∧ found.isSubtypeOf t = true →
        ∀ u ∈ others, (found.intersect u).Normal S ∧ (found.intersect u).isSubtypeOf t = true := by
      intro found hfound u hu
      have hboth := normal_intersect hfound.1 (hothers u hu)
      have hleft := (ordered_normal S).intersect_left found u hfound.1 (hothers u hu)
      exact ⟨hboth, isSubtypeOf_trans hboth hfound.1 ht hleft hfound.2⟩
    have hbelow := h first List.mem_cons_self
    exact (List.foldlRecOn
      (motive := fun found : DataType => found.Normal S ∧ found.isSubtypeOf t = true)
      others _ ⟨hfirst, hbelow⟩ hkept).2
  · exact (unionOf_isSubtypeOf_iff hnormal ht).mpr h

end Tests

section Expressions

open DataType (normal_algebraic)

mutual

theorem Expr.narrow_below (hs : s.Has (DataType.Normal S)) (assume : Bool) (ht : t.Normal S) :
    (e : Expr) → e.tree.All (Element.DrawsFrom S) → (e.narrow s assume t).isSubtypeOf t = true
  | .and _ first _ rest, h | .or _ first _ rest, h => by
    simp only [Expr.tree, Tree.all_node, List.forall_mem_cons] at h
    obtain ⟨-, hfirst, -, hrest⟩ := h
    have hnormal := first.has_narrow (normal_algebraic S) hs assume ht hfirst
    have hnormalRest := rest.has_narrowEach (normal_algebraic S) hs assume ht hrest
    exact narrowTogether_isSubtypeOf _ (List.forall_mem_cons.mpr ⟨hnormal, hnormalRest⟩) ht
      (List.forall_mem_cons.mpr
        ⟨first.narrow_below hs assume ht hfirst, rest.narrowEach_below hs assume ht hrest⟩)
  | .not _ _ inner, h => by
    simp only [Expr.tree, Tree.all_node, List.forall_mem_cons] at h
    obtain ⟨-, -, hinner, -⟩ := h
    exact inner.narrow_below hs (!assume) ht hinner
  | .parens _ _ inner _, h => by
    simp only [Expr.tree, Tree.all_node, List.forall_mem_cons] at h
    obtain ⟨-, -, hinner, -⟩ := h
    exact inner.narrow_below hs assume ht hinner
  | .comparison _ left _ op right, h => by
    simp only [Expr.tree, Tree.all_node, List.forall_mem_cons] at h
    obtain ⟨-, hleft, -, hright, -⟩ := h
    have hleftType := left.has_type (normal_algebraic S) hs hleft
    have hrightType := right.has_type (normal_algebraic S) hs hright
    rw [Expr.narrow]
    cases left.relativeLocation? with
    | some l => exact narrowComparison_isSubtypeOf op assume hrightType ht
    | none =>
      cases right.relativeLocation? with
      | some l => exact narrowComparison_isSubtypeOf op.mirror assume hleftType ht
      | none => exact DataType.isSubtypeOf_refl ht
  | .path _ p, _ => by
    rw [Expr.narrow]
    cases p.relativeLocation? with
    | some l => exact narrowExistence_isSubtypeOf assume ht
    | none => exact DataType.isSubtypeOf_refl ht
  | .call .., _ | .literal .., _ | .missing .., _ => DataType.isSubtypeOf_refl ht

theorem Operands.narrowEach_below (hs : s.Has (DataType.Normal S)) (assume : Bool)
    (ht : t.Normal S) : (os : Operands) → (∀ c ∈ os.trees, c.All (Element.DrawsFrom S)) →
    ∀ u ∈ os.narrowEach s assume t, u.isSubtypeOf t = true
  | .last operand, h => by
    simp only [Operands.trees, List.forall_mem_singleton] at h
    exact List.forall_mem_singleton.mpr (operand.narrow_below hs assume ht h)
  | .more operand _ rest, h => by
    simp only [Operands.trees, List.forall_mem_cons] at h
    obtain ⟨hoperand, -, hrest⟩ := h
    exact List.forall_mem_cons.mpr
      ⟨operand.narrow_below hs assume ht hoperand, rest.narrowEach_below hs assume ht hrest⟩

end

/-- The candidates that a test leaves, whatever it is assumed to come to, have a subtype of the type
that they had before. -/
theorem Expr.narrow_isSubtypeOf {e : Expr} (hs : s.Has (DataType.Built S)) (ht : t.Built S)
    (hliterals : ∀ id token v,
      Element.expression (.literal id token v) ∈ e.tree.elements → v.Over S) (assume : Bool) :
    (e.narrow s assume t).isSubtypeOf t = true := by
  have hdraws : e.tree.All (Element.DrawsFrom S) := by
    intro x hx id token v heq
    subst heq
    exact hliterals id token v hx
  exact e.narrow_below (hs.mono fun _ => DataType.Built.normal) assume ht.normal hdraws

/-- The element is a text or a whole number, if it is a literal. -/
def Element.isSimple : Element → Bool
  | .expression (.literal _ _ (.string _)) => true
  | .expression (.literal _ _ (.number n)) => n.toInt?.isSome
  | .expression (.literal ..) => false
  | _ => true

theorem Element.over_of_isSimple {id : Nat} {token : Token} {v : Json}
    (h : (Element.expression (.literal id token v)).isSimple = true) : v.Over .whole := by
  cases v with
  | string text => exact .string text
  | number n =>
    cases n with
    | int i hi => exact .number ⟨i, hi, rfl⟩
    | double => cases h
  | _ => cases h

/-- The test of the first filter of a query. -/
def Query.firstTest? (q : Query) : Option Expr :=
  q.tree.elements.findSome? fun
    | .selector (.filter _ _ test) => some test
    | _ => none

/-- Objects with a number or a text as `a` and numbers otherwise, or arrays of texts. -/
def rows : DataType :=
  .unionOf [.ofObject [("a", .unionOf [.ofPrimitive .number, .ofPrimitive .string])]
    (.ofPrimitive .number) ["a"], .arrayOf (.ofPrimitive .string)]

theorem rows_built : rows.Built .whole := by
  have hnumberOrText : (DataType.unionOf [.ofPrimitive .number, .ofPrimitive .string]).Built
      .whole := .unionOf (DataType.forall_mem_pair (.primitive _) (.primitive _))
  exact .unionOf (DataType.forall_mem_pair
    (.ofObject _ (List.forall_mem_singleton.mpr hnumberOrText) (.primitive _))
    (.ofArray _ (List.forall_mem_nil _) (.primitive _)))

/-- A query of which the last comparison lacks an operand. -/
def unfinished : Query :=
  .parse "$[?@.a == @.b && !(length(@.c) <= @[70]) || @.d != 'x' || @[1] < ]"

theorem Expr.narrow_isSubtypeOf_missing :
    ∃ e, unfinished.firstTest? = some e ∧
      TypeScope.Has (DataType.Built .whole) ⟨.standard, .top, rows⟩ ∧ rows.Built .whole ∧
      (∀ id token v, Element.expression (.literal id token v) ∈ e.tree.elements →
        v.Over .whole) ∧
      (e.narrow ⟨.standard, .top, rows⟩ true rows).isSubtypeOf rows = true ∧
      (e.narrow ⟨.standard, .top, rows⟩ false rows).isSubtypeOf rows = true := by
  have hsimple : unfinished.firstTest?.map (fun e => e.tree.elements.all Element.isSimple) =
      some true := by decide +kernel
  obtain ⟨e, he, helements⟩ := Option.map_eq_some_iff.mp hsimple
  rw [List.all_eq_true] at helements
  have hscope : TypeScope.Has (DataType.Built .whole) ⟨.standard, .top, rows⟩ :=
    ⟨.top, rows_built, Environment.type_standard (DataType.built_algebraic .whole)⟩
  have hliterals : ∀ id token v, Element.expression (.literal id token v) ∈ e.tree.elements →
      v.Over .whole := fun id token v hmem => Element.over_of_isSimple (helements _ hmem)
  exact ⟨e, he, hscope, rows_built, hliterals, narrow_isSubtypeOf hscope rows_built hliterals true,
    narrow_isSubtypeOf hscope rows_built hliterals false⟩

end Expressions

end JsonPath
