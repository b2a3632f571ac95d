import JsonPath.Syntax.Basic

/-!
Syntax trees in which nothing is missing and nothing is compared that has no single value.
These are the trees of texts without fault.
-/

namespace JsonPath

/-- A value that is neither an array nor an object. -/
def Json.IsScalar : Json → Prop
  | .array _ => False
  | .object _ => False
  | _ => True

/-- The expression may stand beside a comparison operator. -/
def Expr.IsComparable : Expr → Prop
  | .literal _ _ _ => True
  | .call _ _ _ _ _ => True
  | .path _ p => p.isSingular = true
  | _ => False

/-- The expression comes from no operator between operands. -/
def Expr.IsPrimary : Expr → Prop
  | .or _ _ _ _ => False
  | .and _ _ _ _ => False
  | .comparison _ _ _ _ _ => False
  | _ => True

theorem Expr.IsComparable.isPrimary {e : Expr} (h : e.IsComparable) : e.IsPrimary := by
  cases e <;> trivial

theorem Selectors.toList_ne_nil (selectors : Selectors) : selectors.toList ≠ [] := by
  cases selectors <;> simp [toList]

/-- A child segment of one selector, which is a name or an index, is singular. -/
theorem Segment.single?_eq_some_iff (s : Segment) (t : Selector) :
    s.single? = some t ↔
      s.isDescendant = false ∧ s.selectors = [t] ∧ t.isSingular = true := by
  unfold single?
  constructor
  · intro h
    split at h
    · rename_i hdescendant hselectors
      split at h
      · cases h
        exact ⟨hdescendant, hselectors, by assumption⟩
      · cases h
    · cases h
  · rintro ⟨hdescendant, hselectors, ht⟩
    simp [hdescendant, hselectors, ht]

theorem Segment.isSingular_iff (s : Segment) :
    s.isSingular = true ↔
      s.isDescendant = false ∧ ∃ t, s.selectors = [t] ∧ t.isSingular = true := by
  rw [isSingular, Option.isSome_iff_exists]
  constructor
  · rintro ⟨t, h⟩
    obtain ⟨hdescendant, hselectors, ht⟩ := (s.single?_eq_some_iff t).mp h
    exact ⟨hdescendant, t, hselectors, ht⟩
  · rintro ⟨hdescendant, t, hselectors, ht⟩
    exact ⟨t, (s.single?_eq_some_iff t).mpr ⟨hdescendant, hselectors, ht⟩⟩

mutual

def Path.WellFormed : Path → Prop
  | .root _ _ => True
  | .step before segment => before.WellFormed ∧ segment.WellFormed

def Segment.WellFormed : Segment → Prop
  | .shorthand _ _ selector => selector.WellFormed
  | .bracketed _ _ _ selectors _ => selectors.WellFormed

def Selectors.WellFormed : Selectors → Prop
  | .last selector => selector.WellFormed
  | .more selector _ rest => selector.WellFormed ∧ rest.WellFormed

def Selector.WellFormed : Selector → Prop
  | .filter _ _ test => test.WellFormed
  | .missing _ _ => False
  | _ => True

def Expr.WellFormed : Expr → Prop
  | .or _ first _ rest | .and _ first _ rest => first.WellFormed ∧ rest.WellFormed
  | .not _ _ inner | .parens _ _ inner _ => inner.WellFormed
  | .comparison _ left _ _ right =>
    left.IsComparable ∧ right.IsComparable ∧ left.WellFormed ∧ right.WellFormed
  | .path _ p => p.WellFormed
  | .call _ name _ arguments _ => name.missing = false ∧ arguments.WellFormed
  | .literal _ _ value => value.IsScalar
  | .missing _ _ => False

def Operands.WellFormed : Operands → Prop
  | .last operand => operand.WellFormed
  | .more operand _ rest => operand.WellFormed ∧ rest.WellFormed

def Arguments.WellFormed : Arguments → Prop
  | .none => True
  | .some operands => operands.WellFormed

end

end JsonPath
