import JsonPath.Proofs.DataType.Describes
import JsonPath.Proofs.Environment.Honest

/-!
Functions that keep to the types that they declare, besides the kinds. The standard functions
do.
-/

namespace JsonPath

/-- The type describes what the result is made of: its value or the absence of one, its truth
value, or each of its nodes. -/
def Result.IsOf (t : DataType) : Result → Prop
  | value v => t.Describes (some v)
  | nothing => t.Describes none
  | logical b => t.Describes (some (.bool b))
  | nodes ns => ∀ n ∈ ns, t.Describes (some n.value)

/-- Given arguments of the kinds that it declares, the function comes to a result of the kind
and of the type that it declares. -/
structure Function.Faithful (f : Function) : Prop where
  honest : f.Honest
  type : ∀ arguments, Result.haveKinds f.parameters arguments = true →
    (f.run arguments).1.IsOf f.type

namespace Environment

/-- All functions keep to what they declare. -/
def Faithful (env : Environment) : Prop :=
  ∀ name f, env.function? name = some f → f.Faithful

theorem Faithful.honest {env : Environment} (h : env.Faithful) : env.Honest :=
  fun name f hf => (h name f hf).honest

end Environment

namespace Function

theorem count_faithful : count.Faithful where
  honest := count_honest
  type arguments h := by
    match arguments, h with
    | [.nodes ns], _ =>
      simp only [count, Result.IsOf]
      exact .primitive rfl

theorem length_faithful : length.Faithful where
  honest := length_honest
  type arguments _ := by
    have htype : length.type =
        .union [.ofPrimitive .number, .ofPrimitive .nothing] {} := by rfl
    rw [htype]
    simp only [length]
    split
    · exact .union List.mem_cons_self (.primitive rfl)
    · exact .union (List.mem_cons_of_mem _ List.mem_cons_self) .nothing

theorem value_faithful : value.Faithful where
  honest := value_honest
  type arguments _ := by
    generalize (value.run arguments).1 = result
    cases result with
    | nodes => exact fun _ _ => .any
    | value | nothing | logical => exact .any

theorem fits_faithful (test : Pattern.Regex → List Char → Bool) : (fits test).Faithful where
  honest := fits_honest test
  type arguments _ := by
    simp only [fits]
    split
    · split <;> exact .primitive rfl
    · exact .primitive rfl

end Function

theorem Environment.standard_faithful : standard.Faithful :=
  forall_standard Function.count_faithful Function.length_faithful Function.fits_faithful
    Function.value_faithful

end JsonPath
