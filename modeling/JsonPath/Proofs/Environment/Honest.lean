import JsonPath.Environment.Standard

/-!
Functions that keep to the kinds that they declare. The standard functions do: what holds of each of
them holds of all that are found in their environment.
-/

namespace JsonPath

namespace Environment

variable {env : Environment} {P : Function → Prop}

/-- What holds of all functions and of one more holds of all with it. -/
theorem forall_define (henv : ∀ name f, env.function? name = some f → P f) (name : String)
    {f : Function} (hf : P f) : ∀ other g, (env.define name f).function? other = some g → P g := by
  intro other g hg
  rw [function?, define, Fields.get?_insert] at hg
  split at hg
  · cases hg
    exact hf
  · exact henv other g hg

/-- What holds of each standard function holds of all functions of their environment. -/
theorem forall_standard (hcount : P .count) (hlength : P .length)
    (hfits : ∀ test, P (.fits test)) (hvalue : P .value) :
    ∀ name f, standard.function? name = some f → P f := by
  have hempty : ∀ name f, empty.function? name = some f → P f := nofun
  have hlengths := forall_define (forall_define hempty "count" hcount) "length" hlength
  have hmatch := forall_define hlengths "match" (hfits Pattern.Regex.isFullMatch)
  have hsearch := forall_define hmatch "search" (hfits Pattern.Regex.finds)
  exact forall_define hsearch "value" hvalue

end Environment

namespace Result

/-- The results are as many as the kinds, each of its own. -/
def haveKinds : List Kind → List Result → Bool
  | [], [] => true
  | kind :: kinds, result :: rest => result.hasKind kind && haveKinds kinds rest
  | _, _ => false

theorem single_hasKind_value (ns : List Node) : (nodes ns).single.hasKind .value = true := by
  match ns with
  | [] => rfl
  | [_] => rfl
  | _ :: _ :: _ => rfl

end Result

/-- Given arguments of the kinds that it declares, the function comes to a result of the kind
that it declares. -/
def Function.Honest (f : Function) : Prop :=
  ∀ arguments, Result.haveKinds f.parameters arguments = true →
    (f.run arguments).1.hasKind f.returns = true

namespace Environment

/-- All functions keep to the kinds that they declare. -/
def Honest (env : Environment) : Prop := ∀ name f, env.function? name = some f → f.Honest

end Environment

namespace Function

theorem count_honest : count.Honest := by
  intro arguments _
  simp only [count]
  split <;> rfl

theorem length_honest : length.Honest := by
  intro arguments _
  simp only [length]
  split <;> rfl

theorem value_honest : value.Honest := by
  intro arguments _
  simp only [value]
  split
  · exact Result.single_hasKind_value _
  · rfl

theorem fits_honest (test : Pattern.Regex → List Char → Bool) : (fits test).Honest := by
  intro arguments _
  simp only [fits]
  split
  · split <;> rfl
  · rfl

end Function

theorem Environment.standard_honest : standard.Honest :=
  forall_standard Function.count_honest Function.length_honest Function.fits_honest
    Function.value_honest

end JsonPath
