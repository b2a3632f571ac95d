import JsonPath.Proofs.DataType.Location
import JsonPath.Proofs.Evaluation.Comparison
import JsonPath.Proofs.Typing.Algebraic

/-!
Narrowing by tests. A test that asks for a value at a location keeps the candidates for which it
comes out as assumed. A comparison keeps them too, unless what is compared is absent: nothing
equals nothing, and a type of values that a path selects does not tell that it may select none.
-/

namespace JsonPath

variable {S : NumberSet}

namespace Result

/-- The result of a path that leads to a value, or to none. -/
def ofValue? : Option Json → Result
  | some v => value v
  | none => nothing

theorem less_nothing_left (r : Result) : less nothing r = false := rfl

theorem less_nothing_right (r : Result) : less r nothing = false := by
  cases r with
  | value v => cases v <;> rfl
  | nothing | logical | nodes => rfl

/-- Nothing is in order only with nothing, by an order that includes equality. -/
theorem nothing_compare {op : Comparison} {r : Result} (h : nothing.compare op r = true)
    (hop : op ≠ .equal ∧ op ≠ .notEqual) :
    r.single = nothing ∧ (op = .lessOrEqual ∨ op = .greaterOrEqual) := by
  have hnothing (hequal : equal nothing r.single = true) : r.single = nothing := by
    rcases equal_eq_true hequal with ⟨-, habsent⟩ | ⟨v, w, hv, -, -⟩
    · exact habsent
    · cases hv
  simp only [compare, single, less_nothing_left, less_nothing_right, Bool.false_or] at h
  cases op with
  | equal => exact absurd rfl hop.1
  | notEqual => exact absurd rfl hop.2
  | less | greater => cases h
  | lessOrEqual => exact ⟨hnothing h, .inl rfl⟩
  | greaterOrEqual => exact ⟨hnothing h, .inr rfl⟩

/-- The value that there may be has numbers of the set. -/
def Single (S : NumberSet) (r : Result) : Prop := ∀ v, r.single = value v → v.Over S

theorem Single.wellFormed {r : Result} (h : r.Single S) : r.single.WellFormed := by
  cases r with
  | value v => exact (h v rfl).wellFormed
  | nothing | logical => trivial
  | nodes ns =>
    match ns with
    | [n] => exact (h n.value rfl).wellFormed
    | [] | _ :: _ :: _ => trivial

/-- Exchanging the operands exchanges the sides of the comparison. -/
theorem compare_mirror {a b : Result} (ha : a.Single S) (hb : b.Single S) (op : Comparison) :
    b.compare op.mirror a = a.compare op b :=
  compare_mirror_of_equal_comm (ha.wellFormed.equal_comm hb.wellFormed) op

end Result

/-- What a comparison leaves out of account, when the value at a location is compared with
nothing, though the type of what it is compared with tells of values only: the absence of both,
which makes them equal, and a value of the type, which nothing does not equal. -/
def Comparison.Accounts (op : Comparison) (located compared : Option Json) (other : DataType) :
    Prop :=
  compared = none →
    match op with
    | .equal | .notEqual =>
      match located with
      | none => other.mayBeNothing = true
      | some v => other.isSingleton = true → ¬ other.Describes (some v)
    | .lessOrEqual | .greaterOrEqual => located ≠ none
    | .less | .greater => True

section Comparisons

variable {l : Location} {other t : DataType} {v : Json}

theorem over_intersect (hother : other.Over S) (u : DataType) (hu : u.Over S) :
    (u.intersect other).Over S :=
  (DataType.meets_intersect u hu other hother).1

theorem over_subtract (hother : other.Over S) (u : DataType) (hu : u.Over S) :
    (u.subtract other).Over S :=
  (DataType.leaves_subtract u hu hother).1

/-- All values of a type with a single value are equal. -/
theorem DataType.Describes.same_of_isSingleton {v w : Json} (hv : other.Describes (some v))
    (hw : other.Describes (some w)) (hother : other.Over S) (hvOver : v.Over S)
    (hwOver : w.Over S) (hsingleton : other.isSingleton = true) : v.same w = true := by
  cases other with
  | literal u notes =>
    cases hother with
    | literal _ hnumbers =>
    cases hv with
    | literal hsame =>
    cases hw with
    | literal hsame' =>
      exact Json.same_trans hvOver hnumbers hwOver hsame (Json.same_symm hwOver hnumbers hsame')
  | primitive kind notes =>
    cases kind with
    | null =>
      cases hv with
      | primitive hkind =>
      cases hw with
      | primitive hkind' =>
        cases v <;> cases hkind
        cases w <;> cases hkind'
        rfl
    | nothing =>
      cases hv with
      | primitive hkind => cases v <;> cases hkind
    | number | string | boolean => cases hsingleton
  | any | never | object | array | union => cases hsingleton

section Result

variable {r : Result} (hv : v.Over S) (ht : t.Over S) (hother : other.Over S)
  (hr : ∀ w, r.single = .value w → w.Over S ∧ other.Describes (some w))
  (h : t.Describes (some v))

include hv ht hother hr h

/-- A candidate whose value at the location is equal to the compared one is kept. -/
theorem describes_of_equal (hequal : Result.equal (.ofValue? (v.at? l)) r.single = true)
    (hnothing : r.single = .nothing → other.mayBeNothing = true) :
    (if other.mayBeNothing then DataType.changeAt (·.intersect other) l t
      else DataType.presentAt l (DataType.changeAt (·.intersect other) l t)).Describes
        (some v) := by
  have hnarrowed : (DataType.changeAt (·.intersect other) l t).Describes (some v) := by
    refine DataType.describes_changeAt (over_intersect hother) l t ht hv h ?_
    intro w hw u hu hdescribes
    rw [hw] at hequal
    rcases Result.equal_eq_true hequal with ⟨hvalue, -⟩ | ⟨w', x, hw', hx, hsame⟩
    · cases hvalue
    · cases hw'
      obtain ⟨hxOver, hxDescribes⟩ := hr x hx
      have hwOver := hv.at? hw
      have hwDescribes := hxDescribes.of_same hother hxOver hwOver
        (Json.same_symm hwOver hxOver hsame)
      exact (DataType.meets_intersect u hu other hother).2 _ hwOver.held hdescribes hwDescribes
  split
  · exact hnarrowed
  · rename_i hmaybe
    rcases Result.equal_eq_true hequal with ⟨-, habsent⟩ | ⟨w, x, hw, -, -⟩
    · exact absurd (hnothing habsent) hmaybe
    · cases hat : v.at? l with
      | none =>
        rw [hat] at hw
        cases hw
      | some w =>
        exact DataType.describes_presentAt l _
          (DataType.over_changeAt (over_intersect hother) l t ht) hv hnarrowed hat

/-- A candidate whose value at the location differs from the compared one is kept. -/
theorem describes_of_unequal (hequal : Result.equal (.ofValue? (v.at? l)) r.single = false)
    (hnothing : r.single.value? = none → ∀ w, v.at? l = some w → other.isSingleton = true →
      ¬ other.Describes (some w)) :
    (if other.isSingleton then DataType.changeAt (·.subtract other) l t else t).Describes
      (some v) := by
  split
  · rename_i hsingleton
    refine DataType.describes_changeAt (over_subtract hother) l t ht hv h ?_
    intro w hw u hu hdescribes
    refine (DataType.leaves_subtract u hu hother).2 _ (hv.at? hw).held hdescribes ?_
    intro hwDescribes
    cases hsingle : r.single with
    | value x =>
      obtain ⟨hxOver, hxDescribes⟩ := hr x hsingle
      have hsame := hwDescribes.same_of_isSingleton hxDescribes hother (hv.at? hw) hxOver hsingleton
      rw [hw, hsingle] at hequal
      rw [Result.ofValue?, Result.equal, hsame] at hequal
      cases hequal
    | nothing | logical | nodes =>
      refine hnothing ?_ w hw hsingleton hwDescribes
      rw [hsingle]
      rfl
  · exact h

/-- A comparison whose outcome is as assumed keeps the candidate, if it accounts for absence. -/
theorem describes_narrowComparison (op : Comparison)
    (haccounts : op.Accounts (v.at? l) r.single.value? other) :
    (narrowComparison l op other ((Result.ofValue? (v.at? l)).compare op r) t).Describes
      (some v) := by
  have hsingle : (Result.ofValue? (v.at? l)).single = .ofValue? (v.at? l) := by
    cases v.at? l <;> rfl
  -- what is told of the equality of the two decides how a candidate is narrowed
  have hequality (hop : op = .equal ∨ op = .notEqual) :
      (if Result.equal (.ofValue? (v.at? l)) r.single then
        if other.mayBeNothing then DataType.changeAt (·.intersect other) l t
        else DataType.presentAt l (DataType.changeAt (·.intersect other) l t)
      else if other.isSingleton then DataType.changeAt (·.subtract other) l t
      else t).Describes (some v) := by
    split
    · rename_i hequal
      refine describes_of_equal hv ht hother hr h hequal ?_
      intro habsent
      rw [habsent] at hequal haccounts
      cases hat : v.at? l with
      | none =>
        rw [hat] at haccounts
        rcases hop with rfl | rfl <;> exact haccounts rfl
      | some w =>
        rw [hat] at hequal
        cases hequal
    · rename_i hequal
      refine describes_of_unequal hv ht hother hr h (eq_false_of_ne_true hequal) ?_
      intro hnone w hw
      rw [hw] at haccounts
      rcases hop with rfl | rfl <;> exact haccounts hnone
  have horder (hop : op ≠ .equal ∧ op ≠ .notEqual) :
      (if (Result.ofValue? (v.at? l)).compare op r then DataType.presentAt l t else t).Describes
        (some v) := by
    split
    · rename_i hholds
      cases hat : v.at? l with
      | some w => exact DataType.describes_presentAt l t ht hv h hat
      | none =>
        rw [hat] at hholds haccounts
        obtain ⟨habsent, hor⟩ := Result.nothing_compare hholds hop
        rw [habsent] at haccounts
        rcases hor with rfl | rfl <;> exact absurd rfl (haccounts rfl)
    · exact h
  cases op with
  | equal =>
    unfold narrowComparison
    dsimp only
    rw [Result.compare, hsingle]
    exact hequality (.inl rfl)
  | notEqual =>
    unfold narrowComparison
    dsimp only
    rw [Result.compare, hsingle, Bool.not_not]
    exact hequality (.inr rfl)
  | less | lessOrEqual | greater | greaterOrEqual => exact horder (by decide)

end Result

end Comparisons

section Tests

variable {l : Location} {t : DataType} {v : Json}

/-- A test for something at a location keeps what has it there, and its negation what has not. -/
theorem describes_narrowExistence (hv : v.Over S) (ht : t.Over S) (h : t.Describes (some v)) :
    (narrowExistence l (v.at? l).isSome t).Describes (some v) := by
  unfold narrowExistence
  cases hat : v.at? l with
  | some w => exact DataType.describes_presentAt l t ht hv h hat
  | none =>
    refine DataType.describes_changeAt (over_intersect .primitive) l t ht hv h ?_
    intro w hw
    rw [hat] at hw
    cases hw

theorem describes_foldl_intersect {others : List DataType} (hv : v.Over S) (ht : t.Over S)
    (hothers : ∀ u ∈ others, u.Over S) (h : t.Describes (some v))
    (hall : ∀ u ∈ others, u.Describes (some v)) :
    (others.foldl DataType.intersect t).Describes (some v) := by
  induction others generalizing t with
  | nil => exact h
  | cons u rest ih =>
    obtain ⟨hu, hrest⟩ := List.forall_mem_cons.mp hothers
    obtain ⟨hdescribes, hallRest⟩ := List.forall_mem_cons.mp hall
    refine ih (over_intersect hu t ht) hrest ?_ hallRest
    exact (DataType.meets_intersect t ht u hu).2 _ hv.held h hdescribes

/-- What all tests keep is kept by all together, and what one keeps by some. -/
theorem describes_narrowTogether {others : List DataType} {all : Bool} (hv : v.Over S)
    (ht : t.Over S) (hothers : ∀ u ∈ others, u.Over S)
    (h : if all then ∀ u ∈ t :: others, u.Describes (some v)
      else ∃ u ∈ t :: others, u.Describes (some v)) :
    (narrowTogether all t others).Describes (some v) := by
  unfold narrowTogether
  split
  · rename_i hall
    rw [if_pos hall] at h
    obtain ⟨hfirst, hrest⟩ := List.forall_mem_cons.mp h
    exact describes_foldl_intersect hv ht hothers hfirst hrest
  · rename_i hall
    rw [if_neg hall] at h
    obtain ⟨u, hu, hdescribes⟩ := h
    exact DataType.describes_unionOf (List.forall_mem_cons.mpr ⟨ht, hothers⟩) hv.held hu hdescribes

end Tests

end JsonPath
