import JsonPath.Proofs.Typing.Combination

/-!
Narrowing by tests against literals. A literal is never absent, so that a comparison with one
accounts for the absence of what it is compared with, on whichever side it stands. Combinations of
such comparisons, of tests for existence and of calls keep every candidate for which they come out
as assumed.
-/

namespace JsonPath

variable {S : NumberSet} {s : TypeScope} {scope : Scope} {current : Node} {t : DataType}

namespace Expr

/-- A path or a call as a test, or a comparison of a path with a literal, in either order. -/
inductive IsLiteralTest (S : NumberSet) : Expr → Prop
  | path {id : Nat} {p : Path} : IsLiteralTest S (.path id p)
  | call {id : Nat} {name opening closing : Token} {arguments : Arguments} :
      IsLiteralTest S (.call id name opening arguments closing)
  | compareRight {id left right : Nat} {p : Path} {operator token : Token} {op : Comparison}
      {v : Json} (numbers : v.Over S) :
      IsLiteralTest S (.comparison id (.path left p) operator op (.literal right token v))
  | compareLeft {id left right : Nat} {p : Path} {operator token : Token} {op : Comparison}
      {v : Json} (numbers : v.Over S) :
      IsLiteralTest S (.comparison id (.literal left token v) operator op (.path right p))

/-- The expression, used to narrow types by what it comes to, keeps the current value. -/
structure Keeps (S : NumberSet) (s : TypeScope) (scope : Scope) (current : Node) (e : Expr) :
    Prop where
  numbers : ∀ b (t : DataType), t.Over S → (e.narrow s b t).Over S
  describes : ∀ t : DataType, t.Over S → t.Describes (some current.value) →
    (e.narrow s (e.result scope current).holds t).Describes (some current.value)

/-- An expression that does not narrow keeps everything. -/
theorem Keeps.of_narrow_eq {e : Expr} (h : ∀ b t, e.narrow s b t = t) :
    e.Keeps S s scope current where
  numbers b t ht := by
    rw [h]
    exact ht
  describes t _ hdescribes := by
    rw [h]
    exact hdescribes

theorem Keeps.not {id : Nat} {bang : Token} {inner : Expr} (h : inner.Keeps S s scope current) :
    (not id bang inner).Keeps S s scope current where
  numbers b t ht := h.numbers (!b) t ht
  describes t ht hdescribes := by
    have hkept := h.describes t ht hdescribes
    rw [Expr.result, Expr.narrow, Result.holds, Bool.not_not]
    exact hkept

theorem Keeps.parens {id : Nat} {opening closing : Token} {inner : Expr}
    (h : inner.Keeps S s scope current) :
    (parens id opening inner closing).Keeps S s scope current where
  numbers b t ht := h.numbers b t ht
  describes t ht hdescribes := by
    have hkept := h.describes t ht hdescribes
    rw [Expr.result, Expr.narrow]
    exact hkept

theorem Keeps.joins {e first : Expr} {others : List Expr} {all : Bool → Bool}
    (hcurrent : current.value.Over S) (he : e.Joins first others all)
    (h : ∀ o ∈ first :: others, o.Keeps S s scope current) : e.Keeps S s scope current := by
  obtain ⟨hfirst, hothers⟩ := List.forall_mem_cons.mp h
  have hover (b : Bool) (t : DataType) (ht : t.Over S) :
      ∀ u ∈ others.map fun o => o.narrow s b t, u.Over S :=
    List.forall_mem_map.mpr fun o ho => (hothers o ho).numbers b t ht
  constructor
  · intro b t ht
    rw [he.narrow]
    exact (DataType.over_algebraic S).narrowTogether _ (hfirst.numbers b t ht) (hover b t ht)
  · intro t ht hdescribes
    have hkept (o : Expr) (ho : o ∈ first :: others)
        (hholds : (o.result scope current).holds = (e.result scope current).holds) :
        (o.narrow s (e.result scope current).holds t).Describes (some current.value) := by
      rw [← hholds]
      exact (h o ho).describes t ht hdescribes
    have hoperands := (he.holds_iff scope current _).mp rfl
    rw [he.narrow]
    refine describes_narrowTogether hcurrent (hfirst.numbers _ t ht) (hover _ t ht) ?_
    apply (together_map_iff (f := fun o : Expr => o.narrow s (e.result scope current).holds t)).mpr
    split at hoperands
    · rename_i hall
      rw [if_pos hall]
      exact fun o ho => hkept o ho (hoperands o ho)
    · rename_i hall
      rw [if_neg hall]
      obtain ⟨o, ho, hholds⟩ := hoperands
      exact ⟨o, ho, hkept o ho hholds⟩

theorem Keeps.path (hcurrent : current.value.Over S) (id : Nat) (p : Path) :
    (path id p).Keeps S s scope current := by
  cases hl : p.relativeLocation? with
  | none =>
    refine .of_narrow_eq fun b t => ?_
    rw [Expr.narrow, hl]
    rfl
  | some l =>
    have hnarrow (b : Bool) (t : DataType) :
        (Expr.path id p).narrow s b t = narrowExistence l b t := by
      rw [Expr.narrow, hl]
    constructor
    · intro b t ht
      rw [hnarrow]
      exact (DataType.over_algebraic S).narrowExistence l b ht
    · intro t ht hdescribes
      rw [hnarrow, (result_path hl scope current).2]
      exact describes_narrowExistence hcurrent ht hdescribes

/-- A comparison with a literal, by whichever operator, keeps the candidate. -/
theorem describes_narrowComparison_ofJson {l : Location} {v : Json}
    (hcurrent : current.value.Over S) (hv : v.Over S) (ht : t.Over S)
    (hdescribes : t.Describes (some current.value)) (op : Comparison) :
    (narrowComparison l op (.ofJson v)
      ((Result.ofValue? (current.value.at? l)).compare op (.value v)) t).Describes
        (some current.value) := by
  have hself : (DataType.ofJson v).Describes (some v) :=
    (DataType.describes_ofJson_iff hv.wellFormed hv.wellFormed).mpr (Json.same_refl hv)
  refine describes_narrowComparison hcurrent ht (DataType.normal_ofJson hv).over ?_ hdescribes op ?_
  · intro w hw
    cases hw
    exact ⟨hv, hself⟩
  · exact nofun

/-- What narrows by, and comes to, the comparison of what is at a location with a literal. -/
theorem Keeps.of_comparison {e : Expr} {p : Path} {op : Comparison} {v : Json}
    (hcurrent : current.value.Over S) (hv : v.Over S)
    (hnarrow : ∀ b t, e.narrow s b t =
      match p.relativeLocation? with
      | some l => narrowComparison l op (.ofJson v) b t
      | none => t)
    (hresult : ∀ l, p.relativeLocation? = some l → (e.result scope current).holds =
      (Result.ofValue? (current.value.at? l)).compare op (.value v)) :
    e.Keeps S s scope current := by
  cases hl : p.relativeLocation? with
  | none =>
    refine .of_narrow_eq fun b t => ?_
    rw [hnarrow, hl]
  | some l =>
    constructor
    · intro b t ht
      rw [hnarrow, hl]
      exact (DataType.over_algebraic S).narrowComparison l op b (DataType.normal_ofJson hv).over ht
    · intro t ht hdescribes
      rw [hnarrow, hl, hresult l hl]
      exact describes_narrowComparison_ofJson hcurrent hv ht hdescribes op

variable {id left right : Nat} {p : Path} {operator token : Token} {op : Comparison} {v : Json}

theorem Keeps.compareRight (hcurrent : current.value.Over S) (hv : v.Over S) :
    (comparison id (.path left p) operator op (.literal right token v)).Keeps S s scope
      current := by
  refine @Keeps.of_comparison S s scope current _ p op v hcurrent hv ?_ ?_
  · intro b t
    rw [Expr.narrow, relativeLocation?]
    cases p.relativeLocation? <;> rfl
  · intro l hl
    rw [Expr.result]
    apply Result.compare_of_single
    rw [(result_path hl scope current).1, Result.single_ofValue?]

/-- A literal on the left is compared as if it stood on the right, with the mirrored operator. -/
theorem Keeps.compareLeft (hcurrent : current.value.Over S) (hv : v.Over S) :
    (comparison id (.literal left token v) operator op (.path right p)).Keeps S s scope
      current := by
  refine @Keeps.of_comparison S s scope current _ p op.mirror v hcurrent hv ?_ ?_
  · intro b t
    have hleft : (literal left token v).relativeLocation? = none := rfl
    have hright : (Expr.path right p).relativeLocation? = p.relativeLocation? := rfl
    rw [Expr.narrow, hleft, hright]
    cases p.relativeLocation? <;> rfl
  · intro l hl
    have hlocated : ((Expr.path right p).result scope current).single =
        .ofValue? (current.value.at? l) := (result_path hl scope current).1
    have hfound : ((Expr.path right p).result scope current).Single S := by
      intro w hw
      rw [hlocated] at hw
      cases hat : current.value.at? l with
      | none =>
        rw [hat] at hw
        cases hw
      | some x =>
        rw [hat] at hw
        cases hw
        exact hcurrent.at? hat
    have hliteral : (Result.value v).Single S := by
      intro w hw
      cases hw
      exact hv
    have hvalue : (Expr.literal left token v).result scope current = .value v := by
      rw [Expr.result]
    rw [Expr.result, Result.holds, hvalue]
    calc (Result.value v).compare op ((Expr.path right p).result scope current)
      _ = ((Expr.path right p).result scope current).compare op.mirror (.value v) :=
          (Result.compare_mirror hliteral hfound op).symm
      _ = (Result.ofValue? (current.value.at? l)).compare op.mirror (.value v) :=
          Result.compare_of_single (hlocated.trans (Result.single_ofValue? _).symm)

theorem IsLiteralTest.keeps {e : Expr} (hcurrent : current.value.Over S)
    (h : e.IsLiteralTest S) : e.Keeps S s scope current := by
  cases h with
  | path => exact .path hcurrent _ _
  | call => exact .of_narrow_eq fun _ _ => rfl
  | compareRight hv => exact .compareRight hcurrent hv
  | compareLeft hv => exact .compareLeft hcurrent hv

/-- Narrowing by a combination of tests against literals keeps a value for which it comes out as
assumed. -/
theorem describes_narrow_of_literals {e : Expr} {b : Bool} (he : e.Combines (IsLiteralTest S))
    (ht : t.Over S) (hcurrent : current.value.Over S) (h : t.Describes (some current.value))
    (hb : (e.evaluate scope current).result.holds = b) :
    (e.narrow s b t).Describes (some current.value) := by
  have hkeeps : e.Keeps S s scope current := by
    refine he.of_joins (fun _ htest => htest.keeps hcurrent) ?_ ?_ ?_
    · exact fun _ _ _ hinner => hinner.not
    · exact fun _ _ _ _ hinner => hinner.parens
    · exact fun _ _ _ _ hjoins hoperands => .joins hcurrent hjoins hoperands
  rw [evaluate_result] at hb
  rw [← hb]
  exact hkeeps.describes t ht h

/-- The test `@.id == 1 || !('x' != @.name)`. -/
def idOrName : Expr :=
  .or 0 (.comparison 0 (.path 0 (.leadingTo [.name "id"])) (.bare .equal) .equal
      (.literal 0 (.bare .number) (.natural 1)))
    (.bare .or) (.last (.not 0 (.bare .not) (.parens 0 (.bare .leftParen)
      (.comparison 0 (.literal 0 (.bare .string) (.string "x")) (.bare .notEqual) .notEqual
        (.path 0 (.leadingTo [.name "name"]))) (.bare .rightParen))))

/-- Objects with a number or a text as `id`, and other texts. -/
def identified : DataType :=
  .ofObject [("id", .unionOf [.ofPrimitive .number, .ofPrimitive .string])]
    (.ofPrimitive .string) []

theorem describes_narrow_of_literals_idOrName :
    idOrName.Combines (IsLiteralTest .whole) ∧ identified.Over .whole ∧
      (idOrName.narrow ⟨.standard, .top, .top⟩ true identified).Describes
        (some (.object [("id", .natural 1)])) ∧
      (idOrName.narrow ⟨.standard, .top, .top⟩ false identified).Describes
        (some (.object [("id", .string "a")])) := by
  have hid : (DataType.unionOf [.ofPrimitive .number, .ofPrimitive .string]).Built .whole :=
    .unionOf (DataType.forall_mem_pair (.primitive _) (.primitive _))
  have hnormal : identified.Normal .whole :=
    (DataType.Built.ofObject _ (List.forall_mem_singleton.mpr hid) (.primitive _)).normal
  have hone : (Json.natural 1).Over .whole := .number ⟨1, by decide, rfl⟩
  have htests : idOrName.Combines (IsLiteralTest .whole) :=
    .or (.test (.compareRight hone)) (List.forall_mem_singleton.mpr
      (.not (.parens (.test (.compareLeft (.string "x"))))))
  have hobject {v : Json} (hv : v.Over .whole) : (Json.object [("id", v)]).Over .whole :=
    .object (List.pairwise_singleton _ "id") (List.forall_mem_singleton.mpr hv)
  have hnumber := hobject hone
  have htext := hobject (.string "a")
  have hdescribesNumber := hnormal.describes_of_ofJson hnumber (by decide)
  have hdescribesText := hnormal.describes_of_ofJson htext (by decide)
  have htrue : (idOrName.evaluate ⟨.standard, .null⟩
      ⟨.object [("id", .natural 1)], []⟩).result.holds = true := by decide
  have hfalse : (idOrName.evaluate ⟨.standard, .null⟩
      ⟨.object [("id", .string "a")], []⟩).result.holds = false := by decide
  exact ⟨htests, hnormal.over,
    describes_narrow_of_literals htests hnormal.over hnumber hdescribesNumber htrue,
    describes_narrow_of_literals htests hnormal.over htext hdescribesText hfalse⟩

end Expr

end JsonPath
