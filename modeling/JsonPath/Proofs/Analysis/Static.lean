import JsonPath.Analysis.Static
import JsonPath.Proofs.DataType.Exact
import JsonPath.Proofs.Typing.Soundness

/-!
Static analysis and what it tells of evaluations. The type of an element describes everything
that the element outputs, and a selector that is warned about selects nothing, as long as every
comparison by which candidates are narrowed accounts for absence. A comparison with a literal
always does, while one between two paths may not.
-/

namespace JsonPath

/-- Warnings are given about selectors of the empty type only. -/
theorem Typed.isIdle_of_warning? {e : Typed} (h : e.warning? ≠ none) :
    ∃ selector, e.element = .selector selector ∧ e.type.isNever = true := by
  obtain ⟨element, incoming, type⟩ := e
  cases element <;> cases incoming <;> try exact absurd rfl h
  rename_i selector incoming
  refine ⟨selector, rfl, ?_⟩
  simp only [warning?] at h
  split at h
  · rename_i hidle
    exact (Bool.and_eq_true_iff.mp hidle).2
  · exact absurd rfl h

/-- A comparison with a literal accounts for absence, since a literal is never absent. -/
theorem Expr.accounts_of_isLiteral {types : Nat → Option DataType} {scope : Scope}
    {current : Node} {left right : Expr} {op : Comparison}
    (h : left.isLiteral = true ∨ right.isLiteral = true) :
    left.Accounts types scope current op right := by
  have hliteral {e : Expr} (he : e.isLiteral = true) :
      e.relativeLocation? = none ∧ (e.evaluate scope current).result.single.value? ≠ none := by
    cases e with
    | literal =>
      refine ⟨rfl, ?_⟩
      rw [evaluate]
      nofun
    | _ => cases he
  unfold Accounts
  cases hl : left.relativeLocation? with
  | some l =>
    rcases h with h | h
    · rw [(hliteral h).1] at hl
      cases hl
    · intro t _ hnone
      exact absurd hnone (hliteral h).2
  | none =>
    cases hr : right.relativeLocation? with
    | none => trivial
    | some l =>
      rcases h with h | h
      · intro t _ hnone
        exact absurd hnone (hliteral h).2
      · rw [(hliteral h).1] at hr
        cases hr

namespace Environment

variable {S : NumberSet}

/-- The types of the standard functions have no numbers in them. -/
theorem over_standard : ∀ name f, standard.function? name = some f → f.type.Over S :=
  type_standard (DataType.over_algebraic S)

end Environment

namespace Query

/-- The numbers that the analysis of a query and its evaluation on a document meet belong to the
set: those of the document, of the types, of the literals and of what calls come to. -/
structure Draws (S : NumberSet) (q : Query) (env : Environment) (root : DataType)
    (document : Json) : Prop where
  ofDocument : document.Over S
  ofRoot : root.Over S
  ofFunctions : ∀ name f, env.function? name = some f → f.type.Over S
  ofLiterals : ∀ id token v,
    Element.expression (.literal id token v) ∈ q.tree.elements → v.Over S
  ofCalls : ∀ id name opening arguments closing current result,
    Element.expression (.call id name opening arguments closing) ∈ q.tree.elements →
    Event.expression id current result ∈ (q.trace env document).events → result.Over S

/-- Whenever a comparison is evaluated by which candidates are narrowed, it accounts for
absence. -/
def Accounts (q : Query) (env : Environment) (root : DataType) (document : Json) : Prop :=
  ∀ id left operator op right current result,
    Element.expression (.comparison id left operator op right) ∈ q.tree.elements →
    Event.expression id current result ∈ (q.trace env document).events →
    left.Accounts (q.typeOf? env root) ⟨env, document⟩ current op right

/-- What static analysis tells of a query is true of its evaluation: the type of every element
describes all outputs of the element, and selectors that are warned about select nothing. -/
structure Described (q : Query) (env : Environment) (root : DataType) (document : Json) : Prop where
  outputs : ∀ e ∈ (q.trace env document).events, e.IsTyped (q.typeOf? env root)
  result : ∃ t, q.typeOf? env root q.id = some t ∧
    ∀ n ∈ q.find env document, t.Describes (some n.value)
  idle : ∀ e ∈ q.typed env root, e.warning? ≠ none → ∀ input output,
    Event.selector e.element.id input output ∈ (q.trace env document).events → output = []

/-- Static analysis is sound for documents of the root type, if the functions keep to what they
declare and comparisons account for absence. -/
theorem described_of_accounts {S : NumberSet} {env : Environment} {source : String} {q : Query}
    {root : DataType} {document : Json} (haccept : accept env source = .ok q)
    (henv : env.Faithful) (hdraws : q.Draws S env root document)
    (hroot : root.Describes (some document)) (haccounts : q.Accounts env root document) :
    q.Described env root document := by
  obtain ⟨hpath, hcheck⟩ := wellFormed_of_accept haccept
  have hids : q.tree.ids.Nodup := by
    rw [← parse_of_accept haccept]
    exact parse_ids_nodup source
  have hknown : Typed.AllKnown q.tree.elements (q.typeOf? env root) (q.typed env root) := by
    intro e he
    refine ⟨?_, typeOf?_eq_some hids he⟩
    rw [← q.elements_typed env root]
    exact List.mem_map_of_mem he
  have hrelies : ∀ e ∈ (q.trace env document).events,
      e.Relies S q.tree.elements (q.typeOf? env root) ⟨env, document⟩ := by
    intro event hevent
    cases event with
    | expression id current result =>
      intro e he hid
      subst hid
      cases e with
      | call => exact hdraws.ofCalls _ _ _ _ _ current result he hevent
      | comparison => exact haccounts _ _ _ _ _ current result he hevent
      | _ => trivial
    | query | segment | selector | warning => trivial
  have hfits : Scope.Fits S q.tree.elements ⟨env, document⟩ ⟨env, root, root⟩ :=
    ⟨rfl, henv, ⟨hdraws.ofRoot, hdraws.ofRoot, hdraws.ofFunctions, hdraws.ofLiterals⟩,
      hdraws.ofDocument, hroot⟩
  have hseed : (q.path.seed ⟨env, document⟩ none).IsOf S
      (q.path.seedType ⟨env, root, root⟩) := by
    unfold Path.seedType
    rw [ite_self]
    exact hfits.document
  have htyped := hknown
  simp only [Typed.AllKnown, typed, List.forall_mem_cons, List.forall_mem_append] at htyped
  obtain ⟨⟨-, hquery⟩, ⟨-, hself⟩, hknownPath, -⟩ := htyped
  have htrace : (q.trace env document).Sound S q.tree.elements (q.typeOf? env root)
      ⟨env, document⟩ fun nodes => ∀ n ∈ nodes, n.IsOf S (q.path.type ⟨env, root, root⟩) :=
    Traced.Sound.output (q.path.follow_typed hfits hpath hcheck hknownPath hseed)
      fun nodes hnodes => ⟨_, hself, hnodes⟩
  obtain ⟨hevents, hresult⟩ := htrace hrelies
  refine ⟨hevents, ⟨_, hquery, fun n hn => (hresult n hn).2⟩, ?_⟩
  intro e he hwarning input output hevent
  obtain ⟨t, ht, hdescribes⟩ := hevents _ hevent
  obtain ⟨_, _, hidle⟩ := Typed.isIdle_of_warning? hwarning
  rw [(hknown e he).2] at ht
  cases ht
  cases output with
  | nil => rfl
  | cons n rest =>
    rw [(hdescribes n List.mem_cons_self).isNever] at hidle
    cases hidle

/-- Arrays of objects that may have a number as their only member. -/
def optionalNumbers : DataType := .arrayOf (.ofObject [("a", .ofPrimitive .number)] .bottom [])

/-- An array of two objects, of which the second has no members. -/
def oneNumber : Json := .array [.object [("a", .natural 1)], .object []]

theorem oneNumber_over : oneNumber.Over .whole := by
  have hone : (Json.natural 1).Over .whole := .number ⟨1, by decide, rfl⟩
  have hfirst : (Json.object [("a", .natural 1)]).Over .whole :=
    .object (by decide) (List.forall_mem_singleton.mpr hone)
  have hsecond : (Json.object []).Over .whole := .object List.nodup_nil (List.forall_mem_nil _)
  exact .array (List.forall_mem_cons.mpr ⟨hfirst, List.forall_mem_singleton.mpr hsecond⟩)

theorem optionalNumbers_normal {S : NumberSet} : optionalNumbers.Normal S := by
  unfold optionalNumbers DataType.arrayOf
  apply DataType.normal_ofArray
  · exact List.forall_mem_nil _
  · exact DataType.normal_ofObject _ (List.forall_mem_singleton.mpr .primitive) .never

theorem optionalNumbers_describes : optionalNumbers.Describes (some oneNumber) :=
  ((DataType.standsFor_ofJson oneNumber_over).describes_iff _ optionalNumbers_normal).mp
    (by decide +kernel)

/-- The element is not a call, not a literal other than a whole number, and no comparison without a
literal. -/
def comparesNumbers : Element → Bool
  | .expression (.literal _ _ (.number n)) => n.toInt?.isSome
  | .expression (.literal ..) | .expression (.call ..) => false
  | .expression (.comparison _ left _ _ right) => left.isLiteral || right.isLiteral
  | _ => true

/-- A comparison with a literal, for objects of which one lacks the member that is compared. -/
theorem described_of_accounts_literal :
    accept .standard "$[?@.a == 1]" = .ok (parse "$[?@.a == 1]") ∧
    Environment.standard.Faithful ∧
    (parse "$[?@.a == 1]").Draws .whole .standard optionalNumbers oneNumber ∧
    optionalNumbers.Describes (some oneNumber) ∧
    (parse "$[?@.a == 1]").Accounts .standard optionalNumbers oneNumber ∧
    (parse "$[?@.a == 1]").Described .standard optionalNumbers oneNumber := by
  have haccept : accept .standard "$[?@.a == 1]" = .ok (parse "$[?@.a == 1]") :=
    accept_of_faultless (by decide +kernel) (by decide +kernel)
  have helements : (parse "$[?@.a == 1]").tree.elements.all comparesNumbers = true := by
    decide +kernel
  rw [List.all_eq_true] at helements
  have hdraws : (parse "$[?@.a == 1]").Draws .whole .standard optionalNumbers oneNumber := by
    refine ⟨oneNumber_over, optionalNumbers_normal.over, Environment.over_standard, ?_, ?_⟩
    · intro id token v he
      have h := helements _ he
      cases v with
      | number n =>
        cases n with
        | int i hi => exact .number ⟨i, hi, rfl⟩
        | double => cases h
      | _ => cases h
    · intro id name opening arguments closing current result he
      cases helements _ he
  have haccounts : (parse "$[?@.a == 1]").Accounts .standard optionalNumbers oneNumber := by
    intro id left operator op right current result he _
    exact Expr.accounts_of_isLiteral (Bool.or_eq_true_iff.mp (helements _ he))
  exact ⟨haccept, Environment.standard_faithful, hdraws,
    optionalNumbers_describes, haccounts, described_of_accounts haccept
      Environment.standard_faithful hdraws optionalNumbers_describes haccounts⟩

/-- Two absent members are equal, so an object without them is selected, while the type of the
query says that none is. -/
theorem not_described_absent_members :
    accept .standard "$[?@.a <= @.b]" = .ok (parse "$[?@.a <= @.b]") ∧
    (DataType.ofJson (.array [.object []])).Describes (some (.array [.object []])) ∧
    ¬ (parse "$[?@.a <= @.b]").Described .standard (.ofJson (.array [.object []]))
      (.array [.object []]) := by
  refine ⟨accept_of_faultless (by decide +kernel) (by decide +kernel), ?_, ?_⟩
  · have hempty : (Json.object []).Over .whole := .object List.nodup_nil (List.forall_mem_nil _)
    have hone : (Json.array [.object []]).Over .whole :=
      .array (List.forall_mem_singleton.mpr hempty)
    exact (DataType.describes_ofJson_iff hone.wellFormed hone.wellFormed).mpr rfl
  · intro h
    obtain ⟨t, ht, hnodes⟩ := h.result
    have hnever : ((parse "$[?@.a <= @.b]").typeOf? .standard (.ofJson (.array [.object []]))
        (parse "$[?@.a <= @.b]").id).map DataType.isNever = some true := by
      decide +kernel
    have hfound : (parse "$[?@.a <= @.b]").find .standard (.array [.object []]) ≠ [] := by
      rw [← List.isEmpty_eq_false_iff]
      decide +kernel
    rw [ht, Option.map_some, Option.some_inj] at hnever
    obtain ⟨n, hn⟩ := List.exists_mem_of_ne_nil _ hfound
    rw [(hnodes n hn).isNever] at hnever
    cases hnever

end Query

end JsonPath
