import JsonPath.Proofs.Schema.Acceptance

/-!
What schemas demand if it is known which names match a pattern. The schemas of `patternProperties`
then say something about the members of an object, and those that a pattern matches are no others
to `additionalProperties`. A type is made without regard to patterns, as if they matched nothing.
-/

namespace JsonPath.JsonSchema

/-- The members of an object that a pattern matches are accepted by its schema. -/
def matchingDemand (matched : String → String → Bool) (l : Location) (patterns : Fields Json) :
    Json → Demand
  | .object values => .all (patterns.map fun (pattern, v) => .all (values.map fun (name, value) =>
      if matched pattern name then .schema (l ++ [.name pattern]) v value else .holds true))
  | _ => .holds true

/-- The members of an object that are neither among some others nor matched by a pattern are
accepted by a schema. -/
def unmatchedDemand (matched : String → String → Bool) (l : Location)
    (properties patterns : Fields Json) (v : Json) : Json → Demand
  | .object values => .all (values.map fun (name, value) =>
      if properties.contains name || patterns.names.any (matched · name) then .holds true
      else .schema l v value)
  | _ => .holds true

/-- The schemas by the names, or patterns of names, that a schema has at a keyword. -/
def namedSchemas (members : Fields Json) (keyword : String) : Fields Json :=
  ((members.get? keyword).bind Json.asObject?).getD []

/-- What a keyword of the schema at a location demands of a value. Names are matched by patterns as
`matched` tells. -/
def Document.matchedKeywordDemand (d : Document) (matched : String → String → Bool) (l : Location)
    (members : Fields Json) (value : Json) (keyword : String) (v : Json) : Demand :=
  match keyword with
  | "patternProperties" =>
    match v with
    | .object patterns => matchingDemand matched (l ++ [.name "patternProperties"]) patterns value
    | _ => .unknown
  | "additionalProperties" =>
    unmatchedDemand matched (l ++ [.name "additionalProperties"])
      (namedSchemas members "properties") (namedSchemas members "patternProperties") v value
  | _ => d.keywordDemand l members value keyword v

/-- What the schema at a location demands of a value. -/
def Document.matchedDemand (d : Document) (matched : String → String → Bool) (l : Location)
    (v value : Json) : Demand :=
  match v with
  | .bool b => .holds b
  | .object members => .all (members.map fun (keyword, v) =>
      d.matchedKeywordDemand matched l members value keyword v)
  | _ => .unknown

/-- It is decided whether a demand is met, given what schemas demand. -/
inductive Demand.Decided (demand : Location → Json → Json → Demand) : Demand → Bool → Prop
  | holds (b : Bool) : Decided demand (.holds b) b
  | schema {l : Location} {v value : Json} {b : Bool}
      (inside : Decided demand (demand l v value) b) : Decided demand (.schema l v value) b
  | all {demands : List Demand} (each : ∀ x ∈ demands, Decided demand x true) :
      Decided demand (.all demands) true
  | notAll {demands : List Demand} {x : Demand} (mem : x ∈ demands)
      (unmet : Decided demand x false) : Decided demand (.all demands) false
  | any {demands : List Demand} {x : Demand} (mem : x ∈ demands) (met : Decided demand x true) :
      Decided demand (.any demands) true
  | notAny {demands : List Demand} (each : ∀ x ∈ demands, Decided demand x false) :
      Decided demand (.any demands) false
  | one {demands : List Demand} {verdicts : List Bool} (length : verdicts.length = demands.length)
      (each : ∀ (i : Nat) (x : Demand) (b : Bool), demands[i]? = some x → verdicts[i]? = some b →
        Decided demand x b) :
      Decided demand (.one demands) (verdicts.count true == 1)
  | not {x : Demand} {b : Bool} (decided : Decided demand x b) : Decided demand (.not x) !b

/-- What a document decides is decided by the demands of its schemas, which leave open what patterns
match. -/
theorem Document.decides_iff_decided {d : Document} {x : Demand} {b : Bool} :
    d.Decides x b ↔ x.Decided d.demand b := by
  constructor <;> intro h
  · induction h with
    | holds b => exact .holds b
    | schema _ ih => exact .schema ih
    | all _ ih => exact .all ih
    | notAll mem _ ih => exact .notAll mem ih
    | any mem _ ih => exact .any mem ih
    | notAny _ ih => exact .notAny ih
    | one length _ ih => exact .one length ih
    | not _ ih => exact .not ih
  · induction h with
    | holds b => exact .holds b
    | schema _ ih => exact .schema ih
    | all _ ih => exact .all ih
    | notAll mem _ ih => exact .notAll mem ih
    | any mem _ ih => exact .any mem ih
    | notAny _ ih => exact .notAny ih
    | one length _ ih => exact .one length ih
    | not _ ih => exact .not ih

/-- The schema at a location accepts the value, with names matched by patterns as `matched`
tells. -/
def Document.AcceptsMatching (d : Document) (matched : String → String → Bool) (l : Location)
    (v value : Json) : Prop :=
  Demand.Decided (d.matchedDemand matched) (.schema l v value) true

/-- A demand is met as far as it is one that a type expresses, where `accepts` tells which schemas
accept which values. Of several demands one of which has to be met another may be met as well, and
what is not to be met, or not known, is left open. -/
inductive Demand.Met (accepts : Location → Json → Json → Prop) : Demand → Prop
  | holds : Met accepts (.holds true)
  | schema {l : Location} {v value : Json} (accepted : accepts l v value) :
      Met accepts (.schema l v value)
  | all {demands : List Demand} (each : ∀ x ∈ demands, Met accepts x) : Met accepts (.all demands)
  | any {demands : List Demand} {x : Demand} (mem : x ∈ demands) (met : Met accepts x) :
      Met accepts (.any demands)
  | one {demands : List Demand} {x : Demand} (mem : x ∈ demands) (met : Met accepts x) :
      Met accepts (.one demands)
  | not (x : Demand) : Met accepts (.not x)
  | unknown : Met accepts .unknown

namespace Demand

variable {accepts : Location → Json → Json → Prop} {demand : Location → Json → Json → Demand}
  {demands : List Demand} {x : Demand} {b : Bool}

section Met

@[simp] theorem met_holds : (holds b).Met accepts ↔ b = true := by
  constructor
  · intro h
    cases h
    rfl
  · rintro rfl
    exact .holds

@[simp] theorem met_schema {l : Location} {v value : Json} :
    (schema l v value).Met accepts ↔ accepts l v value := by
  constructor
  · intro h
    cases h with
    | schema h => exact h
  · exact .schema

@[simp] theorem met_all : (all demands).Met accepts ↔ ∀ x ∈ demands, x.Met accepts := by
  constructor
  · intro h
    cases h with
    | all h => exact h
  · exact .all

@[simp] theorem met_any : (any demands).Met accepts ↔ ∃ x ∈ demands, x.Met accepts := by
  constructor
  · intro h
    cases h with
    | any hmem h => exact ⟨_, hmem, h⟩
  · rintro ⟨x, hmem, h⟩
    exact .any hmem h

@[simp] theorem met_one : (one demands).Met accepts ↔ ∃ x ∈ demands, x.Met accepts := by
  constructor
  · intro h
    cases h with
    | one hmem h => exact ⟨_, hmem, h⟩
  · rintro ⟨x, hmem, h⟩
    exact .one hmem h

end Met

/-- Exactly one verdict that is positive stands at some position. -/
theorem exists_of_count_eq_one {verdicts : List Bool} (h : (verdicts.count true == 1) = true) :
    ∃ i : Nat, verdicts[i]? = some true := by
  refine List.mem_iff_getElem?.mp (List.count_pos_iff.mp ?_)
  rw [beq_iff_eq.mp h]
  exact Nat.one_pos

/-- What is decided to be met is met if schemas accept what is decided about them. -/
theorem Decided.met (h : Decided demand x b) (hb : b = true) :
    x.Met fun l v value => Decided demand (.schema l v value) true := by
  induction h with
  | holds => exact met_holds.mpr hb
  | schema inside =>
    subst hb
    exact .schema (.schema inside)
  | all _ ih => exact .all fun x hx => ih x hx rfl
  | notAll | notAny => cases hb
  | any hmem _ ih => exact .any hmem (ih rfl)
  | @one demands verdicts hlength heach ih =>
    obtain ⟨i, hi⟩ := exists_of_count_eq_one hb
    have hlt := hlength ▸ (List.getElem?_eq_some_iff.mp hi).1
    exact .one (List.getElem_mem hlt) (ih i _ true (List.getElem?_eq_getElem hlt) hi rfl)
  | not => exact .not _

end Demand

/-- A relation between schemas and values for which the demands of schemas are met, as a type
expresses them: without regard to patterns. -/
def Document.Respects (d : Document) (accepts : Location → Json → Json → Prop) : Prop :=
  ∀ l v w, d.Schema l v → accepts l v w → (d.matchedDemand (fun _ _ => false) l v w).Met accepts

end JsonPath.JsonSchema
