import JsonPath.Pattern.Reader
import JsonPath.Proofs.Schema.Coverage

/-!
Patterns of names and the types of schemas. To ignore what `patternProperties` demands makes a type
wider, but it also says of which members `additionalProperties` is demanded. That a type describes
all that is accepted needs that `additionalProperties` accepts what the patterns accept.
-/

namespace JsonPath.JsonSchema

/-- A member that a pattern matches, and that is no property, may be what it may be as one that is
not matched, wherever a schema has something to say about such members. -/
def Document.AdmitsMatched (d : Document) (matched : String → String → Bool) : Prop :=
  ∀ l (members : Fields Json) pattern v additional, d.Schema l (.object members) →
    (pattern, v) ∈ namedSchemas members "patternProperties" →
    members.get? "additionalProperties" = some additional →
    ∀ name, matched pattern name = true →
      (namedSchemas members "properties").contains name = false →
    ∀ w, d.AcceptsMatching matched (l ++ [.name "patternProperties", .name pattern]) v w →
      d.AcceptsMatching matched (l ++ [.name "additionalProperties"]) additional w

variable {d : Document} {S : NumberSet} {accepts : Location → Json → Json → Prop}
  {matched : String → String → Bool} {l : Location} {members patterns values : Fields Json}
  {keyword pattern name : String} {v w : Json}

theorem matchedKeywordDemand_eq (hpatterns : keyword ≠ "patternProperties")
    (hadditional : keyword ≠ "additionalProperties") :
    d.matchedKeywordDemand matched l members w keyword v =
      d.keywordDemand l members w keyword v := by
  unfold Document.matchedKeywordDemand
  split
  · exact absurd rfl hpatterns
  · exact absurd rfl hadditional
  · rfl

/-- The demands of a schema are those of its keywords. -/
theorem met_matchedDemand_iff (hnodup : members.names.Nodup) :
    (d.matchedDemand matched l (.object members) w).Met accepts ↔
      ∀ keyword v, members.get? keyword = some v →
        (d.matchedKeywordDemand matched l members w keyword v).Met accepts := by
  refine Demand.met_all.trans (List.forall_mem_map.trans ⟨?_, ?_⟩)
  · intro h keyword v hv
    exact h _ (Fields.mem_of_get?_eq_some hv)
  · rintro h ⟨keyword, v⟩ hmem
    exact h keyword v (Fields.get?_eq_some_of_mem hnodup hmem)

/-- Patterns that match nothing demand nothing. -/
theorem met_patternProperties :
    (d.matchedKeywordDemand (fun _ _ => false) l members w "patternProperties" v).Met accepts := by
  cases v with
  | object patterns =>
    cases w with
    | object values =>
      refine .all (List.forall_mem_map.mpr fun p _ => .all (List.forall_mem_map.mpr fun m _ => ?_))
      exact .holds
    | null | bool | number | string | array => exact .holds
  | null | bool | number | string | array => exact .unknown

/-- A member is accepted by the schemas of the patterns that match it. -/
theorem accepts_of_matched
    (hmet : (matchingDemand matched l patterns (.object values)).Met accepts)
    (hpattern : (pattern, v) ∈ patterns) (hname : (name, w) ∈ values)
    (hmatched : matched pattern name = true) : accepts (l ++ [.name pattern]) v w := by
  have hmember := Demand.met_all.mp (Demand.met_all.mp hmet _ (List.mem_map_of_mem hpattern)) _
    (List.mem_map_of_mem hname)
  dsimp only at hmember
  rw [if_pos hmatched] at hmember
  exact Demand.met_schema.mp hmember

/-- The patterns of a schema demand what they do of its members. -/
theorem met_namedSchemas
    (hmet : ∀ v, members.get? "patternProperties" = some v →
      (d.matchedKeywordDemand matched l members (.object values) "patternProperties" v).Met
        accepts) :
    (matchingDemand matched (l ++ [.name "patternProperties"])
      (namedSchemas members "patternProperties") (.object values)).Met accepts := by
  unfold namedSchemas
  cases hv : members.get? "patternProperties" with
  | none => exact .all nofun
  | some v =>
    cases v with
    | object patterns => exact hmet _ hv
    | null | bool | number | string | array => exact .all nofun

/-- All members but the properties are accepted by `additionalProperties`, those that a pattern
matches because their schemas accept no more. -/
theorem met_additionalProperties (hadmits : d.AdmitsMatched matched)
    (hschema : d.Schema l (.object members)) (hv : members.get? "additionalProperties" = some v)
    (hmet : ∀ keyword v, members.get? keyword = some v →
      (d.matchedKeywordDemand matched l members w keyword v).Met (d.AcceptsMatching matched)) :
    (d.matchedKeywordDemand (fun _ _ => false) l members w "additionalProperties" v).Met
      (d.AcceptsMatching matched) := by
  cases w with
  | object values =>
    have hpatterns := met_namedSchemas (hmet "patternProperties")
    have hothers := Demand.met_all.mp (hmet "additionalProperties" v hv)
    refine .all (List.forall_mem_map.mpr ?_)
    rintro ⟨name, value⟩ hmem
    have hother := hothers _ (List.mem_map_of_mem hmem)
    dsimp only at hother ⊢
    cases hproperty : (namedSchemas members "properties").contains name with
    | true => exact .holds
    | false =>
      rw [hproperty, Bool.false_or] at hother
      have hnone : ((namedSchemas members "patternProperties").names.any fun _ => false) = false :=
        List.any_eq_false.mpr fun _ _ => Bool.false_ne_true
      rw [Bool.false_or, hnone, if_neg Bool.false_ne_true, Demand.met_schema]
      split at hother
      · rename_i hany
        obtain ⟨pattern, hpattern, hmatched⟩ := List.any_eq_true.mp hany
        obtain ⟨⟨_, schema⟩, hpair, rfl⟩ := List.mem_map.mp hpattern
        have haccepts := accepts_of_matched hpatterns hpair hmem hmatched
        rw [List.append_assoc] at haccepts
        exact hadmits l members _ schema v hschema hpair hv name hmatched hproperty value haccepts
      · exact Demand.met_schema.mp hother
  | null | bool | number | string | array => exact .holds

/-- What is accepted with regard to patterns meets what is demanded without. -/
theorem respects_acceptsMatching (hroot : d.root.Over S) (hadmits : d.AdmitsMatched matched) :
    d.Respects (d.AcceptsMatching matched) := by
  intro l v w hschema haccepts
  have hmet : (d.matchedDemand matched l v w).Met (d.AcceptsMatching matched) := by
    cases haccepts with
    | schema inside => exact inside.met rfl
  cases v with
  | object members =>
    have hnodup : (Fields.names members).Nodup := by
      cases hroot.at? hschema.at? with
      | object hnodup _ => exact hnodup
    rw [met_matchedDemand_iff hnodup] at hmet ⊢
    intro keyword v hv
    by_cases hpatterns : keyword = "patternProperties"
    · subst hpatterns
      exact met_patternProperties
    by_cases hadditional : keyword = "additionalProperties"
    · subst hadditional
      exact met_additionalProperties hadmits hschema hv hmet
    · rw [matchedKeywordDemand_eq hpatterns hadditional,
        ← matchedKeywordDemand_eq hpatterns hadditional]
      exact hmet keyword v hv
  | bool b => exact hmet
  | null | number | string | array => exact .unknown

/-- The type of a document without `not` describes all values that the document accepts, whichever
names the patterns match, if `additionalProperties` accepts what the patterns accept. -/
theorem describes_of_acceptsMatching (hroot : d.root.Over S) (hd : d.LooselyFormed)
    (hnot : ∀ l (members : Fields Json), d.Schema l (.object members) →
      members.get? "not" = none)
    (hadmits : d.AdmitsMatched matched) (hw : w.Over S)
    (haccepts : d.AcceptsMatching matched [] d.root w) :
    d.converted.type.Describes (some w) :=
  covers_answer hd hroot hnot (respects_acceptsMatching hroot hadmits) (List.forall_mem_nil _) .root
    w hw haccepts

/-- A pattern matches the names in which it is found. -/
def foundIn (pattern name : String) : Bool :=
  (Pattern.Regex.ofChars? pattern.toList).any (·.finds name.toList)

def numbers : Json := .object [("type", .string "number")]

/-- Objects whose members are numbers if there is an x in their names. -/
def measured (additional : Json) : Json :=
  .object [("type", .string "object"), ("patternProperties", .object [("x", numbers)]),
    ("additionalProperties", additional)]

/-- An object with an x in the name of its member. -/
def measure : Json := .object [("x1", .natural 1)]

section Measured

variable {additional : Json}

theorem member_measured (hadditional : additional = .bool false ∨ additional = numbers)
    (h : (l = [] ∧ Json.object members = measured additional) ∨
      (l = [.name "patternProperties", .name "x"] ∧ Json.object members = numbers) ∨
      (l = [.name "additionalProperties"] ∧ Json.object members = additional))
    (hv : members.get? keyword = some v) :
    (keyword = "type" ∧ ∃ name, v = .string name) ∨
      (keyword = "patternProperties" ∧ l = [] ∧ v = .object [("x", numbers)]) ∨
      (keyword = "additionalProperties" ∧ l = [] ∧ v = additional) := by
  have hmem := Fields.mem_of_get?_eq_some hv
  have htype (hnumbers : Json.object members = numbers) :
      keyword = "type" ∧ ∃ name, v = .string name := by
    cases hnumbers
    obtain ⟨rfl, rfl⟩ := by simpa using hmem
    exact ⟨rfl, _, rfl⟩
  rcases h with ⟨hl, heq⟩ | ⟨-, heq⟩ | ⟨-, heq⟩
  · cases heq
    simp only [List.mem_cons, Prod.mk.injEq, List.not_mem_nil, or_false] at hmem
    rcases hmem with ⟨rfl, rfl⟩ | ⟨rfl, rfl⟩ | ⟨rfl, rfl⟩
    · exact .inl ⟨rfl, _, rfl⟩
    · exact .inr (.inl ⟨rfl, hl, rfl⟩)
    · exact .inr (.inr ⟨rfl, hl, rfl⟩)
  · exact .inl (htype heq)
  · rcases hadditional with rfl | rfl
    · cases heq
    · exact .inl (htype heq)

theorem schema_measured (hadditional : additional = .bool false ∨ additional = numbers)
    (h : (Document.ofJson (measured additional) none).Schema l v) :
    (l = [] ∧ v = measured additional) ∨
      (l = [.name "patternProperties", .name "x"] ∧ v = numbers) ∨
      (l = [.name "additionalProperties"] ∧ v = additional) := by
  induction h with
  | root => exact .inl ⟨rfl, rfl⟩
  | member _ known mem ih =>
    rcases member_measured hadditional ih mem with ⟨rfl, -⟩ | ⟨rfl, -⟩ | ⟨rfl, rfl, rfl⟩
    · exact absurd known (by decide)
    · exact absurd known (by decide)
    · exact .inr (.inr ⟨rfl, rfl⟩)
  | item _ known mem _ ih =>
    rcases member_measured hadditional ih mem with ⟨rfl, -⟩ | ⟨rfl, -⟩ | ⟨rfl, -⟩ <;>
      exact absurd known (by decide)
  | named _ known mem mem' ih =>
    rcases member_measured hadditional ih mem with ⟨rfl, -⟩ | ⟨rfl, rfl, heq⟩ | ⟨rfl, -⟩
    · exact absurd known (by decide)
    · cases heq
      obtain ⟨rfl, rfl⟩ := by simpa using Fields.mem_of_get?_eq_some mem'
      exact .inr (.inl ⟨rfl, rfl⟩)
    · exact absurd known (by decide)
  | referred _ mem _ ih =>
    rcases member_measured hadditional ih mem with ⟨heq, -⟩ | ⟨heq, -⟩ | ⟨heq, -⟩ <;>
      exact absurd heq (by decide)

theorem wellFormed_measured (hadditional : additional = .bool false ∨ additional = numbers) :
    (Document.ofJson (measured additional) none).WellFormed where
  schema l v h := by
    rcases schema_measured hadditional h with ⟨-, rfl⟩ | ⟨-, rfl⟩ | ⟨-, rfl⟩
    · exact .inr rfl
    · exact .inr rfl
    · rcases hadditional with rfl | rfl
      · exact .inl rfl
      · exact .inr rfl
  keyword l members h keyword v hv := by
    rcases member_measured hadditional (schema_measured hadditional h) hv with
      ⟨rfl, name, rfl⟩ | ⟨rfl, -, rfl⟩ | ⟨rfl, -⟩ <;> rfl

theorem over_measured (hadditional : additional = .bool false ∨ additional = numbers) :
    (measured additional).Over .whole := by
  have hnumbers : numbers.Over .whole :=
    .object (by decide) (List.forall_mem_singleton.mpr (.string _))
  have hover : additional.Over .whole := by
    rcases hadditional with rfl | rfl
    · exact .bool false
    · exact hnumbers
  have hnodup : ["type", "patternProperties", "additionalProperties"].Nodup := by decide
  exact .object hnodup (List.forall_mem_cons.mpr ⟨.string _, List.forall_mem_cons.mpr
    ⟨.object (by decide) (List.forall_mem_singleton.mpr hnumbers),
      List.forall_mem_singleton.mpr hover⟩⟩)

theorem get?_not_measured (hadditional : additional = .bool false ∨ additional = numbers)
    (h : (Document.ofJson (measured additional) none).Schema l (.object members)) :
    members.get? "not" = none := by
  cases hv : members.get? "not" with
  | none => rfl
  | some v =>
    rcases member_measured hadditional (schema_measured hadditional h) hv with
      ⟨heq, -⟩ | ⟨heq, -⟩ | ⟨heq, -⟩ <;> exact absurd heq (by decide)

theorem accepts_measure :
    (Document.ofJson (measured additional) none).AcceptsMatching foundIn [] (measured additional)
      measure := by
  have hnumber : (Document.ofJson (measured additional) none).AcceptsMatching foundIn
      [.name "patternProperties", .name "x"] numbers (.natural 1) :=
    .schema (.all (List.forall_mem_singleton.mpr (.holds true)))
  refine .schema (.all (List.forall_mem_cons.mpr ⟨.holds true, List.forall_mem_cons.mpr
    ⟨.all (List.forall_mem_singleton.mpr (.all (List.forall_mem_singleton.mpr ?_))),
      List.forall_mem_singleton.mpr (.all (List.forall_mem_singleton.mpr ?_))⟩⟩))
  · exact hnumber
  · exact .holds true

theorem over_measure : measure.Over .whole :=
  .object (by decide) (List.forall_mem_singleton.mpr (.number ⟨1, by decide, rfl⟩))

/-- The same is demanded of members whether the pattern matches them or not. -/
theorem admitsMatched_numbers :
    (Document.ofJson (measured numbers) none).AdmitsMatched foundIn := by
  intro l members pattern v additional hschema hpattern hadditional name _ _ w haccepts
  have hnumbers : numbers = .bool false ∨ numbers = numbers := .inr rfl
  have hpatterns : v = numbers := by
    rw [namedSchemas] at hpattern
    cases hv : Fields.get? members "patternProperties" with
    | none =>
      rw [hv] at hpattern
      cases hpattern
    | some patterns =>
      rw [hv] at hpattern
      rcases member_measured hnumbers (schema_measured hnumbers hschema) hv with
        ⟨heq, -⟩ | ⟨-, -, rfl⟩ | ⟨heq, -⟩
      · exact absurd heq (by decide)
      · exact congrArg Prod.snd (List.mem_singleton.mp hpattern)
      · exact absurd heq (by decide)
  have hothers : additional = numbers := by
    rcases member_measured hnumbers (schema_measured hnumbers hschema) hadditional with
      ⟨heq, -⟩ | ⟨heq, -⟩ | ⟨-, -, rfl⟩
    · exact absurd heq (by decide)
    · exact absurd heq (by decide)
    · rfl
  subst hpatterns hothers
  cases haccepts with
  | schema inside => exact .schema inside

theorem describes_of_acceptsMatching_numbers :
    (measured numbers).Over .whole ∧ (Document.ofJson (measured numbers) none).LooselyFormed ∧
    (∀ l (members : Fields Json),
      (Document.ofJson (measured numbers) none).Schema l (.object members) →
        members.get? "not" = none) ∧
    (Document.ofJson (measured numbers) none).AdmitsMatched foundIn ∧ measure.Over .whole ∧
    (Document.ofJson (measured numbers) none).AcceptsMatching foundIn [] (measured numbers)
      measure ∧
    (Document.ofJson (measured numbers) none).converted.type.Describes (some measure) := by
  have hnumbers : numbers = .bool false ∨ numbers = numbers := .inr rfl
  have hnot (l : Location) (members : Fields Json)
      (h : (Document.ofJson (measured numbers) none).Schema l (.object members)) :
      Fields.get? members "not" = none := get?_not_measured hnumbers h
  have hformed := (wellFormed_measured hnumbers).loosely
  exact ⟨over_measured hnumbers, hformed, hnot, admitsMatched_numbers, over_measure,
    accepts_measure, describes_of_acceptsMatching (over_measured hnumbers) hformed hnot
      admitsMatched_numbers over_measure accepts_measure⟩

end Measured

/-- That `additionalProperties` accepts nothing is taken to be said of all members, also of those
that a pattern matches. -/
theorem not_describes_measure :
    (Document.ofJson (measured (.bool false)) none).WellFormed ∧
    (∀ l (members : Fields Json),
      (Document.ofJson (measured (.bool false)) none).Schema l (.object members) →
        members.get? "not" = none) ∧
    (Document.ofJson (measured (.bool false)) none).AcceptsMatching foundIn []
      (measured (.bool false)) measure ∧
    ¬ (Document.ofJson (measured (.bool false)) none).converted.type.Describes (some measure) := by
  refine ⟨wellFormed_measured (.inl rfl), fun _ _ => get?_not_measured (.inl rfl),
    accepts_measure, ?_⟩
  intro hdescribes
  have htype : (Document.ofJson (measured (.bool false)) none).converted.type =
      .object [] (.never {}) [] {} := rfl
  rw [htype] at hdescribes
  cases hdescribes with
  | object _ heach => cases heach "x1" _ rfl

end JsonPath.JsonSchema
