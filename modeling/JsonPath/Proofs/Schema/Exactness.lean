import JsonPath.Proofs.DataType.Step
import JsonPath.Proofs.Schema.Asked
import JsonPath.Proofs.Schema.Keywords

/-!
What is known about the values that the type of a schema describes. If an answer is exact these are
the values that the schema accepts. If it is not, the type describes at least these values, as long
as the schemas under `not` are converted exactly. A type that describes too much excludes too much,
so that this condition cannot be left out.
-/

namespace JsonPath

theorem DataType.describes_annotate {t : DataType} {notes : Annotations} {v : Option Json} :
    (t.annotate notes).Describes v ↔ t.Describes v := by
  unfold annotate
  split
  · rfl
  · exact describes_withNotes

theorem DataType.normal_annotate {S : NumberSet} {t : DataType} {notes : Annotations} :
    (t.annotate notes).Normal S ↔ t.Normal S := by
  unfold annotate
  split
  · rfl
  · exact normal_withNotes

namespace JsonSchema

variable {d : Document} {S : NumberSet} {A : Location → Json → DataType → Prop} {wide : Bool}
  {l : Location} {v : Json} {t : DataType}

theorem Document.Schema.at? (h : d.Schema l v) : d.root.at? l = some v := by
  induction h with
  | root => rfl
  | member _ _ hmem ih => simp [Json.at?_append, ih, Json.at?, Json.child?, hmem]
  | item _ _ hmem hmem' ih => simp [Json.at?_append, ih, Json.at?, Json.child?, hmem, hmem']
  | named _ _ hmem hmem' ih => simp [Json.at?_append, ih, Json.at?, Json.child?, hmem, hmem']
  | referred _ _ hleads _ => exact at?_of_resolve? hleads

theorem meets_annotations {members : Fields Json} {w : Json} :
    d.Meets l members w annotations := by
  intro keyword hkeyword v _
  simp only [annotations, List.mem_cons, List.not_mem_nil, or_false] at hkeyword
  rcases hkeyword with
    rfl | rfl | rfl | rfl | rfl | rfl | rfl | rfl | rfl | rfl | rfl | rfl | rfl <;>
    exact .holds true

theorem fitted_node (hd : d.LooselyFormed) (hcounts : wide = false → d.WellFormed)
    (hroot : d.root.Over S) {members : Fields Json} (hschema : d.Schema l (.object members))
    (htold : ∀ l v t, d.Schema l v → A l v t → d.Fits S wide l v t)
    (hsupported : (members.names.any fun k => !supported.contains k) = true → wide = true) :
    d.Fitted S A wide l members fun steps v => Plan.node (l ++ steps) v where
  formed := hd
  counts := hcounts
  schema := hschema
  numbers := hroot.at? hschema.at?
  inside steps v t hv hnode := htold _ v t hv (Plan.makes_node.mp hnode)
  supported hexact keyword hkeyword := by
    refine Classical.byContradiction fun hother => ?_
    have hany : (members.names.any fun k => !supported.contains k) = true :=
      List.any_eq_true.mpr ⟨keyword, hkeyword, by simpa using hother⟩
    exact nomatch hexact.symm.trans (hsupported hany)

/-- A type that is judged by all keywords is that of the schema. -/
theorem fits_of_expressed {members : Fields Json} (hnodup : members.names.Nodup)
    (ht : d.Expressed S wide l members ("type" :: structural ++ ["enum"] ++ ["const"] ++ ["allOf"] ++
      ["anyOf"] ++ ["oneOf"] ++ ["$ref"] ++ ["not"]) t)
    (hsupported : wide = false → ∀ keyword ∈ members.names, keyword ∈ supported) :
    d.Fits S wide l (.object members) t where
  normal := ht.normal
  judges w hw := by
    have hjudged := expresses_append (ht.expresses w hw)
      (expresses_nothing fun _ => meets_annotations)
    rw [judges_schema]
    refine (judges_keywords hnodup hjudged ?_).congr (iff_of_eq (and_true _))
    intro hexact keyword hkeyword
    have hknown : ∀ keyword ∈ supported, keyword ∈ "type" :: structural ++ ["enum"] ++ ["const"] ++
        ["allOf"] ++ ["anyOf"] ++ ["oneOf"] ++ ["$ref"] ++ ["not"] ++ annotations := by decide
    exact hknown keyword (hsupported hexact keyword hkeyword)

/-- The type of a schema fits if the types of the schemas that it asks for do. What is excluded by
`not` has to be told exactly. -/
theorem fits_schemaType (hd : d.LooselyFormed) (hcounts : wide = false → d.WellFormed)
    (hroot : d.root.Over S) (hschema : d.Schema l v)
    (htold : ∀ l v t, d.Schema l v → A l v t → d.Fits S wide l v t)
    (hnot : ∀ l (members : Fields Json) v t, d.Schema l (.object members) →
      members.get? "not" = some v → A (l ++ [.name "not"]) v t →
      d.Fits S false (l ++ [.name "not"]) v t)
    (hmakes : (schemaType d l v).Makes A wide t) : d.Fits S wide l v t := by
  unfold schemaType at hmakes
  split at hmakes
  · obtain rfl : t = .top := hmakes
    exact ⟨.any, fun w _ => judges_schema.mpr (judges_true .any)⟩
  · obtain rfl : t = .bottom := hmakes
    refine ⟨.never, fun w _ => judges_schema.mpr ?_⟩
    exact (judges_holds false).congr (iff_of_false nofun nofun)
  · rename_i members
    simp only [Plan.makes_bind, Plan.makes_widenIf, Plan.makes_pure] at hmakes
    obtain ⟨-, hwide, stated, hstated, combined, hcombined, referred, hreferred, left, hleft, rfl⟩ :=
      hmakes
    have h := fitted_node hd hcounts hroot hschema htold hwide
    have hrestricted := h.expressed_restricted (h.expressed_statedType hstated)
    have hreferred := h.expressed_referring htold (h.expressed_combining hrestricted hcombined)
      hreferred
    have hexcluded := h.expressed_excluding
      (fun v t hv hnode => hnot l members v t hschema hv (Plan.makes_node.mp hnode)) hreferred hleft
    have hfits := fits_of_expressed h.nodup hexcluded h.supported
    refine ⟨DataType.normal_annotate.mpr hfits.normal, ?_⟩
    intro w hw
    rw [DataType.describes_annotate]
    exact hfits.judges w hw
  · rename_i htrue hfalse hobject
    rcases hd.schema l v hschema with hbool | hmembers
    · cases v with
      | bool b => cases b <;> simp at htrue hfalse
      | null | number | string | array | object => cases hbool
    · cases v with
      | object members => exact absurd rfl (hobject members)
      | null | bool | number | string | array => cases hmembers

/-- An exact type fits. -/
theorem fits_of_hasExact (hd : d.WellFormed) (hroot : d.root.Over S) {n : Nat}
    (hschema : d.Schema l v) (h : HasExact (schemaType d) n l v t) : d.Fits S false l v t := by
  induction n generalizing l v t with
  | zero => cases h
  | succ n ih =>
    refine fits_schemaType hd.loosely (fun _ => hd) hroot hschema (fun _ _ _ => ih) ?_ h
    intro l members v t hmembers hv
    exact ih (hmembers.member (by decide) hv)

/-- What is told of a schema fits as far as it describes all that is accepted, if schemas under
`not` have exact types. -/
theorem fits_of_told (hd : d.LooselyFormed) (hroot : d.root.Over S)
    (hnot : ∀ l (members : Fields Json) v, d.Schema l (.object members) →
      members.get? "not" = some v →
        d.WellFormed ∧ ∃ n t, HasExact (schemaType d) n (l ++ [.name "not"]) v t)
    {n : Nat} (hschema : d.Schema l v) (h : Told (schemaType d) n l v t) : d.Fits S true l v t := by
  induction n generalizing l v t with
  | zero =>
    -- a schema that is met again inside itself is told to be anything
    obtain rfl : t = .top := h
    exact ⟨.any, fun w _ => judged_of_wide rfl fun _ => .any⟩
  | succ n ih =>
    rcases h with h | h
    · exact ih hschema h
    · refine fits_schemaType hd nofun hroot hschema (fun l v t hv ht => ih hv ht.1) ?_ h
      intro l members v t hmembers hv ht
      -- what is told of the schema under `not` is its exact type, so that it excludes no more
      obtain ⟨hwell, m, u, hu⟩ := hnot l members v hmembers hv
      rw [ht.2 m u hu]
      exact fits_of_hasExact hwell hroot (hmembers.member (by decide) hv) hu

/-- The number one and nothing else. -/
def oneOnly : Json := .object [("const", .natural 1)]

/-- One of two numbers, without the first. -/
def secondOnly : Json := .object [("enum", .array [.natural 1, .natural 2]), ("not", oneOnly)]

section SecondOnly

theorem member_secondOnly {members : Fields Json} {keyword : String}
    (h : (l = [] ∧ Json.object members = secondOnly) ∨
      (l = [.name "not"] ∧ Json.object members = oneOnly))
    (hv : members.get? keyword = some v) :
    (keyword = "enum" ∧ v = .array [.natural 1, .natural 2]) ∨
      (keyword = "const" ∧ v = .natural 1) ∨ (keyword = "not" ∧ l = [] ∧ v = oneOnly) := by
  have hmem := Fields.mem_of_get?_eq_some hv
  rcases h with ⟨hl, heq⟩ | ⟨hl, heq⟩ <;> cases heq <;> simp at hmem
  · rcases hmem with ⟨rfl, rfl⟩ | ⟨rfl, rfl⟩
    · exact .inl ⟨rfl, rfl⟩
    · exact .inr (.inr ⟨rfl, hl, rfl⟩)
  · exact .inr (.inl hmem)

theorem schema_secondOnly (h : (Document.ofJson secondOnly none).Schema l v) :
    (l = [] ∧ v = secondOnly) ∨ (l = [.name "not"] ∧ v = oneOnly) := by
  induction h with
  | root => exact .inl ⟨rfl, rfl⟩
  | member _ known mem ih =>
    rcases member_secondOnly ih mem with ⟨rfl, -⟩ | ⟨rfl, -⟩ | ⟨rfl, rfl, rfl⟩
    · exact absurd known (by decide)
    · exact absurd known (by decide)
    · exact .inr ⟨rfl, rfl⟩
  | item _ known mem _ ih | named _ known mem _ ih =>
    rcases member_secondOnly ih mem with ⟨rfl, -⟩ | ⟨rfl, -⟩ | ⟨rfl, -⟩ <;>
      exact absurd known (by decide)
  | referred _ mem _ ih =>
    rcases member_secondOnly ih mem with ⟨heq, -⟩ | ⟨heq, -⟩ | ⟨heq, -⟩ <;>
      exact absurd heq (by decide)

theorem wellFormed_secondOnly : (Document.ofJson secondOnly none).WellFormed where
  schema l v h := by
    rcases schema_secondOnly h with ⟨-, rfl⟩ | ⟨-, rfl⟩ <;> exact .inr rfl
  keyword l members h keyword v hv := by
    rcases member_secondOnly (schema_secondOnly h) hv with ⟨rfl, rfl⟩ | ⟨rfl, rfl⟩ | ⟨rfl, -, rfl⟩ <;>
      rfl

theorem over_secondOnly : secondOnly.Over .whole := by
  have hone : (Json.natural 1).Over .whole := .number ⟨1, by decide, rfl⟩
  have htwo : (Json.natural 2).Over .whole := .number ⟨2, by decide, rfl⟩
  have henum : (Json.array [.natural 1, .natural 2]).Over .whole :=
    .array (List.forall_mem_cons.mpr ⟨hone, List.forall_mem_singleton.mpr htwo⟩)
  have hnot : oneOnly.Over .whole := .object (by decide) (List.forall_mem_singleton.mpr hone)
  exact .object (by decide) (List.forall_mem_cons.mpr ⟨henum, List.forall_mem_singleton.mpr hnot⟩)

/-- The schema under `not` was asked for before. -/
theorem nodes_secondOnly : Nodes secondOnly [([.name "not"], oneOnly)] :=
  List.forall_mem_singleton.mpr rfl

end SecondOnly

section Answers

variable {w : Json} {asked : List (Location × Json)}

/-- The answer about a schema, after others were asked for. -/
def Document.answer (d : Document) (asked : List (Location × Json)) (l : Location) (v : Json) :
    Converted :=
  ((d.convert l v).run (.after d.convert asked)).1

theorem answers_answer (hroot : d.root.Over S) (hasked : Nodes d.root asked)
    (hschema : d.Schema l v) : Answers d.root (schemaType d) l (d.answer asked l v) := by
  have hsettles := settles_convert hroot.wellFormed
  have hafter := hsettles.after hasked
  exact hsettles.answers _ l v hafter.1 hafter.2 hschema.at?

/-- An exact type describes the values that the schema accepts, and all others are rejected. -/
theorem describes_iff_accepts (hroot : d.root.Over S) (hd : d.WellFormed)
    (hasked : Nodes d.root asked) (hschema : d.Schema l v)
    (hexact : (d.answer asked l v).exact = true) (hw : w.Over S) :
    ((d.answer asked l v).type.Describes (some w) ↔ d.Accepts l v w) ∧
      (¬ (d.answer asked l v).type.Describes (some w) ↔ d.Rejects l v w) := by
  obtain ⟨n, v', hv', ht⟩ := (answers_answer hroot hasked hschema).exact hexact
  obtain rfl := Option.some.inj (hschema.at?.symm.trans hv')
  have hjudges := (fits_of_hasExact hd hroot hschema ht).judges w hw
  refine ⟨⟨hjudges.accepts rfl, hjudges.covers⟩, hjudges.rejects rfl, ?_⟩
  intro hrejects hdescribes
  exact nomatch hrejects.unique (hjudges.accepts rfl hdescribes)

theorem describes_iff_accepts_secondOnly :
    secondOnly.Over .whole ∧ (Document.ofJson secondOnly none).WellFormed ∧
    Nodes secondOnly [([.name "not"], oneOnly)] ∧
    ((Document.ofJson secondOnly none).answer [([.name "not"], oneOnly)] [] secondOnly).exact =
      true ∧
    (Json.natural 2).Over .whole ∧
    (((Document.ofJson secondOnly none).answer [([.name "not"], oneOnly)] []
      secondOnly).type.Describes (some (.natural 2)) ↔
      (Document.ofJson secondOnly none).Accepts [] secondOnly (.natural 2)) ∧
    (¬ ((Document.ofJson secondOnly none).answer [([.name "not"], oneOnly)] []
      secondOnly).type.Describes (some (.natural 2)) ↔
      (Document.ofJson secondOnly none).Rejects [] secondOnly (.natural 2)) := by
  have hexact : ((Document.ofJson secondOnly none).answer [([.name "not"], oneOnly)] []
      secondOnly).exact = true := by
    decide +kernel
  have htwo : (Json.natural 2).Over .whole := .number ⟨2, by decide, rfl⟩
  exact ⟨over_secondOnly, wellFormed_secondOnly, nodes_secondOnly, hexact, htwo,
    describes_iff_accepts over_secondOnly wellFormed_secondOnly nodes_secondOnly .root hexact htwo⟩

/-- A type describes all values that the schema accepts, if every schema under `not` is converted
exactly. What is said to be exact is so in a well-formed document. -/
theorem describes_of_accepts (hroot : d.root.Over S) (hd : d.LooselyFormed)
    (hnot : ∀ l (members : Fields Json) v, d.Schema l (.object members) →
      members.get? "not" = some v →
        d.WellFormed ∧ (d.answer [] (l ++ [.name "not"]) v).exact = true)
    (hasked : Nodes d.root asked) (hschema : d.Schema l v) (hw : w.Over S)
    (haccepts : d.Accepts l v w) : (d.answer asked l v).type.Describes (some w) := by
  obtain ⟨n, v', hv', ht⟩ := (answers_answer hroot hasked hschema).told
  obtain rfl := Option.some.inj (hschema.at?.symm.trans hv')
  refine ((fits_of_told hd hroot ?_ hschema ht).judges w hw).covers haccepts
  intro l members v hmembers hv
  have hinner := hmembers.member (by decide) hv
  have hnone : Nodes d.root [] := List.forall_mem_nil _
  obtain ⟨hwell, hexact⟩ := hnot l members v hmembers hv
  obtain ⟨n, v', hv', ht⟩ := (answers_answer hroot hnone hinner).exact hexact
  obtain rfl := Option.some.inj (hinner.at?.symm.trans hv')
  exact ⟨hwell, n, _, ht⟩

theorem describes_of_accepts_secondOnly :
    secondOnly.Over .whole ∧ (Document.ofJson secondOnly none).WellFormed ∧
    ((Document.ofJson secondOnly none).answer [] [.name "not"] oneOnly).exact = true ∧
    Nodes secondOnly [([.name "not"], oneOnly)] ∧ (Json.natural 2).Over .whole ∧
    (Document.ofJson secondOnly none).Accepts [] secondOnly (.natural 2) ∧
    ((Document.ofJson secondOnly none).answer [([.name "not"], oneOnly)] []
      secondOnly).type.Describes (some (.natural 2)) := by
  have hexact : ((Document.ofJson secondOnly none).answer [] [.name "not"] oneOnly).exact = true := by
    decide +kernel
  have hrejects : (Document.ofJson secondOnly none).Rejects [.name "not"] oneOnly (.natural 2) :=
    .schema (.notAll List.mem_cons_self (.holds false))
  have haccepts : (Document.ofJson secondOnly none).Accepts [] secondOnly (.natural 2) :=
    .schema (.all (List.forall_mem_cons.mpr ⟨.holds true,
      List.forall_mem_singleton.mpr (.not hrejects)⟩))
  have htwo : (Json.natural 2).Over .whole := .number ⟨2, by decide, rfl⟩
  refine ⟨over_secondOnly, wellFormed_secondOnly, hexact, nodes_secondOnly, htwo, haccepts,
    describes_of_accepts over_secondOnly wellFormed_secondOnly.loosely ?_ nodes_secondOnly .root
      htwo haccepts⟩
  intro l members v hschema hv
  rcases member_secondOnly (schema_secondOnly hschema) hv with ⟨heq, -⟩ | ⟨heq, -⟩ | ⟨-, rfl, rfl⟩
  · exact absurd heq (by decide)
  · exact absurd heq (by decide)
  · exact ⟨wellFormed_secondOnly, hexact⟩

end Answers

/-- Numbers that are not whole. -/
def fractional : Json :=
  .object [("type", .string "number"), ("not", .object [("type", .string "integer")])]

/-- The number 1.5. -/
def threeHalves : Json :=
  .number (.double ⟨false, 3 * 2 ^ 51, 1022, by decide, .inr (by decide), by decide⟩)

/-- Since whole numbers are taken for all numbers, none is left when they are excluded. -/
theorem not_describes_fractional :
    (Document.ofJson fractional none).Accepts [] fractional threeHalves ∧
      ¬ (Document.ofJson fractional none).converted.type.Describes (some threeHalves) := by
  refine ⟨.schema (.all (List.forall_mem_cons.mpr ⟨.holds true, List.forall_mem_singleton.mpr ?_⟩)),
    ?_⟩
  · have hinteger : (Document.ofJson fractional none).Rejects [.name "not"]
        (.object [("type", .string "integer")]) threeHalves :=
      .schema (.notAll List.mem_cons_self (decides_holds.mpr (by decide +kernel)))
    exact .not hinteger
  · intro hdescribes
    have hnever : (Document.ofJson fractional none).converted.type.isNever = true := by
      decide +kernel
    rw [hdescribes.isNever] at hnever
    cases hnever

end JsonSchema

end JsonPath
