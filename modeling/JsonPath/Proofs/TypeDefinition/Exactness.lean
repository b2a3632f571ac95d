import JsonPath.Proofs.Schema.Exactness
import JsonPath.Proofs.TypeDefinition.Objects

/-!
What is known about the values that the type of a type definition describes. They are at least those
that the schema accepts, however the schemas lead back to each other, and no others if the answer is
exact and no schema is one for timestamps. These are taken for any texts, which is not noted.
-/

namespace JsonPath.TypeDefinition

variable {root : Json} {A : Location → Json → DataType → Prop} {wide : Bool} {l : Location}
  {v w : Json} {t : DataType} {members : Fields Json} {form : Form}

/-- No schema of the document is one for timestamps. -/
def Timeless (root : Json) : Prop :=
  ∀ l (members : Fields Json), Schema root l (.object members) →
    ¬ HasForm members (.type "timestamp")

section Schemas

theorem mem_mapped {keyword : String} {fields : Fields Json} {steps : List Step}
    (h : (steps, v) ∈ mapped keyword fields) :
    ∃ name, steps = [.name keyword, .name name] ∧ (name, v) ∈ fields := by
  obtain ⟨⟨name, u⟩, hmem, heq⟩ := List.mem_map.mp h
  cases heq
  exact ⟨name, rfl, hmem⟩

theorem at?_of_mem_mapped {keyword : String} {fields : Fields Json} {steps : List Step}
    (hmembers : (Json.object members).WellFormed)
    (hfields : HasFields members keyword fields) (h : (steps, v) ∈ mapped keyword fields) :
    (Json.object members).at? steps = some v := by
  obtain ⟨name, rfl, hmem⟩ := mem_mapped h
  rcases hfields with hfields | ⟨-, rfl⟩
  · have hnodup : (Fields.names fields).Nodup := (wellFormed_of_get? hmembers hfields).1
    simp [Json.at?, Json.child?, hfields, Fields.get?_eq_some_of_mem hnodup hmem]
  · cases hmem

/-- The schemas inside a form are found by the steps that lead to them. -/
theorem at?_of_mem_inner (hmembers : (Json.object members).WellFormed) (h : HasForm members form)
    {steps : List Step} (hmem : (steps, v) ∈ form.inner) :
    (Json.object members).at? steps = some v := by
  cases h with
  | empty | ref | type | enum => cases hmem
  | elements _ hv | values _ hv =>
    cases List.mem_singleton.mp hmem
    simp [Json.at?, Json.child?, hv]
  | properties _ _ hfirst hsecond _ =>
    rcases List.mem_append.mp hmem with hmem | hmem
    · exact at?_of_mem_mapped hmembers hfirst hmem
    · exact at?_of_mem_mapped hmembers hsecond hmem
  | discriminator _ _ hmapping => exact at?_of_mem_mapped hmembers (.inl hmapping) hmem

theorem Schema.at? (hroot : root.WellFormed) (h : Schema root l v) : root.at? l = some v := by
  induction h with
  | root => rfl
  | definition hleads => exact at?_of_definition? hleads
  | inner _ hform hmem ih =>
    rw [Json.at?_append, ih]
    exact at?_of_mem_inner (hroot.at? ih) hform hmem

theorem nodup_of_hasFields {keyword : String} {fields : Fields Json}
    (hmembers : (Json.object members).WellFormed) (h : HasFields members keyword fields) :
    fields.names.Nodup := by
  rcases h with h | ⟨-, rfl⟩
  · exact (wellFormed_of_get? hmembers h).1
  · exact .nil

end Schemas

section Fits

/-- The type of the form of a schema fits if the types of the schemas that it asks for do. -/
theorem fits_formType {inside : Inside} (hmembers : (Json.object members).WellFormed)
    (h : HasForm members form) (hwell : form.WellFormed root)
    (htime : wide = false → form ≠ .type "timestamp")
    (hrefs : ∀ name l v t, definition? root name = some (l, v) → A l v t → Fits root wide v t)
    (hinside : FitsInside root A wide inside form)
    (hmakes : (formType root inside members).Makes A wide t) : form.Fits root wide t := by
  rw [formType_eq h] at hmakes
  cases h with
  | empty =>
    obtain rfl : t = .top := hmakes
    exact fits_empty
  | ref => exact fits_ref (hrefs _) hmakes
  | type => exact fits_type (fun hexact heq => htime hexact (congrArg Form.type heq)) hmakes
  | enum =>
    obtain rfl : t = _ := hmakes
    exact fits_enum
  | elements => exact fits_elements hinside hmakes
  | values => exact fits_values hinside hmakes
  | properties _ _ hfirst hsecond _ =>
    exact fits_properties hwell (nodup_of_hasFields hmembers hfirst)
      (nodup_of_hasFields hmembers hsecond) hinside hmakes
  | discriminator _ _ hmapping =>
    exact fits_discriminator (nodup_of_hasFields hmembers (.inl hmapping)) hwell hinside hmakes

/-- The type with null added if the schema is nullable. -/
def orNull (members : Fields Json) (t : DataType) : DataType :=
  match members.get? "nullable" with
  | some (.bool true) => .unionOf [t, .ofPrimitive .null]
  | _ => t

/-- The type of a schema is that of its form, possibly with null and with notes added. -/
theorem makes_schemaType (hmakes : (schemaType root l (.object members)).Makes A wide t) :
    ∃ u notes, (formType root (fun steps v => Plan.node (l ++ steps) v) members).Makes A wide u ∧
      t = (orNull members u).annotate notes := by
  simp only [schemaType, Plan.makes_bind] at hmakes
  obtain ⟨-, -, u, hu, hmakes⟩ := hmakes
  split at hmakes
  · exact ⟨u, _, hu, hmakes⟩
  · exact ⟨u, {}, hu, hmakes⟩

theorem orNull_of_flag {b : Bool} (h : HasFlag members "nullable" b) :
    orNull members t = if b then .unionOf [t, .ofPrimitive .null] else t := by
  unfold orNull
  rcases h with h | ⟨h, rfl⟩ <;> rw [h]
  · cases b <;> rfl
  · rfl

theorem normal_orNull (ht : t.Normal .none) : (orNull members t).Normal .none := by
  unfold orNull
  split
  · exact DataType.normal_unionOf (DataType.forall_mem_pair ht .primitive)
  · exact ht

theorem describes_orNull_iff {b : Bool} (h : HasFlag members "nullable" b) (ht : t.Normal .none)
    (hw : w.WellFormed) : (orNull members t).Describes (some w) ↔
      HasFlag members "nullable" true ∧ w = .null ∨ t.Describes (some w) := by
  rw [orNull_of_flag h]
  cases b with
  | false =>
    refine ⟨.inr, fun hdescribes => hdescribes.resolve_left fun hnull => ?_⟩
    cases h.unique hnull.1
  | true =>
    have hnormal : ∀ u ∈ [t, .ofPrimitive .null], u.Normal .none :=
      DataType.forall_mem_pair ht .primitive
    rw [if_pos rfl, DataType.describes_unionOf_of_none hnormal hw]
    constructor
    · rintro ⟨u, hu, hdescribes⟩
      simp only [List.mem_cons, List.not_mem_nil, or_false] at hu
      rcases hu with rfl | rfl
      · exact .inr hdescribes
      · cases hdescribes with
        | primitive hkind =>
          refine .inl ⟨h, ?_⟩
          cases w <;> first | rfl | cases hkind
    · rintro (⟨-, rfl⟩ | hdescribes)
      · exact ⟨_, List.mem_cons_of_mem _ List.mem_cons_self, .primitive rfl⟩
      · exact ⟨t, List.mem_cons_self, hdescribes⟩

theorem isUntagged_annotate {tag : String} {notes : Annotations} :
    IsUntagged tag (t.annotate notes) ↔ IsUntagged tag t := by
  unfold DataType.annotate
  split
  · rfl
  · exact isUntagged_withNotes

/-- The type of a schema fits if the types of the schemas that it asks for do. -/
theorem fits_schemaType (hroot : WellFormed root) (htime : wide = false → Timeless root)
    (hschema : Schema root l v)
    (htold : ∀ l v t, Schema root l v → A l v t → Fits root wide v t)
    (hmakes : (schemaType root l v).Makes A wide t) : Fits root wide v t := by
  obtain ⟨members, rfl, hwell⟩ := hroot.schema l v hschema
  obtain ⟨form, hform, hformed⟩ := hwell.form
  obtain ⟨b, hflag⟩ := hwell.nullable
  obtain ⟨u, notes, hu, rfl⟩ := makes_schemaType hmakes
  have hmembers := hroot.names.at? (hschema.at? hroot.names)
  have hfits : form.Fits root wide u := by
    refine fits_formType hmembers hform hformed ?_ ?_ ?_ hu
    · rintro hexact rfl
      exact htime hexact l members hschema hform
    · intro name l v t hdefinition ht
      exact htold l v t (.definition hdefinition) ht
    · intro steps v t hmem ht
      exact htold _ v t (hschema.inner hform hmem) (Plan.makes_node.mp ht)
  have hdescribes {w : Json} (hw : w.WellFormed) :
      ((orNull members u).annotate notes).Describes (some w) ↔
        HasFlag members "nullable" true ∧ w = .null ∨ u.Describes (some w) := by
    rw [DataType.describes_annotate, describes_orNull_iff hflag hfits.normal hw]
  refine ⟨DataType.normal_annotate.mpr (normal_orNull hfits.normal), ?_, ?_, ?_⟩
  · intro w hw haccepts
    rw [accepts_object_iff hform] at haccepts
    exact (hdescribes hw).mpr (haccepts.imp_right (hfits.covers w hw))
  · intro hexact w hw h
    rw [accepts_object_iff hform]
    exact ((hdescribes hw).mp h).imp_right (hfits.accepts hexact w hw)
  · rintro - tag ⟨members', required, optional, additional, heq, hform', hflag', htag, -⟩
    cases heq
    obtain rfl := hflag.unique hflag'
    rw [formType_eq hform'] at hu
    rw [isUntagged_annotate, orNull_of_flag hflag, if_neg Bool.false_ne_true]
    exact isUntagged_properties htag hu

/-- An exact type fits. -/
theorem fits_of_hasExact (hroot : WellFormed root) (htime : Timeless root) {n : Nat}
    (hschema : Schema root l v) (h : HasExact (schemaType root) n l v t) :
    Fits root false v t := by
  induction n generalizing l v t with
  | zero => cases h
  | succ n ih => exact fits_schemaType hroot (fun _ => htime) hschema (fun _ _ _ => ih) h

/-- What is told of a schema fits as far as it describes all that is accepted. -/
theorem fits_of_told (hroot : WellFormed root) {n : Nat} (hschema : Schema root l v)
    (h : Told (schemaType root) n l v t) : Fits root true v t := by
  induction n generalizing l v t with
  | zero =>
    -- a schema that is met again inside itself is told to be anything
    obtain rfl : t = .top := h
    exact ⟨.any, fun _ _ _ => .any, nofun, nofun⟩
  | succ n ih =>
    rcases h with h | h
    · exact ih hschema h
    · exact fits_schemaType hroot nofun hschema (fun l v t hv ht => ih hv ht.1) h

end Fits

/-- A schema with no keywords besides those of its form. -/
theorem wellFormedSchema_plain (h : HasForm members form) (hwell : form.WellFormed root)
    (hnullable : members.get? "nullable" = none) (hmetadata : members.get? "metadata" = none)
    (hdefinitions : members.get? "definitions" = none) : WellFormedSchema root l members where
  form := ⟨form, h, hwell⟩
  nullable := ⟨false, .inr ⟨hnullable, rfl⟩⟩
  metadata := ⟨[], .inr ⟨hmetadata, rfl⟩⟩
  definitions := ⟨[], .inr ⟨hdefinitions, rfl⟩⟩
  outermost hmem := by
    rw [Fields.contains, hdefinitions] at hmem
    cases hmem

section Answers

variable {asked : List (Location × Json)}

/-- The answer about a schema, after others were asked for. -/
def answer (root : Json) (asked : List (Location × Json)) (l : Location) (v : Json) : Converted :=
  ((convert root l v).run (.after (convert root) asked)).1

/-- The type of a whole document is the answer about it when nothing was asked for before. -/
theorem answer_document : answer root [] [] root = converted root := rfl

theorem answers_answer (hroot : WellFormed root) (hasked : Nodes root asked)
    (hschema : Schema root l v) : Answers root (schemaType root) l (answer root asked l v) := by
  have hsettles := settles_convert hroot.names
  have hafter := hsettles.after hasked
  exact hsettles.answers _ l v hafter.1 hafter.2 (hschema.at? hroot.names)

/-- The type of a schema describes all values that the schema accepts. -/
theorem describes_of_accepted (hroot : WellFormed root) (hasked : Nodes root asked)
    (hschema : Schema root l v) (hw : w.WellFormed) (haccepts : Accepts root none v w) :
    (answer root asked l v).type.Describes (some w) := by
  obtain ⟨n, v', hv', ht⟩ := (answers_answer hroot hasked hschema).told
  obtain rfl := Option.some.inj ((hschema.at? hroot.names).symm.trans hv')
  exact (fits_of_told hroot hschema ht).covers w hw haccepts

section Chain

/-- A reference to the links of chains. -/
def toLink : Json := .object [("ref", .string "link")]

/-- An object that another one may be linked to. -/
def link : Json := .object [("optionalProperties", .object [("next", toLink)])]

/-- Chains of objects. -/
def chain : Json :=
  .object [("definitions", .object [("link", link)]), ("ref", .string "link")]

theorem hasForm_toLink : HasForm [("ref", .string "link")] (.ref "link") :=
  .ref (by decide) rfl

theorem hasForm_link : HasForm [("optionalProperties", .object [("next", toLink)])]
    (.properties [] [("next", toLink)] false) :=
  .properties (by decide) (.inr rfl) (.inr ⟨rfl, rfl⟩) (.inl rfl) (.inr ⟨rfl, rfl⟩)

theorem hasForm_chain :
    HasForm [("definitions", .object [("link", link)]), ("ref", .string "link")] (.ref "link") :=
  .ref (by decide) rfl

theorem definition?_chain {name : String} (h : definition? chain name = some (l, v)) :
    l = [.name "definitions", .name "link"] ∧ v = link := by
  have hname : name = "link" := by
    refine Decidable.byContradiction fun hname => ?_
    simp [definition?, chain, Json.member?, Fields.get?, Ne.symm hname] at h
  subst hname
  cases h
  exact ⟨rfl, rfl⟩

theorem schema_chain (h : Schema chain l v) : (l = [] ∧ v = chain) ∨
    (l = [.name "definitions", .name "link"] ∧ v = link) ∨ v = toLink := by
  induction h with
  | root => exact .inl ⟨rfl, rfl⟩
  | definition hleads => exact .inr (.inl (definition?_chain hleads))
  | inner _ hform hmem ih =>
    rcases ih with ⟨-, heq⟩ | ⟨-, heq⟩ | heq <;> cases heq
    · cases hform.unique hasForm_chain
      cases hmem
    · cases hform.unique hasForm_link
      cases List.mem_singleton.mp hmem
      exact .inr (.inr rfl)
    · cases hform.unique hasForm_toLink
      cases hmem

theorem wellFormed_chain : WellFormed chain where
  names := by simp [chain, link, toLink, Json.WellFormed, Json.WellFormedMembers, Fields.names]
  schema l v h := by
    rcases schema_chain h with ⟨rfl, rfl⟩ | ⟨-, rfl⟩ | rfl
    · exact ⟨_, rfl, ⟨_, hasForm_chain, rfl⟩, ⟨false, .inr ⟨rfl, rfl⟩⟩, ⟨[], .inr ⟨rfl, rfl⟩⟩,
        ⟨_, .inl rfl⟩, fun _ => rfl⟩
    · exact ⟨_, rfl, wellFormedSchema_plain hasForm_link (List.forall_mem_nil _) rfl rfl rfl⟩
    · exact ⟨_, rfl, wellFormedSchema_plain hasForm_toLink rfl rfl rfl rfl⟩

theorem accepts_link {values : Fields Json} (hnames : values.names ⊆ ["next"])
    (hnext : ∀ w, values.get? "next" = some w → Accepts chain none toLink w) :
    Accepts chain none link (.object values) := by
  refine .form hasForm_link (.properties (List.forall_mem_nil _) ?_ (.inr fun name hname => ?_))
  · rintro name v w (hv | hv) hw
    · cases hv
    · cases Fields.mem_of_get?_eq_some hv with
      | head => exact hnext w hw
      | tail _ h => cases h
  · exact .inr (.inl (hnames hname))

theorem describes_of_accepted_chain :
    WellFormed chain ∧ Nodes chain [([.name "definitions", .name "link"], link)] ∧
    Schema chain [] chain ∧ (Json.object [("next", .object [])]).WellFormed ∧
    Accepts chain none chain (.object [("next", .object [])]) ∧
    (answer chain [([.name "definitions", .name "link"], link)] [] chain).type.Describes
      (some (.object [("next", .object [])])) := by
  have hasked : Nodes chain [([.name "definitions", .name "link"], link)] :=
    List.forall_mem_singleton.mpr rfl
  have hw : (Json.object [("next", .object [])]).WellFormed := by
    simp [Json.WellFormed, Json.WellFormedMembers, Fields.names]
  have hend : Accepts chain none toLink (.object []) := by
    refine .form hasForm_toLink (.ref rfl (accepts_link (List.nil_subset _) ?_))
    intro w hw
    cases hw
  have haccepts : Accepts chain none chain (.object [("next", .object [])]) := by
    refine .form hasForm_chain (.ref rfl (accepts_link (List.Subset.refl _) ?_))
    intro w hw
    cases hw
    exact hend
  exact ⟨wellFormed_chain, hasked, .root, hw, haccepts,
    describes_of_accepted wellFormed_chain hasked .root hw haccepts⟩

end Chain

/-- An exact type describes just the values that the schema accepts, if there are no schemas for
timestamps. -/
theorem describes_iff_accepted (hroot : WellFormed root) (htime : Timeless root)
    (hasked : Nodes root asked) (hschema : Schema root l v)
    (hexact : (answer root asked l v).exact = true) (hw : w.WellFormed) :
    (answer root asked l v).type.Describes (some w) ↔ Accepts root none v w := by
  obtain ⟨n, v', hv', ht⟩ := (answers_answer hroot hasked hschema).exact hexact
  obtain rfl := Option.some.inj ((hschema.at? hroot.names).symm.trans hv')
  have hfits := fits_of_hasExact hroot htime hschema ht
  exact ⟨hfits.accepts rfl w hw, hfits.covers w hw⟩

section Shapes

/-- Any number. -/
def anyNumber : Json := .object [("type", .string "float64")]

/-- Objects with a radius. -/
def circle : Json := .object [("properties", .object [("radius", anyNumber)])]

/-- Objects whose kind is that of a circle. -/
def shapes : Json :=
  .object [("discriminator", .string "kind"), ("mapping", .object [("circle", circle)])]

theorem hasForm_anyNumber : HasForm [("type", .string "float64")] (.type "float64") :=
  .type (by decide) rfl

theorem hasForm_circle : HasForm [("properties", .object [("radius", anyNumber)])]
    (.properties [("radius", anyNumber)] [] false) :=
  .properties (by decide) (.inl rfl) (.inl rfl) (.inr ⟨rfl, rfl⟩) (.inr ⟨rfl, rfl⟩)

theorem hasForm_shapes : HasForm [("discriminator", .string "kind"),
    ("mapping", .object [("circle", circle)])] (.discriminator "kind" [("circle", circle)]) :=
  .discriminator (by decide) rfl rfl

theorem isVariant_circle : IsVariant "kind" circle :=
  ⟨_, _, _, _, rfl, hasForm_circle, .inr ⟨rfl, rfl⟩, by decide, by decide⟩

theorem schema_shapes (h : Schema shapes l v) :
    (l = [] ∧ v = shapes) ∨ v = circle ∨ v = anyNumber := by
  induction h with
  | root => exact .inl ⟨rfl, rfl⟩
  | definition hleads => cases hleads
  | inner _ hform hmem ih =>
    rcases ih with ⟨-, heq⟩ | heq | heq <;> cases heq
    · cases hform.unique hasForm_shapes
      cases List.mem_singleton.mp hmem
      exact .inr (.inl rfl)
    · cases hform.unique hasForm_circle
      cases List.mem_singleton.mp hmem
      exact .inr (.inr rfl)
    · cases hform.unique hasForm_anyNumber
      cases hmem

theorem wellFormed_shapes : WellFormed shapes where
  names := by
    simp [shapes, circle, anyNumber, Json.WellFormed, Json.WellFormedMembers, Fields.names]
  schema l v h := by
    rcases schema_shapes h with ⟨rfl, rfl⟩ | rfl | rfl
    · exact ⟨_, rfl, wellFormedSchema_plain hasForm_shapes
        (List.forall_mem_singleton.mpr isVariant_circle) rfl rfl rfl⟩
    · exact ⟨_, rfl, wellFormedSchema_plain hasForm_circle (fun _ _ => List.not_mem_nil) rfl rfl rfl⟩
    · exact ⟨_, rfl, wellFormedSchema_plain hasForm_anyNumber (by simp [Form.WellFormed, typeNames])
        rfl rfl rfl⟩

theorem timeless_shapes : Timeless shapes := by
  intro l members h hform
  rcases schema_shapes h with ⟨-, heq⟩ | heq | heq <;> cases heq
  · cases hform.unique hasForm_shapes
  · cases hform.unique hasForm_circle
  · exact absurd (Form.type.inj (hform.unique hasForm_anyNumber)) (by decide)

theorem describes_iff_accepted_shapes :
    WellFormed shapes ∧ Timeless shapes ∧ Nodes shapes [([.name "mapping", .name "circle"], circle)] ∧
    Schema shapes [] shapes ∧
    (answer shapes [([.name "mapping", .name "circle"], circle)] [] shapes).exact = true ∧
    (Json.object [("radius", .natural 1), ("kind", .string "circle")]).WellFormed ∧
    ((answer shapes [([.name "mapping", .name "circle"], circle)] [] shapes).type.Describes
        (some (.object [("radius", .natural 1), ("kind", .string "circle")])) ↔
      Accepts shapes none shapes
        (.object [("radius", .natural 1), ("kind", .string "circle")])) := by
  have hasked : Nodes shapes [([.name "mapping", .name "circle"], circle)] :=
    List.forall_mem_singleton.mpr rfl
  have hexact : (answer shapes [([.name "mapping", .name "circle"], circle)] [] shapes).exact =
      true := by
    decide +kernel
  have hw : (Json.object [("radius", .natural 1), ("kind", .string "circle")]).WellFormed := by
    simp [Json.WellFormed, Json.WellFormedMembers, Json.natural, Fields.names]
  exact ⟨wellFormed_shapes, timeless_shapes, hasked, .root, hexact, hw,
    describes_iff_accepted wellFormed_shapes timeless_shapes hasked .root hexact hw⟩

end Shapes

section Timestamp

/-- Any point in time. -/
def anyTime : Json := .object [("type", .string "timestamp")]

theorem hasForm_anyTime : HasForm [("type", .string "timestamp")] (.type "timestamp") :=
  .type (by decide) rfl

theorem wellFormed_anyTime : WellFormed anyTime where
  names := by simp [anyTime, Json.WellFormed, Json.WellFormedMembers, Fields.names]
  schema l v h := by
    have hv : v = anyTime := by
      induction h with
      | root => rfl
      | definition hleads => cases hleads
      | inner _ hform hmem ih =>
        cases ih
        cases hform.unique hasForm_anyTime
        cases hmem
    exact ⟨_, hv, wellFormedSchema_plain hasForm_anyTime (by simp [Form.WellFormed, typeNames])
      rfl rfl rfl⟩

/-- A text that is no point in time is described by a type that is said to be exact. -/
theorem not_accepts_soon :
    WellFormed anyTime ∧ (converted anyTime).exact = true ∧
      (converted anyTime).type.Describes (some (.string "soon")) ∧
      ¬ Accepts anyTime none anyTime (.string "soon") := by
  have htype : (converted anyTime).type = .ofPrimitive .string := by rfl
  refine ⟨wellFormed_anyTime, by decide +kernel, htype ▸ .primitive rfl, ?_⟩
  intro h
  rcases (accepts_object_iff hasForm_anyTime).mp h with ⟨-, heq⟩ | h
  · cases heq
  · cases h with
    | type hof => exact absurd hof (by decide +kernel)

end Timestamp

end Answers

end JsonPath.TypeDefinition
