import JsonPath.Proofs.TypeDefinition.Forms

/-!
The types of the forms for objects with given members. A property is required or optional, or it is
an additional one. Which properties there are may depend on a tag, which is exempt from the rule
that there are no additional ones, and is added to the types that it chooses between.
-/

namespace JsonPath

namespace Fields

variable {α : Type}

/-- Of fields that are set in turn, the ones that are set last count. -/
theorem get?_foldl_insert {entries : Fields α} (hentries : entries.names.Nodup) (fields : Fields α)
    (name : String) :
    get? (entries.foldl (fun fields entry => fields.insert entry.1 entry.2) fields) name =
      (entries.get? name).or (fields.get? name) := by
  induction entries generalizing fields with
  | nil => rfl
  | cons entry rest ih =>
    obtain ⟨key, value⟩ := entry
    obtain ⟨hkey, hrest⟩ := List.nodup_cons.mp hentries
    rw [List.foldl_cons, ih hrest, get?_insert, get?]
    split
    · rename_i heq
      subst heq
      have hnone : get? rest key = none :=
        Option.eq_none_iff_forall_not_mem.mpr fun v hv => hkey (mem_names_iff.mpr ⟨v, hv⟩)
      rw [hnone]
      rfl
    · rfl

end Fields

namespace Plan

/-- Results that are made for fields have the names of these. -/
theorem names_of_makes {α β : Type} {A : Location → Json → DataType → Prop} {wide : Bool}
    {f : String → α → Plan β} {fields : Fields α} {results : Fields β}
    (h : (fields.mapM fun (name, a) => return (name, ← f name a)).Makes A wide results) :
    results.names = fields.names := by
  induction fields generalizing results with
  | nil =>
    obtain rfl : results = [] := h
    rfl
  | cons field rest ih =>
    obtain ⟨key, a⟩ := field
    rw [List.mapM_cons] at h
    simp only [makes_bind, makes_pure] at h
    obtain ⟨_, ⟨b, -, rfl⟩, others, hothers, rfl⟩ := h
    exact congrArg (key :: ·) (ih hothers)

end Plan

namespace TypeDefinition

open DataType

variable {root : Json} {A : Location → Json → DataType → Prop} {wide : Bool} {inside : Inside}
  {tag : String} {v w : Json} {t : DataType}

section Properties

variable {required optional : Fields Json} {additional : Bool} {first second : Fields DataType}

/-- The types of the schemas that a keyword maps names to. -/
theorem fits_mappedTypes {keyword : String} {fields : Fields Json} {types : Fields DataType}
    (hinside : ∀ steps v t, (steps, v) ∈ mapped keyword fields →
      (inside steps v).Makes A wide t → Fits root wide v t)
    (hmakes : (mappedTypes inside keyword fields).Makes A wide types) (name : String) :
    Option.Rel (Fits root wide) (fields.get? name) (types.get? name) := by
  refine JsonSchema.rel_mono (Plan.makes_mapM_fields
    (f := fun name v => inside [.name keyword, .name name] v) hmakes name) ?_
  intro v t hv ht
  exact hinside _ v t (List.mem_map_of_mem (Fields.mem_of_get?_eq_some hv)) ht

theorem names_mappedTypes {keyword : String} {fields : Fields Json} {types : Fields DataType}
    (hmakes : (mappedTypes inside keyword fields).Makes A wide types) :
    types.names = fields.names :=
  Plan.names_of_makes (f := fun name v => inside [.name keyword, .name name] v) hmakes

theorem normal_mappedTypes {fields : Fields Json} {types : Fields DataType}
    (hnodup : types.names.Nodup)
    (htypes : ∀ name, Option.Rel (Fits root wide) (fields.get? name) (types.get? name)) :
    ∀ p ∈ types, p.2.Normal .none := by
  rintro ⟨name, t⟩ hp
  have hrel := htypes name
  rw [Fields.get?_eq_some_of_mem hnodup hp] at hrel
  generalize fields.get? name = v at hrel
  cases hrel with
  | some hfits => exact hfits.normal

theorem normal_foldl_insert {entries fields : Fields DataType}
    (hentries : ∀ p ∈ entries, p.2.Normal .none) (hfields : ∀ p ∈ fields, p.2.Normal .none) :
    ∀ p ∈ entries.foldl (fun ps p => Fields.insert ps p.1 p.2) fields, p.2.Normal .none := by
  induction entries generalizing fields with
  | nil => exact hfields
  | cons p rest ih =>
    obtain ⟨hp, hrest⟩ := List.forall_mem_cons.mp hentries
    exact ih hrest (Rebuilt.forall_mem_insert hfields hp)

theorem rel_or {α β : Type} {R : α → β → Prop} {a a' : Option α} {b b' : Option β}
    (h : Option.Rel R a b) (h' : Option.Rel R a' b') : Option.Rel R (a.or a') (b.or b') := by
  cases h with
  | some hab => exact .some hab
  | none => exact h'

/-- A property is either optional or required. -/
theorem get?_or_eq_some_iff (hdisjoint : ∀ name ∈ required.names, name ∉ optional.names)
    {name : String} : (optional.get? name).or (required.get? name) = some v ↔
      required.get? name = some v ∨ optional.get? name = some v := by
  rw [Option.or_eq_some_iff]
  constructor
  · rintro (h | ⟨-, h⟩)
    · exact .inr h
    · exact .inl h
  · rintro (h | h)
    · refine .inr ⟨Option.eq_none_iff_forall_not_mem.mpr fun u hu => ?_, h⟩
      exact hdisjoint name (Fields.mem_names_iff.mpr ⟨v, h⟩) (Fields.mem_names_iff.mpr ⟨u, hu⟩)
    · exact .inl h

/-- A member is described if the schema of its name accepts it, or the type of all others describes
it. -/
theorem covers_property {schema : Option Json} {u : Option DataType} {rest : DataType}
    (hfits : Option.Rel (Fits root wide) schema u) (hw : w.WellFormed)
    (haccepts : ∀ v, schema = some v → Accepts root none v w)
    (hothers : schema = none → rest.Describes (some w)) : (u.getD rest).Describes (some w) := by
  cases hfits with
  | some hv => exact hv.covers w hw (haccepts _ rfl)
  | none => exact hothers rfl

theorem accepts_property {schema : Option Json} {u : Option DataType} {rest : DataType}
    (hfits : Option.Rel (Fits root wide) schema u) (hexact : wide = false) (hw : w.WellFormed)
    (h : (u.getD rest).Describes (some w)) :
    (∃ v, schema = some v ∧ Accepts root none v w) ∨
      schema = none ∧ rest.Describes (some w) := by
  cases hfits with
  | some hv => exact .inl ⟨_, rfl, hv.accepts hexact w hw h⟩
  | none => exact .inr ⟨rfl, h⟩

section Members

variable {properties : Fields DataType}

/-- An object that is accepted is described. -/
theorem describes_of_formAccepts (hdisjoint : ∀ name ∈ required.names, name ∉ optional.names)
    (hproperties : ∀ name, Option.Rel (Fits root wide)
      ((optional.get? name).or (required.get? name)) (properties.get? name)) (hw : w.WellFormed)
    (haccepts : FormAccepts root none (.properties required optional additional) w) :
    (ofObject properties (if additional then .top else .bottom) required.names).Describes
      (some w) := by
  cases haccepts with
  | properties hpresent heach hothers =>
    refine describes_ofObject_members_iff.mpr ⟨hpresent, ?_⟩
    intro name value hvalue
    refine covers_property (hproperties name) (wellFormed_of_get? hw hvalue) ?_ ?_
    · intro v hschema
      exact heach name v value ((get?_or_eq_some_iff hdisjoint).mp hschema) hvalue
    · intro hschema
      rcases hothers with rfl | hothers
      · exact .any
      · obtain ⟨v, hv⟩ : ∃ v, required.get? name = some v ∨ optional.get? name = some v := by
          rcases hothers name (Fields.mem_names_iff.mpr ⟨value, hvalue⟩) with hmem | hmem | h
          · exact (Fields.mem_names_iff.mp hmem).imp fun v => .inl
          · exact (Fields.mem_names_iff.mp hmem).imp fun v => .inr
          · cases h
        rw [(get?_or_eq_some_iff hdisjoint).mpr hv] at hschema
        cases hschema

/-- An object that is described by exact types is accepted. -/
theorem formAccepts_of_describes (hdisjoint : ∀ name ∈ required.names, name ∉ optional.names)
    (hproperties : ∀ name, Option.Rel (Fits root wide)
      ((optional.get? name).or (required.get? name)) (properties.get? name))
    (hexact : wide = false) (hw : w.WellFormed)
    (h : (ofObject properties (if additional then .top else .bottom) required.names).Describes
      (some w)) :
    FormAccepts root none (.properties required optional additional) w := by
  cases w with
  | object values =>
    obtain ⟨hpresent, heach⟩ := describes_ofObject_members_iff.mp h
    have hmember {name : String} {value : Json} (hvalue : Fields.get? values name = some value) :=
      accepts_property (hproperties name) hexact (wellFormed_of_get? hw hvalue)
        (heach name value hvalue)
    refine .properties hpresent ?_ ?_
    · intro name v value hschema hvalue
      rw [← get?_or_eq_some_iff hdisjoint] at hschema
      rcases hmember hvalue with ⟨v', hv', haccepts⟩ | ⟨hnone, -⟩
      · cases hschema.symm.trans hv'
        exact haccepts
      · cases hschema.symm.trans hnone
    · cases additional with
      | true => exact .inl rfl
      | false =>
        refine .inr fun name hname => ?_
        obtain ⟨value, hvalue⟩ := Fields.mem_names_iff.mp hname
        rcases hmember hvalue with ⟨v, hv, -⟩ | ⟨-, hnever⟩
        · rcases (get?_or_eq_some_iff hdisjoint).mp hv with hv | hv
          · exact .inl (Fields.mem_names_iff.mpr ⟨v, hv⟩)
          · exact .inr (.inl (Fields.mem_names_iff.mpr ⟨v, hv⟩))
        · cases hnever
  | null | bool | number | string | array => cases asObject?_of_describes h

end Members

theorem fits_properties (hdisjoint : ∀ name ∈ required.names, name ∉ optional.names)
    (hrequired : required.names.Nodup) (hoptional : optional.names.Nodup)
    (hinside : FitsInside root A wide inside (.properties required optional additional))
    (hmakes : ((Form.properties required optional additional).plan root inside).Makes A wide t) :
    (Form.properties required optional additional).Fits root wide t := by
  simp only [Form.plan, Plan.makes_bind, Plan.makes_pure] at hmakes
  obtain ⟨first, hfirst, second, hsecond, rfl⟩ := hmakes
  have hnames : Fields.names first = required.names := names_mappedTypes hfirst
  have hnames' : Fields.names second = optional.names := names_mappedTypes hsecond
  have hfits := fits_mappedTypes
    (fun steps v t hv => hinside steps v t (List.mem_append_left _ hv)) hfirst
  have hfits' := fits_mappedTypes
    (fun steps v t hv => hinside steps v t (List.mem_append_right _ hv)) hsecond
  have hproperties (name : String) : Option.Rel (Fits root wide)
      ((optional.get? name).or (required.get? name))
      (Fields.get? (second.foldl (fun ps p => Fields.insert ps p.1 p.2) first) name) := by
    rw [Fields.get?_foldl_insert (hnames' ▸ hoptional)]
    exact rel_or (hfits' name) (hfits name)
  have hnormal := normal_foldl_insert (normal_mappedTypes (hnames' ▸ hoptional) hfits')
    (normal_mappedTypes (hnames ▸ hrequired) hfits)
  refine ⟨normal_ofObject _ hnormal ?_, fun w hw h => ?_, fun hexact w hw h => ?_⟩
  · cases additional
    · exact .never
    · exact .any
  · rw [hnames]
    exact describes_of_formAccepts hdisjoint hproperties hw h
  · rw [hnames] at h
    exact formAccepts_of_describes hdisjoint hproperties hexact hw h

/-- The type of a schema that a tag may choose can be tagged. -/
theorem isUntagged_properties (htag : tag ∉ required.names)
    (hmakes : ((Form.properties required optional additional).plan root inside).Makes A wide t) :
    IsUntagged tag t := by
  simp only [Form.plan, Plan.makes_bind, Plan.makes_pure] at hmakes
  obtain ⟨first, hfirst, second, -, rfl⟩ := hmakes
  rw [names_mappedTypes hfirst]
  exact isUntagged_ofObject htag

end Properties

section Discriminator

variable {values : Fields Json}

theorem formAccepts_properties_iff {required optional : Fields Json} {additional : Bool}
    {exempt : Option String} :
    FormAccepts root exempt (.properties required optional additional) (.object values) ↔
      (∀ name ∈ required.names, ∃ w, values.get? name = some w) ∧
      (∀ name v w, required.get? name = some v ∨ optional.get? name = some v →
        values.get? name = some w → Accepts root none v w) ∧
      (additional = true ∨ ∀ name ∈ values.names,
        name ∈ required.names ∨ name ∈ optional.names ∨ exempt = some name) := by
  constructor
  · intro h
    cases h with
    | properties hpresent heach hothers => exact ⟨hpresent, heach, hothers⟩
  · rintro ⟨hpresent, heach, hothers⟩
    exact .properties hpresent heach hothers

/-- A schema that a tag may choose accepts an object, whose tag is exempt, just if it accepts the
object without the tag. -/
theorem accepts_exempt_iff (hv : IsVariant tag v) :
    Accepts root (some tag) v (.object values) ↔
      Accepts root none v (.object (values.without tag)) := by
  obtain ⟨members, required, optional, additional, rfl, hform, -, hrequired, hoptional⟩ := hv
  have hget {name : String} (hname : name ≠ tag) :
      (values.without tag).get? name = values.get? name := by
    rw [Fields.get?_without, if_neg hname]
  have hother {name : String} {v : Json}
      (h : required.get? name = some v ∨ optional.get? name = some v) : name ≠ tag := by
    rintro rfl
    rcases h with h | h
    · exact hrequired (Fields.mem_names_iff.mpr ⟨v, h⟩)
    · exact hoptional (Fields.mem_names_iff.mpr ⟨v, h⟩)
  rw [accepts_object_iff hform, accepts_object_iff hform, formAccepts_properties_iff,
    formAccepts_properties_iff]
  refine or_congr (iff_of_false nofun nofun) (and_congr ?_ (and_congr ?_ (or_congr_right ?_)))
  · refine forall₂_congr fun name hname => ?_
    rw [hget (ne_of_mem_of_not_mem hname hrequired)]
  · refine forall₄_congr fun name v w h => ?_
    rw [hget (hother h)]
  · constructor
    · intro h name hname
      obtain ⟨w, hw⟩ := Fields.mem_names_iff.mp hname
      rw [Fields.get?_without] at hw
      split at hw
      · cases hw
      · rename_i hne
        rcases h name (Fields.mem_names_iff.mpr ⟨w, hw⟩) with hmem | hmem | heq
        · exact .inl hmem
        · exact .inr (.inl hmem)
        · exact absurd (Option.some.inj heq).symm hne
    · intro h name hname
      by_cases hne : name = tag
      · exact .inr (.inr (congrArg some hne.symm))
      · obtain ⟨w, hw⟩ := Fields.mem_names_iff.mp hname
        rcases h name (Fields.mem_names_iff.mpr ⟨w, (hget hne).trans hw⟩) with hmem | hmem | heq
        · exact .inl hmem
        · exact .inr (.inl hmem)
        · cases heq

theorem fits_discriminator {mapping : Fields Json} (hmapping : mapping.names.Nodup)
    (hvariants : ∀ p ∈ mapping, IsVariant tag p.2)
    (hinside : FitsInside root A wide inside (.discriminator tag mapping))
    (hmakes : ((Form.discriminator tag mapping).plan root inside).Makes A wide t) :
    (Form.discriminator tag mapping).Fits root wide t := by
  simp only [Form.plan, Plan.makes_bind, Plan.makes_pure] at hmakes
  obtain ⟨variants, hmakes, rfl⟩ := hmakes
  -- each variant is the tagged type of a schema
  have hrel (i : Nat) : Option.Rel
      (fun p t => ∃ u, Fits root wide p.2 u ∧ IsVariant tag p.2 ∧ t = tagged tag p.1 u)
      mapping[i]? variants[i]? := by
    refine JsonSchema.rel_mono (Plan.makes_mapM hmakes i) ?_
    rintro ⟨key, v⟩ t hv ht
    simp only [Plan.makes_bind, Plan.makes_pure] at ht
    obtain ⟨-, -, u, hu, rfl⟩ := ht
    have hmem := List.mem_of_getElem? hv
    exact ⟨u, hinside _ v u (List.mem_map_of_mem hmem) hu, hvariants _ hmem, rfl⟩
  have hnormal : ∀ t ∈ variants, t.Normal .none := by
    intro t ht
    obtain ⟨p, -, u, hu, -, rfl⟩ := JsonSchema.exists_of_rel_right hrel ht
    exact normal_tagged tag p.1 hu.normal
  refine ⟨normal_unionOf hnormal, ?_, ?_⟩
  · intro w hw haccepts
    cases haccepts with
    | discriminator hchosen hleads haccepts =>
      obtain ⟨t, ht, u, hu, hvariant, rfl⟩ :=
        JsonSchema.exists_of_rel_left hrel (Fields.mem_of_get?_eq_some hleads)
      refine (describes_unionOf_of_none hnormal hw).mpr ⟨_, ht, ?_⟩
      refine describes_tagged hu.normal hw hchosen (hu.covers _ (hw.without tag) ?_)
      exact (accepts_exempt_iff hvariant).mp haccepts
  · intro hexact w hw h
    obtain ⟨t, ht, hdescribes⟩ := (describes_unionOf_of_none hnormal hw).mp h
    obtain ⟨⟨key, v⟩, hmem, u, hu, hvariant, rfl⟩ := JsonSchema.exists_of_rel_right hrel ht
    obtain ⟨values, rfl, hkey, hothers⟩ :=
      describes_of_tagged (hu.untagged hexact tag hvariant) hdescribes
    refine .discriminator hkey (Fields.get?_eq_some_of_mem hmapping hmem) ?_
    exact (accepts_exempt_iff hvariant).mpr (hu.accepts hexact _ (hw.without tag) hothers)

end Discriminator

end TypeDefinition

end JsonPath
