import JsonPath.Proofs.DataType.Membership

/-!
The values that are described by types in normal form. A value has a type of its own, an atom that
is a subtype of just the types that describe the value, so that unions, intersections and the
functions that build types describe exactly what their names say.
-/

namespace JsonPath.DataType

variable {S : NumberSet} {a t u : DataType} {v : Option Json}

section Values

/-- The atom is a subtype of just the types that describe the value. -/
structure StandsFor (S : NumberSet) (a : DataType) (v : Option Json) : Prop where
  atom : a.isAtom = true
  normal : a.Normal S
  describes_iff : ∀ t : DataType, t.Normal S → (a.isSubtypeOf t = true ↔ t.Describes v)

/-- The type of a value, or of the absence of one. -/
def ofValue? : Option Json → DataType
  | some v => ofJson v
  | none => nothing

/-- The type of a value is a subtype of just the types that describe the value. -/
theorem standsFor_ofJson {v : Json} (hv : v.Over S) : StandsFor S (ofJson v) (some v) where
  atom := isAtom_ofJson v
  normal := normal_ofJson hv
  describes_iff _ ht := ofJson_isSubtypeOf_iff v ht.scalarLiterals

theorem Normal.describes_of_ofJson {t : DataType} {v : Json} (ht : t.Normal S)
    (hv : v.Over S) (h : (ofJson v).isSubtypeOf t = true) : t.Describes (some v) :=
  ((standsFor_ofJson hv).describes_iff t ht).mp h

theorem standsFor_ofValue? (hv : Json.Held S v) : StandsFor S (ofValue? v) v := by
  cases v with
  | none => exact ⟨rfl, .primitive, fun t _ => mayBeNothing_iff t⟩
  | some v => exact standsFor_ofJson (hv v rfl)

end Values

section Operations

variable {ts : List DataType}

theorem StandsFor.describes_unionOf_iff (h : StandsFor S a v) (hts : ∀ t ∈ ts, t.Normal S) :
    (unionOf ts).Describes v ↔ ∃ t ∈ ts, t.Describes v := by
  rw [← h.describes_iff _ (normal_unionOf hts), isSubtypeOf_unionOf_iff h.atom h.normal hts]
  exact exists_congr fun t => and_congr_right fun ht => h.describes_iff t (hts t ht)

theorem StandsFor.describes_unionOf_pair_iff (h : StandsFor S a v) (ht : t.Normal S)
    (hu : u.Normal S) : (unionOf [t, u]).Describes v ↔ t.Describes v ∨ u.Describes v := by
  rw [h.describes_unionOf_iff (forall_mem_pair ht hu)]
  simp

theorem StandsFor.describes_intersect_iff (h : StandsFor S a v) (ht : t.Normal S)
    (hu : u.Normal S) : (t.intersect u).Describes v ↔ t.Describes v ∧ u.Describes v := by
  have hmeet := hasMeets ht u hu
  rw [← h.describes_iff _ hmeet.1, hmeet.isSubtypeOf_iff h.normal, h.describes_iff t ht,
    h.describes_iff u hu]

theorem normal_intersect (ht : t.Normal S) (hu : u.Normal S) : (t.intersect u).Normal S :=
  (hasMeets ht u hu).1

theorem normal_foldl_intersect (ht : t.Normal S) (hts : ∀ u ∈ ts, u.Normal S) :
    (ts.foldl intersect t).Normal S :=
  List.foldlRecOn ts _ ht fun _ h u hu => normal_intersect h (hts u hu)

theorem StandsFor.describes_foldl_intersect_iff (h : StandsFor S a v) (ht : t.Normal S)
    (hts : ∀ u ∈ ts, u.Normal S) :
    (ts.foldl intersect t).Describes v ↔ t.Describes v ∧ ∀ u ∈ ts, u.Describes v := by
  induction ts generalizing t with
  | nil => simp
  | cons u rest ih =>
    obtain ⟨hu, hrest⟩ := List.forall_mem_cons.mp hts
    rw [List.foldl_cons, ih (normal_intersect ht hu) hrest, h.describes_intersect_iff ht hu,
      List.forall_mem_cons, and_assoc]

/-- The intersection of two types describes what both of them describe. -/
theorem intersect_describes_iff (ht : t.Built S) (hu : u.Built S) (hv : Json.Held S v) :
    (t.intersect u).Describes v ↔ t.Describes v ∧ u.Describes v :=
  (standsFor_ofValue? hv).describes_intersect_iff ht.normal hu.normal

/-- Texts, and arrays that start with a number. -/
def textOrNumberFirst : DataType :=
  unionOf [ofArray [ofPrimitive .number] top 1, ofPrimitive .string]

/-- Arrays of at most two elements, the second of which is a text. -/
def textSecond : DataType := ofArray [top, ofPrimitive .string] bottom 0

theorem intersect_describes_iff_tuple :
    textOrNumberFirst.Built .whole ∧ textSecond.Built .whole ∧
      Json.Held .whole (some (.array [.natural 1, .string "x"])) ∧
      (textOrNumberFirst.intersect textSecond).Describes
        (some (.array [.natural 1, .string "x"])) := by
  have hfirst : textOrNumberFirst.Built .whole :=
    .unionOf (forall_mem_pair (.ofArray 1 (List.forall_mem_singleton.mpr (.primitive _)) .top)
      (.primitive _))
  have hsecond : textSecond.Built .whole := .ofArray 0 (forall_mem_pair .top (.primitive _)) .bottom
  have hnumbers : (Json.array [.natural 1, .string "x"]).Over .whole :=
    .array (List.forall_mem_cons.mpr
      ⟨.number ⟨1, by decide, rfl⟩, List.forall_mem_singleton.mpr (.string "x")⟩)
  have hboth (t : DataType) (ht : t.Built .whole)
      (hsub : (ofJson (.array [.natural 1, .string "x"])).isSubtypeOf t = true) :
      t.Describes (some (.array [.natural 1, .string "x"])) :=
    ((standsFor_ofJson hnumbers).describes_iff t ht.normal).mp hsub
  exact ⟨hfirst, hsecond, hnumbers.held,
    (intersect_describes_iff hfirst hsecond hnumbers.held).mpr
      ⟨hboth _ hfirst (by decide +kernel), hboth _ hsecond (by decide +kernel)⟩⟩

end Operations

end JsonPath.DataType
