import JsonPath.Proofs.Json.Locations
import JsonPath.Proofs.Schema.Plan

/-!
What a series of conversions leaves behind. A schema has an exact type if it can be made from exact
types of the schemas that its plan asks for. A schema that needs its own exact type to have one has
none, so that schemas which are met again inside themselves are never exact, nor is any that is
being converted around them. Whatever was converted before, an answer is exact just if the schema
has an exact type, and then it is that type.
-/

namespace JsonPath

variable {root : Json} {plan : Location → Json → Plan DataType}

section Exact

/-- The schema at a location has an exact type, made from those of the schemas that are asked for,
at most `n` inside each other. -/
def HasExact (plan : Location → Json → Plan DataType) : Nat → Location → Json → DataType → Prop
  | 0, _, _, _ => False
  | n + 1, l, v, t => (plan l v).Makes (HasExact plan n) false t

theorem HasExact.succ {n : Nat} {l : Location} {v : Json} {t : DataType}
    (h : HasExact plan n l v t) : HasExact plan (n + 1) l v t := by
  induction n generalizing l v t with
  | zero => cases h
  | succ n ih => exact Plan.Makes.mono h fun _ _ _ => ih

theorem HasExact.mono {n m : Nat} {l : Location} {v : Json} {t : DataType}
    (h : HasExact plan n l v t) (hnm : n ≤ m) : HasExact plan m l v t := by
  induction hnm with
  | refl => exact h
  | step _ ih => exact ih.succ

/-- A schema has one exact type at most. -/
theorem HasExact.unique {n m : Nat} {l : Location} {v : Json} {t u : DataType}
    (ht : HasExact plan n l v t) (hu : HasExact plan m l v u) : t = u := by
  induction n generalizing m l v t u with
  | zero => cases ht
  | succ n ih =>
    cases m with
    | zero => cases hu
    | succ m => exact Plan.Makes.unique ht hu fun _ _ _ _ => ih

/-- A type that conversions may tell of a schema: anything, or what its plan makes of types that
are told of others, which are their exact types if they have these. -/
def Told (plan : Location → Json → Plan DataType) : Nat → Location → Json → DataType → Prop
  | 0, _, _, t => t = .top
  | n + 1, l, v, t => Told plan n l v t ∨
    (plan l v).Makes (fun l v t => Told plan n l v t ∧ ∀ m u, HasExact plan m l v u → t = u) true t

theorem Told.mono {n m : Nat} {l : Location} {v : Json} {t : DataType} (h : Told plan n l v t)
    (hnm : n ≤ m) : Told plan m l v t := by
  induction hnm with
  | refl => exact h
  | step _ ih => exact .inl ih

/-- A type that may be told of a schema, and is its exact type if it has one. -/
def Given (plan : Location → Json → Plan DataType) (n : Nat) (l : Location) (v : Json)
    (t : DataType) : Prop :=
  Told plan n l v t ∧ ∀ m u, HasExact plan m l v u → t = u

theorem told_of_makes {n : Nat} {l : Location} {v : Json} {t : DataType}
    (h : (plan l v).Makes (Given plan n) true t) : Told plan (n + 1) l v t := .inr h

theorem Given.mono {n m : Nat} {l : Location} {v : Json} {t : DataType} (h : Given plan n l v t)
    (hnm : n ≤ m) : Given plan m l v t := ⟨h.1.mono hnm, h.2⟩

/-- There is an exact type of what is at a location of the document. -/
def ExactAt (root : Json) (plan : Location → Json → Plan DataType) (n : Nat) (l : Location) : Prop :=
  ∃ v t, root.at? l = some v ∧ HasExact plan n l v t

/-- To have an exact type a schema needs one of another schema, inside of it. -/
def Needs (root : Json) (plan : Location → Json → Plan DataType) (outer inner : Location) : Prop :=
  ∀ n, ExactAt root plan (n + 1) outer → ExactAt root plan n inner

/-- What is at the location has no exact type. -/
def Inexact (root : Json) (plan : Location → Json → Plan DataType) (l : Location) : Prop :=
  ∀ n, ¬ ExactAt root plan n l

theorem ExactAt.mono {n m : Nat} {l : Location} (h : ExactAt root plan n l) (hnm : n ≤ m) :
    ExactAt root plan m l := by
  obtain ⟨v, t, hv, ht⟩ := h
  exact ⟨v, t, hv, ht.mono hnm⟩

theorem Needs.trans {a b c : Location} (hab : Needs root plan a b) (hbc : Needs root plan b c) :
    Needs root plan a c := fun n h => hbc n ((hab n h).mono (Nat.le_succ n))

theorem Needs.inexact {outer inner : Location} (h : Needs root plan outer inner)
    (hinner : Inexact root plan inner) : Inexact root plan outer := by
  intro n hn
  exact hinner n (h n (hn.mono (Nat.le_succ n)))

/-- A schema that needs its own exact type has none. -/
theorem Needs.inexact_of_self {l : Location} (h : Needs root plan l l) : Inexact root plan l := by
  intro n
  induction n with
  | zero =>
    rintro ⟨_, _, _, ht⟩
    cases ht
  | succ n ih => exact fun hn => ih (h n hn)

theorem Inexact.needs {outer : Location} (h : Inexact root plan outer) (inner : Location) :
    Needs root plan outer inner := fun n hn => absurd hn (h (n + 1))

end Exact

section Invariant

/-- The answer about a location is right: it is exact just if there is an exact type, and then it
is that type. In any case it is a type that may be told. -/
structure Answers (root : Json) (plan : Location → Json → Plan DataType) (l : Location)
    (answer : Converted) : Prop where
  exact : answer.exact = true → ∃ n v, root.at? l = some v ∧ HasExact plan n l v answer.type
  inexact : answer.exact = false → Inexact root plan l
  told : ∃ n v, root.at? l = some v ∧ Told plan n l v answer.type

/-- What is told of a schema with an exact type is this type. -/
theorem Answers.agrees {l : Location} {answer : Converted} (h : Answers root plan l answer)
    {v : Json} (hv : root.at? l = some v) {n : Nat} {u : DataType} (hu : HasExact plan n l v u) :
    answer.type = u := by
  cases hexact : answer.exact with
  | true =>
    obtain ⟨m, w, hw, ht⟩ := h.exact hexact
    obtain rfl := Option.some.inj (hv.symm.trans hw)
    exact ht.unique hu
  | false => exact absurd ⟨v, u, hv, hu⟩ (h.inexact hexact n)

/-- What is made of an answer is made of a type that is given. -/
theorem Answers.makes {α : Type} {asked : Location} {answer : Converted}
    (h : Answers root plan asked answer) {w : Json} (hw : root.at? asked = some w)
    {next : DataType → Plan α} {n : Nat} {a : α}
    (hnext : (next answer.type).Makes (Given plan n) true a) :
    ∃ m, (Plan.asking asked w next).Makes (Given plan m) true a := by
  obtain ⟨m, w', hw', htold⟩ := h.told
  obtain rfl := Option.some.inj (hw.symm.trans hw')
  have hgiven : Given plan m asked w answer.type := ⟨htold, fun _ _ hu => h.agrees hw hu⟩
  refine ⟨max m n, answer.type, hgiven.mono (Nat.le_max_left m n), ?_⟩
  exact Plan.Makes.mono hnext fun _ _ _ hmade => hmade.mono (Nat.le_max_right m n)

/-- The locations of the schemas that are being converted. -/
def Conversion.locations (c : Conversion) : List Location := c.pending.map (·.location)

/-- What holds of a converter between the steps of conversions. -/
structure Conversion.Sound (root : Json) (plan : Location → Json → Plan DataType)
    (c : Conversion) : Prop where
  finished : ∀ e ∈ c.finished, Answers root plan e.1 e.2
  inexact : ∀ p ∈ c.pending, p.exact = false → Inexact root plan p.location
  nested : c.locations.Pairwise fun inner outer => Needs root plan outer inner
  distinct : c.locations.Nodup
  inside : ∀ l ∈ c.locations, ∃ v, root.at? l = some v

/-- The same schemas are being converted, and none has become exact again. -/
inductive Lowered : List Pending → List Pending → Prop
  | nil : Lowered [] []
  | cons {p q : Pending} {ps qs : List Pending} (same : q.location = p.location)
      (lower : q.exact = true → p.exact = true) (rest : Lowered ps qs) :
      Lowered (p :: ps) (q :: qs)

theorem Lowered.refl (ps : List Pending) : Lowered ps ps := by
  induction ps with
  | nil => exact .nil
  | cons p rest ih => exact .cons rfl id ih

theorem Lowered.trans {ps qs rs : List Pending} (hpq : Lowered ps qs) (hqr : Lowered qs rs) :
    Lowered ps rs := by
  induction hpq generalizing rs with
  | nil => exact hqr
  | cons same lower _ ih =>
    cases hqr with
    | cons same' lower' rest' => exact .cons (same'.trans same) (fun h => lower (lower' h)) (ih rest')

theorem Lowered.locations {ps qs : List Pending} (h : Lowered ps qs) :
    qs.map (·.location) = ps.map (·.location) := by
  induction h with
  | nil => rfl
  | cons same _ _ ih => rw [List.map_cons, List.map_cons, same, ih]

theorem Lowered.length {ps qs : List Pending} (h : Lowered ps qs) : qs.length = ps.length := by
  rw [← List.length_map (·.location), h.locations, List.length_map]

theorem lowered_map (ps : List Pending) :
    Lowered ps (ps.map fun p => { p with exact := false }) := by
  induction ps with
  | nil => exact .nil
  | cons p rest ih => exact .cons rfl nofun ih

theorem lowered_widen (c : Conversion) : Lowered c.pending c.widen.pending := by
  obtain ⟨finished, pending⟩ := c
  cases pending with
  | nil => exact .nil
  | cons p rest => exact .cons rfl nofun (.refl rest)

variable {c c' : Conversion} {l : Location}

namespace Conversion.Sound

theorem start : Conversion.start.Sound root plan where
  finished := List.forall_mem_nil _
  inexact := List.forall_mem_nil _
  nested := .nil
  distinct := List.nodup_nil
  inside := List.forall_mem_nil _

/-- Results may become inexact, of schemas that have no exact type. -/
theorem lower (hc : c.Sound root plan) (hfinished : c'.finished = c.finished)
    (hlowered : Lowered c.pending c'.pending)
    (hinexact : ∀ p ∈ c'.pending, p.exact = false → Inexact root plan p.location) :
    c'.Sound root plan := by
  have hlocations : c'.locations = c.locations := hlowered.locations
  constructor
  · rw [hfinished]
    exact hc.finished
  · exact hinexact
  · rw [hlocations]
    exact hc.nested
  · rw [hlocations]
    exact hc.distinct
  · rw [hlocations]
    exact hc.inside

theorem widen (hc : c.Sound root plan)
    (hinexact : ∀ p ∈ c.pending.head?, Inexact root plan p.location) :
    c.widen.Sound root plan := by
  refine hc.lower ?_ (lowered_widen c) ?_
  · obtain ⟨finished, pending⟩ := c
    cases pending <;> rfl
  · obtain ⟨finished, pending⟩ := c
    cases pending with
    | nil => exact List.forall_mem_nil _
    | cons p rest =>
      refine List.forall_mem_cons.mpr ⟨fun _ => hinexact p rfl, ?_⟩
      exact (List.forall_mem_cons.mp hc.inexact).2

theorem widenAll (hc : c.Sound root plan)
    (hinexact : ∀ p ∈ c.pending, Inexact root plan p.location) : c.widenAll.Sound root plan := by
  refine hc.lower rfl (lowered_map c.pending) ?_
  intro q hq _
  obtain ⟨p, hp, rfl⟩ := List.mem_map.mp hq
  exact hinexact p hp

theorem enter (hc : c.Sound root plan) (hneeds : ∀ outer ∈ c.locations, Needs root plan outer l)
    (hl : l ∉ c.locations) (hv : ∃ v, root.at? l = some v) : (c.enter l).Sound root plan where
  finished := hc.finished
  inexact := List.forall_mem_cons.mpr ⟨nofun, hc.inexact⟩
  nested := List.pairwise_cons.mpr ⟨hneeds, hc.nested⟩
  distinct := List.nodup_cons.mpr ⟨hl, hc.distinct⟩
  inside := List.forall_mem_cons.mpr ⟨hv, hc.inside⟩

/-- No more schemas are being converted than there are values in the document. -/
theorem length_le (hc : c.Sound root plan) : c.pending.length ≤ root.size := by
  have hle := Json.length_le_size hc.distinct hc.inside
  rwa [Conversion.locations, List.length_map] at hle

/-- What the innermost schema needs is needed by all schemas around it. -/
theorem needs_of_head (hc : c.Sound root plan)
    (hhead : ∀ p ∈ c.pending.head?, Needs root plan p.location l) :
    ∀ outer ∈ c.locations, Needs root plan outer l := by
  obtain ⟨finished, pending⟩ := c
  cases pending with
  | nil => exact List.forall_mem_nil _
  | cons p rest =>
    have hp := hhead p rfl
    refine List.forall_mem_cons.mpr ⟨hp, ?_⟩
    intro outer houter
    exact ((List.pairwise_cons.mp hc.nested).1 outer houter).trans hp

end Conversion.Sound

/-- Schemas that need one which is being converted already are all inexact: it needs its own exact
type, and those around it need that type. -/
theorem inexact_of_pending (hneeds : ∀ outer ∈ c.locations, Needs root plan outer l)
    (hl : l ∈ c.locations) : ∀ outer ∈ c.locations, Inexact root plan outer := by
  intro outer houter
  exact (hneeds outer houter).inexact (hneeds l hl).inexact_of_self

end Invariant

section Step

variable {c : Conversion} {l : Location} {v : Json}

/-- What is known after the conversion of a schema. -/
structure Outcome (root : Json) (plan : Location → Json → Plan DataType) (c : Conversion)
    (l : Location) (out : Converted × Conversion) : Prop where
  sound : out.2.Sound root plan
  lowered : Lowered c.pending out.2.pending
  answers : Answers root plan l out.1
  head : ∀ p ∈ out.2.pending.head?, p.exact = true → out.1.exact = true

/-- What is left of the plan for a schema makes its exact type, and nothing else. -/
structure Remains (plan : Location → Json → Plan DataType) (l : Location) (v : Json)
    (rest : Plan DataType) : Prop where
  needed : ∀ n t, HasExact plan (n + 1) l v t → rest.Makes (HasExact plan n) false t
  enough : ∀ n t, rest.Makes (HasExact plan n) false t → ∃ m, HasExact plan m l v t

theorem remains_plan (l : Location) (v : Json) : Remains plan l v (plan l v) where
  needed _ _ h := h
  enough n _ h := ⟨n + 1, h⟩

theorem Remains.next {asked : Location} {w : Json} {next : DataType → Plan DataType} {t : DataType}
    {m : Nat} (h : Remains plan l v (.asking asked w next)) (ht : HasExact plan m asked w t) :
    Remains plan l v (next t) where
  needed n u hu := by
    obtain ⟨t', ht', hnext⟩ := h.needed n u hu
    rwa [ht.unique ht']
  enough n u hu := by
    refine h.enough (max m n) u ⟨t, ht.mono (Nat.le_max_left m n), ?_⟩
    exact Plan.Makes.mono hu fun _ _ _ hmade => hmade.mono (Nat.le_max_right m n)

/-- A schema needs those that its plan asks for. -/
theorem Remains.needs {asked : Location} {w : Json} {next : DataType → Plan DataType}
    (h : Remains plan l v (.asking asked w next)) (hv : root.at? l = some v)
    (hw : root.at? asked = some w) : Needs root plan l asked := by
  rintro n ⟨v', u, hv', hu⟩
  obtain rfl := Option.some.inj (hv.symm.trans hv')
  obtain ⟨t, ht, -⟩ := h.needed n u hu
  exact ⟨w, t, hw, ht⟩

theorem Remains.inexact {next : Plan DataType} (h : Remains plan l v (.widening next))
    (hv : root.at? l = some v) : Inexact root plan l := by
  rintro n ⟨v', u, hv', hu⟩
  obtain rfl := Option.some.inj (hv.symm.trans hv')
  exact nomatch (h.needed n u (hu.mono (Nat.le_succ n))).1

theorem Convert.run_node (l : Location) (convert : Convert DataType) (c : Conversion) :
    (Convert.node l convert).run c =
      match c.finished? l with
      | some answer => (answer, if answer.exact then c else c.widen)
      | none =>
        if c.isPending l then (⟨.top, false⟩, c.widenAll)
        else (convert.run (c.enter l)).2.leave (convert.run (c.enter l)).1 := by
  have hrun : (Convert.node l convert).run c =
      ((match c.finished? l with
        | some answer => do
          if !answer.exact then Convert.widen
          return answer
        | none =>
          if c.isPending l then do
            set c.widenAll
            return ⟨.top, false⟩
          else do
            set (c.enter l)
            let type ← convert
            modifyGet fun c => c.leave type : Convert Converted)).run c := rfl
  rw [hrun]
  cases c.finished? l with
  | some answer => cases hexact : answer.exact <;> simp [hexact] <;> rfl
  | none => cases c.isPending l <;> simp <;> rfl

/-- What is known after a plan for the schema at a location was followed. -/
structure Followed (root : Json) (plan : Location → Json → Plan DataType) (c : Conversion)
    (l : Location) (v : Json) (q : Plan DataType) (out : DataType × Conversion) : Prop where
  sound : out.2.Sound root plan
  lowered : Lowered c.pending out.2.pending
  exact : ∀ p ∈ out.2.pending.head?, p.exact = true → ∃ n, HasExact plan n l v out.1
  made : ∃ n, q.Makes (Given plan n) true out.1

/-- While the plan for the innermost schema is followed, the schema stays exact only as long as
what is left of the plan makes its exact type. -/
theorem sound_follow {target : Location → Json → Convert Converted} {size : Nat}
    (htarget : ∀ (c : Conversion) (l : Location) (v : Json), c.Sound root plan →
      c.pending.length = size → root.at? l = some v →
      (∀ p ∈ c.pending.head?, Needs root plan p.location l) →
      Outcome root plan c l ((target l v).run c))
    {q : Plan DataType} (hasks : q.Asks fun l v => root.at? l = some v) {c : Conversion}
    {p : Pending} {rest : List Pending} (hc : c.Sound root plan) (hpending : c.pending = p :: rest)
    (hsize : c.pending.length = size) (hv : root.at? p.location = some v)
    (hq : p.exact = true → Remains plan p.location v q) :
    Followed root plan c p.location v q
      ((Convert.follow (fun l v => return (← target l v).type) q).run c) := by
  induction q generalizing c p rest with
  | done t =>
    refine ⟨hc, .refl _, ?_, 0, rfl⟩
    intro p' hp' hexact
    change p' ∈ c.pending.head? at hp'
    rw [hpending] at hp'
    cases hp'
    exact (hq hexact).enough 0 t rfl
  | widening next ih =>
    have hinexact : Inexact root plan p.location := by
      cases hexact : p.exact with
      | true => exact (hq hexact).inexact hv
      | false => exact hc.inexact p (by rw [hpending]; exact List.mem_cons_self) hexact
    have hwiden : c.widen.pending = { p with exact := false } :: rest := by
      rw [Conversion.widen, hpending]
    have hsound : c.widen.Sound root plan := by
      apply hc.widen
      intro p' hp'
      rw [hpending] at hp'
      cases hp'
      exact hinexact
    have hlength : c.widen.pending.length = size := by
      rw [← hsize, hwiden, hpending, List.length_cons, List.length_cons]
    have hnext := ih hasks hsound hwiden hlength hv nofun
    obtain ⟨n, hmakes⟩ := hnext.made
    exact ⟨hnext.sound, (lowered_widen c).trans hnext.lowered, hnext.exact, n, rfl, hmakes⟩
  | asking asked w next ih =>
    have hneeds : ∀ p' ∈ c.pending.head?, Needs root plan p'.location asked := by
      intro p' hp'
      rw [hpending] at hp'
      cases hp'
      cases hexact : p.exact with
      | true => exact (hq hexact).needs hv hasks.1
      | false => exact (hc.inexact p (by rw [hpending]; exact List.mem_cons_self) hexact).needs asked
    obtain ⟨hsound, hlowered, hanswer, hhead⟩ := htarget c asked w hc hsize hasks.1 hneeds
    have hlowered' := hlowered
    rw [hpending] at hlowered'
    generalize hpending' : ((target asked w).run c).2.pending = pending' at hlowered' hhead
    cases hlowered' with
    | @cons _ p' _ rest' same lower lowered =>
      -- the schema is still exact only if the answer is, so that the plan goes on with an exact type
      have hq' (hexact : p'.exact = true) :
          Remains plan p'.location v (next ((target asked w).run c).1.type) := by
        obtain ⟨n, w', hw', ht⟩ := hanswer.exact (hhead p' rfl hexact)
        obtain rfl := Option.some.inj (hasks.1.symm.trans hw')
        rw [same]
        exact (hq (lower hexact)).next ht
      have hlength : ((target asked w).run c).2.pending.length = size := by
        rw [← hsize, hpending, hpending', List.length_cons, List.length_cons, lowered.length]
      rw [← same] at hv
      have hnext := ih _ (hasks.2 _) hsound hpending' hlength hv hq'
      rw [same] at hnext
      obtain ⟨n, hmakes⟩ := hnext.made
      exact ⟨hnext.sound, hlowered.trans hnext.lowered, hnext.exact,
        hanswer.makes hasks.1 hmakes⟩

theorem isPending_iff (c : Conversion) (l : Location) :
    c.isPending l = true ↔ l ∈ c.locations := by
  simp [Conversion.isPending, Conversion.locations]

theorem mem_of_finished? {answer : Converted} (h : c.finished? l = some answer) :
    (l, answer) ∈ c.finished := by
  obtain ⟨before, after, heq, -⟩ := List.lookup_eq_some_iff.mp h
  rw [heq]
  exact List.mem_append_right _ List.mem_cons_self

theorem exact_of_mem_widen {p : Pending} (h : p ∈ c.widen.pending.head?) : p.exact = false := by
  obtain ⟨finished, pending⟩ := c
  cases pending <;> cases h
  rfl

/-- The answer that is already there. -/
theorem outcome_finished {answer : Converted} (hc : c.Sound root plan)
    (hanswer : Answers root plan l answer)
    (hneeds : ∀ p ∈ c.pending.head?, Needs root plan p.location l) :
    Outcome root plan c l (answer, if answer.exact then c else c.widen) := by
  cases hexact : answer.exact with
  | true => exact ⟨hc, .refl _, hanswer, fun _ _ _ => hexact⟩
  | false =>
    refine ⟨hc.widen ?_, lowered_widen c, hanswer, ?_⟩
    · intro p hp
      exact (hneeds p hp).inexact (hanswer.inexact hexact)
    · intro p hp hexact'
      rw [exact_of_mem_widen hp] at hexact'
      cases hexact'

/-- The answer about a schema that is met again inside itself. -/
theorem outcome_again (hc : c.Sound root plan) (hv : root.at? l = some v)
    (hneeds : ∀ p ∈ c.pending.head?, Needs root plan p.location l) (hl : l ∈ c.locations) :
    Outcome root plan c l (⟨.top, false⟩, c.widenAll) := by
  have hinexact := inexact_of_pending (hc.needs_of_head hneeds) hl
  refine ⟨hc.widenAll ?_, lowered_map c.pending, ⟨nofun, fun _ => hinexact l hl, 0, v, hv, rfl⟩,
    ?_⟩
  · intro p hp
    exact hinexact p.location (List.mem_map_of_mem hp)
  · intro p hp hexact
    obtain ⟨q, -, rfl⟩ := List.mem_map.mp (List.mem_of_mem_head? hp)
    cases hexact

/-- The answer about a schema whose conversion has ended. -/
theorem outcome_leave {t : DataType} {c' : Conversion} {p : Pending} {rest : List Pending}
    (hc : c'.Sound root plan) (hpending : c'.pending = p :: rest) (hlowered : Lowered c.pending rest)
    (hv : root.at? p.location = some v)
    (hexact : p.exact = true → ∃ n, HasExact plan n p.location v t)
    (htold : ∃ n, Told plan n p.location v t) : Outcome root plan c p.location (c'.leave t) := by
  have hanswer : Answers root plan p.location ⟨t, p.exact⟩ := by
    refine ⟨?_, hc.inexact p (by rw [hpending]; exact List.mem_cons_self), ?_⟩
    · intro h
      obtain ⟨n, ht⟩ := hexact h
      exact ⟨n, v, hv, ht⟩
    · obtain ⟨n, ht⟩ := htold
      exact ⟨n, v, hv, ht⟩
  have hnested := hc.nested
  have hdistinct := hc.distinct
  have hinside := hc.inside
  have hinexact := hc.inexact
  simp only [Conversion.locations, hpending, List.map_cons] at hnested hdistinct hinside
  rw [hpending] at hinexact
  have hleft : Conversion.Sound root plan ⟨(p.location, ⟨t, p.exact⟩) :: c'.finished, rest⟩ :=
    ⟨List.forall_mem_cons.mpr ⟨hanswer, hc.finished⟩, (List.forall_mem_cons.mp hinexact).2,
      (List.pairwise_cons.mp hnested).2, (List.nodup_cons.mp hdistinct).2,
      (List.forall_mem_cons.mp hinside).2⟩
  simp only [Conversion.leave, hpending]
  cases h : p.exact with
  | true =>
    rw [h] at hanswer hleft
    exact ⟨hleft, hlowered, hanswer, fun _ _ _ => rfl⟩
  | false =>
    rw [h] at hanswer hleft
    refine ⟨hleft.widen ?_, hlowered.trans (lowered_widen ⟨_, rest⟩), hanswer, ?_⟩
    · intro outer houter
      have hmem := List.mem_map_of_mem (f := Pending.location) (List.mem_of_mem_head? houter)
      exact ((List.pairwise_cons.mp hnested).1 _ hmem).inexact (hanswer.inexact rfl)
    · intro q hq hexact
      rw [exact_of_mem_widen hq] at hexact
      cases hexact

/-- Conversions keep what holds of a converter, and their answers are right. -/
theorem outcome_within
    (hasks : ∀ l v, root.at? l = some v → (plan l v).Asks fun l v => root.at? l = some v)
    (depth : Nat) {c : Conversion} {l : Location} {v : Json} (hc : c.Sound root plan)
    (hv : root.at? l = some v) (hneeds : ∀ p ∈ c.pending.head?, Needs root plan p.location l)
    (hdepth : root.size < depth + c.pending.length) :
    Outcome root plan c l ((Convert.within plan depth l v).run c) := by
  induction depth generalizing c l v with
  | zero =>
    have hle := hc.length_le
    omega
  | succ depth ih =>
    rw [Convert.within, Convert.run_node]
    split
    · rename_i hfinished
      exact outcome_finished hc (hc.finished _ (mem_of_finished? hfinished)) hneeds
    · split
      · rename_i hagain
        exact outcome_again hc hv hneeds ((isPending_iff c l).mp hagain)
      · rename_i hnew
        have hl : l ∉ c.locations := fun h => hnew ((isPending_iff c l).mpr h)
        have hentered := hc.enter (hc.needs_of_head hneeds) hl ⟨v, hv⟩
        have htarget (c' : Conversion) (l : Location) (v : Json) (hc' : c'.Sound root plan)
            (hlength : c'.pending.length = c.pending.length + 1) (hv : root.at? l = some v)
            (hneeds : ∀ p ∈ c'.pending.head?, Needs root plan p.location l) :
            Outcome root plan c' l ((Convert.within plan depth l v).run c') :=
          ih hc' hv hneeds (by omega)
        obtain ⟨hsound, hlowered, hhead, n, hmade⟩ := sound_follow htarget (hasks l v hv) hentered rfl rfl hv
          fun _ => remains_plan l v
        generalize (Convert.follow _ (plan l v)).run (c.enter l) = out at hsound hlowered hhead hmade
        change Lowered (⟨l, true⟩ :: c.pending) _ at hlowered
        generalize hpending : out.2.pending = pending at hlowered hhead
        cases hlowered with
        | cons same _ lowered =>
          have hleave := outcome_leave (t := out.1) hsound hpending lowered (by rw [same]; exact hv)
            (fun hexact => by rw [same]; exact hhead _ rfl hexact)
            ⟨n + 1, told_of_makes (by rw [same]; exact hmade)⟩
          rwa [same] at hleave

end Step

section Series

variable {convert : Location → Json → Convert Converted}

/-- The values of a document by their locations. -/
def Nodes (root : Json) (nodes : List (Location × Json)) : Prop :=
  ∀ n ∈ nodes, root.at? n.1 = some n.2

/-- A converter after it was asked for schemas, one after the other. -/
def Conversion.after (convert : Location → Json → Convert Converted)
    (asked : List (Location × Json)) : Conversion :=
  asked.foldl (fun c n => ((convert n.1 n.2).run c).2) .start

/-- Answers are not exact because of what was asked before, nor do exact ones differ, and nothing
is left to be converted after an answer. -/
structure Independent (root : Json) (convert : Location → Json → Convert Converted) : Prop where
  settled : ∀ asked, Nodes root asked → (Conversion.after convert asked).pending = []
  exact : ∀ asked l v, Nodes root asked → root.at? l = some v →
    ((convert l v).run (.after convert asked)).1.exact = ((convert l v).run .start).1.exact
  type : ∀ asked l v, Nodes root asked → root.at? l = some v →
    ((convert l v).run (.after convert asked)).1.exact = true →
    ((convert l v).run (.after convert asked)).1.type = ((convert l v).run .start).1.type

/-- An answer that starts and ends with nothing to be converted. -/
structure Settles (root : Json) (plan : Location → Json → Plan DataType)
    (convert : Location → Json → Convert Converted) : Prop where
  sound : ∀ c l v, c.Sound root plan → c.pending = [] → root.at? l = some v →
    ((convert l v).run c).2.Sound root plan
  pending : ∀ c l v, c.Sound root plan → c.pending = [] → root.at? l = some v →
    ((convert l v).run c).2.pending = []
  answers : ∀ c l v, c.Sound root plan → c.pending = [] → root.at? l = some v →
    Answers root plan l ((convert l v).run c).1

theorem settles_within
    (hasks : ∀ l v, root.at? l = some v → (plan l v).Asks fun l v => root.at? l = some v)
    {depth : Nat} (hdepth : root.size < depth) :
    Settles root plan (Convert.within plan depth) := by
  have houtcome (c : Conversion) (l : Location) (v : Json) (hc : c.Sound root plan)
      (hpending : c.pending = []) (hv : root.at? l = some v) :
      Outcome root plan c l ((Convert.within plan depth l v).run c) := by
    refine outcome_within hasks depth hc hv ?_ (by omega)
    rw [hpending]
    nofun
  refine ⟨fun c l v hc hpending hv => (houtcome c l v hc hpending hv).sound, ?_,
    fun c l v hc hpending hv => (houtcome c l v hc hpending hv).answers⟩
  intro c l v hc hpending hv
  have hlowered := (houtcome c l v hc hpending hv).lowered
  rw [hpending] at hlowered
  exact List.map_eq_nil_iff.mp hlowered.locations

theorem Settles.after (h : Settles root plan convert) {asked : List (Location × Json)}
    (hasked : Nodes root asked) :
    (Conversion.after convert asked).Sound root plan ∧
      (Conversion.after convert asked).pending = [] := by
  have hfold {c : Conversion} (hc : c.Sound root plan) (hpending : c.pending = []) :
      let c' := asked.foldl (fun c n => ((convert n.1 n.2).run c).2) c
      c'.Sound root plan ∧ c'.pending = [] := by
    induction asked generalizing c with
    | nil => exact ⟨hc, hpending⟩
    | cons n rest ih =>
      obtain ⟨hn, hrest⟩ := List.forall_mem_cons.mp hasked
      exact ih hrest (h.sound c _ _ hc hpending hn) (h.pending c _ _ hc hpending hn)
  exact hfold .start rfl

/-- Two right answers about a schema agree. -/
theorem Answers.eq {l : Location} {a b : Converted} (ha : Answers root plan l a)
    (hb : Answers root plan l b) : a.exact = b.exact ∧ (a.exact = true → a.type = b.type) := by
  have hexact {a b : Converted} (ha : Answers root plan l a) (hb : Answers root plan l b)
      (h : a.exact = true) : b.exact = true := by
    obtain ⟨n, v, hv, ht⟩ := ha.exact h
    exact eq_true_of_ne_false fun hfalse => hb.inexact hfalse n ⟨v, _, hv, ht⟩
  refine ⟨Bool.eq_iff_iff.mpr ⟨hexact ha hb, hexact hb ha⟩, ?_⟩
  intro h
  obtain ⟨n, v, hv, ht⟩ := ha.exact h
  exact (hb.agrees hv ht).symm

theorem Settles.independent (h : Settles root plan convert) : Independent root convert := by
  have hagree (asked : List (Location × Json)) (l : Location) (v : Json)
      (hasked : Nodes root asked) (hv : root.at? l = some v) :=
    (h.answers _ l v (h.after hasked).1 (h.after hasked).2 hv).eq
      (h.answers _ l v Conversion.Sound.start rfl hv)
  exact ⟨fun _ hasked => (h.after hasked).2, fun asked l v hasked hv => (hagree asked l v hasked hv).1,
    fun asked l v hasked hv => (hagree asked l v hasked hv).2⟩

end Series

end JsonPath
