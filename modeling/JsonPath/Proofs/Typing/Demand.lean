import JsonPath.Proofs.Typing.Computed
import Mathlib.Order.WellFounded

/-!
An analyzer may remember types. Since every computation ends, no type is needed, however
indirectly, to compute itself, so it is never requested again before it is known. What is
remembered is what would be computed anew, and so the answers of an analyzer do not depend on what
it has been asked before.
-/

namespace JsonPath.Analyzer

variable {a : Analyzer} {α : Type}

section Needs

/-- A request that a computation makes, directly. -/
inductive Asks (a : Analyzer) : {α : Type} → Inquiry α → Nat → Prop
  | now {α : Type} {id : Nat} {next : DataType → Inquiry α} : Asks a (.request id next) id
  | later {α : Type} {id other : Nat} {t : DataType} {next : DataType → Inquiry α}
      (inner : a.Computes (a.compute id) t) (rest : Asks a (next t) other) :
      Asks a (.request id next) other

/-- The type of the first element is requested to compute that of the second. -/
def Needed (a : Analyzer) (other id : Nat) : Prop := a.Asks (a.compute id) other

/-- Whatever a computation that ends asks for is reached after finitely many requests. -/
theorem Computes.acc {i : Inquiry α} {x : α} (h : a.Computes i x) :
    ∀ id, a.Asks i id → Acc a.Needed id := by
  induction h with
  | done => nofun
  | request inner _ ihinner ihrest =>
    intro id hid
    cases hid with
    | now => exact .intro _ ihinner
    | later inner' rest =>
      rw [inner.unique _ inner'] at rest
      exact ihrest id rest

/-- No type is needed for itself. -/
theorem Regular.not_needed_self (ha : a.Regular) (id : Nat) :
    ¬ Relation.TransGen a.Needed id id := by
  have hwf : WellFounded a.Needed := ⟨fun id => .intro id (ha.computes_typeOf? id).acc⟩
  exact hwf.transGen.irrefl.irrefl id

end Needs

section Tables

/-- The types in the table are those that are computed. -/
def Sound (a : Analyzer) (table : Table) : Prop :=
  ∀ id t, table[id]?.join = some t → a.Computes (a.compute id) t

theorem sound_fresh (a : Analyzer) : a.Sound a.fresh := by
  intro id t h
  rw [fresh, List.getElem?_replicate] at h
  split at h <;> cases h

theorem Sound.set {table : Table} (h : a.Sound table) {id : Nat} {t : DataType}
    (ht : a.Computes (a.compute id) t) : a.Sound (table.set id (some t)) := by
  intro other u hu
  rw [List.getElem?_set] at hu
  by_cases heq : id = other
  · subst heq
    rw [if_pos rfl] at hu
    split at hu
    · cases hu
      exact ht
    · cases hu
  · rw [if_neg heq] at hu
    exact h other u hu

variable {pending : List Nat} {table table' : Table} {i : Inquiry α} {requests : List Request}
  {x : α}

/-- A run comes to what is computed anew, and leaves a sound table sound. -/
theorem Run.computes (h : a.Run pending table i requests x table') (hs : a.Sound table) :
    a.Computes i x ∧ a.Sound table' := by
  induction h with
  | done => exact ⟨.done, hs⟩
  | known entry _ ih =>
    obtain ⟨hrest, htable⟩ := ih hs
    exact ⟨.request (hs _ _ entry) hrest, htable⟩
  | made _ _ _ ihcompute ihrest =>
    obtain ⟨hinner, hentered⟩ := ihcompute hs
    obtain ⟨hrest, htable⟩ := ihrest (hentered.set hinner)
    exact ⟨.request hinner hrest, htable⟩

/-- What is computed anew is what a run comes to, whatever a sound table holds. -/
theorem Computes.exists_run (h : a.Computes i x) : ∀ pending table, a.Sound table →
    ∃ requests table', a.Run pending table i requests x table' := by
  induction h with
  | done => exact fun _ table _ => ⟨[], table, .done⟩
  | @request _ id t next x inner rest ihinner ihrest =>
    intro pending table hs
    cases hentry : table[id]?.join with
    | some u =>
      have hu : u = t := inner.unique u (hs id u hentry)
      obtain ⟨requests, table', hrun⟩ := ihrest pending table hs
      exact ⟨_, table', .known hentry (hu ▸ hrun)⟩
    | none =>
      obtain ⟨within, entered, hmade⟩ := ihinner (id :: pending) table hs
      have hentered := (hmade.computes hs).2.set inner
      obtain ⟨requests, table', hrun⟩ := ihrest pending _ hentered
      exact ⟨_, table', .made hentry hmade hrun⟩

/-- Nothing about a run is left open. -/
theorem Run.unique (h : a.Run pending table i requests x table') : ∀ requests' y table'',
    a.Run pending table i requests' y table'' →
      requests' = requests ∧ y = x ∧ table'' = table' := by
  induction h with
  | done =>
    intro _ _ _ h'
    cases h'
    exact ⟨rfl, rfl, rfl⟩
  | known entry _ ih =>
    intro _ _ _ h'
    cases h' with
    | known entry' rest' =>
      obtain rfl := Option.some.inj (entry.symm.trans entry')
      obtain ⟨rfl, rfl, rfl⟩ := ih _ _ _ rest'
      exact ⟨rfl, rfl, rfl⟩
    | made vacant' => exact absurd (entry.symm.trans vacant') nofun
  | made vacant _ _ ihcompute ihrest =>
    intro _ _ _ h'
    cases h' with
    | known entry' => exact absurd (entry'.symm.trans vacant) nofun
    | made _ compute' rest' =>
      obtain ⟨rfl, rfl, rfl⟩ := ihcompute _ _ _ compute'
      obtain ⟨rfl, rfl, rfl⟩ := ihrest _ _ _ rest'
      exact ⟨rfl, rfl, rfl⟩

/-- If nothing is needed for itself, and all that the run asks for is needed for what is being
computed, then none of this is requested. -/
theorem Run.not_pending (hself : ∀ id, ¬ Relation.TransGen a.Needed id id)
    (h : a.Run pending table i requests x table') (hs : a.Sound table)
    (hpending : ∀ p ∈ pending, ∀ id, a.Asks i id → Relation.TransGen a.Needed id p) :
    ∀ r ∈ requests, r.id ∉ r.pending := by
  induction h with
  | done => exact List.forall_mem_nil _
  | known entry rest ih =>
    refine List.forall_mem_cons.mpr ⟨fun hin => hself _ (hpending _ hin _ .now), ih hs ?_⟩
    intro p hp id hid
    exact hpending p hp id (.later (hs _ _ entry) hid)
  | made vacant compute rest ihcompute ihrest =>
    obtain ⟨hinner, hentered⟩ := compute.computes hs
    simp only [List.forall_mem_append, List.forall_mem_cons]
    refine ⟨⟨fun hin => hself _ (hpending _ hin _ .now), ihcompute hs ?_⟩,
      ihrest (hentered.set hinner) ?_⟩
    -- while it is computed, what has been requested is itself pending
    · intro p hp id hid
      rcases List.mem_cons.mp hp with rfl | hp
      · exact .single hid
      · exact .head hid (hpending p hp _ .now)
    · intro p hp id hid
      exact hpending p hp id (.later hinner hid)

end Tables

section Calls

/-- Typing on demand is well-founded. Calls on an analyzer, however many and in whatever order, have
one run, which ends with their answers. While a type is computed it is not requested again. Each
answer is the one that a new analyzer gives, and for the number of an element it is the type of the
element. -/
structure OnDemand (a : Analyzer) : Prop where
  ends : ∀ calls, ∃! run : List Request × List DataType, a.Answers calls run.1 run.2
  apart : ∀ calls requests answers, a.Answers calls requests answers →
    ∀ r ∈ requests, r.id ∉ r.pending
  alike : ∀ calls requests answers, a.Answers calls requests answers →
    List.Forall₂ (fun call x => ∀ y, (∃ requests, a.Answers [call] requests [y]) ↔ y = x)
      calls answers
  type : ∀ id, ∃ requests, a.Answers [.type id] requests
    [(a.query.typeOf? a.environment a.root id).getD .bottom]

theorem Computes.exists_answers {calls : List Call} {answers : List DataType}
    (h : a.Computes (Inquiry.inTurn (calls.map Call.inquiry)) answers) :
    ∃ requests, a.Answers calls requests answers := by
  obtain ⟨requests, table, hrun⟩ := h.exists_run [] a.fresh a.sound_fresh
  exact ⟨requests, table, hrun⟩

theorem Answers.computes {calls : List Call} {requests : List Request} {answers : List DataType}
    (h : a.Answers calls requests answers) :
    a.Computes (Inquiry.inTurn (calls.map Call.inquiry)) answers := by
  obtain ⟨table, hrun⟩ := h
  exact (hrun.computes a.sound_fresh).1

/-- The answer of a new analyzer to a single call is the one that is computed. -/
theorem Computes.answers_iff {call : Call} {x : DataType} (h : a.Computes call.inquiry x)
    (y : DataType) : (∃ requests, a.Answers [call] requests [y]) ↔ y = x := by
  have hone : a.Computes (Inquiry.inTurn ([call].map Call.inquiry)) [x] := .inTurn (.cons h .nil)
  constructor
  · rintro ⟨requests, hanswers⟩
    exact List.singleton_inj.mp (hone.unique _ hanswers.computes)
  · rintro rfl
    exact hone.exists_answers

variable (ha : a.Regular)

include ha

theorem Regular.exists_computes {α : Type} (i : Inquiry α) : ∃ x, a.Computes i x := by
  induction i with
  | done x => exact ⟨x, .done⟩
  | request id next ih =>
    obtain ⟨x, hx⟩ := ih ((a.query.typeOf? a.environment a.root id).getD .bottom)
    exact ⟨x, .request (ha.computes_typeOf? id) hx⟩

/-- Each of several computations comes to its own result. -/
theorem Regular.computes_each {α : Type} {is : List (Inquiry α)} {xs : List α}
    (h : a.Computes (Inquiry.inTurn is) xs) :
    List.Forall₂ (fun i x => a.Computes i x) is xs := by
  obtain ⟨ys, hys⟩ : ∃ ys, List.Forall₂ (fun i x => a.Computes i x) is ys := by
    clear h
    induction is with
    | nil => exact ⟨[], .nil⟩
    | cons i rest ih =>
      obtain ⟨y, hy⟩ := ha.exists_computes i
      obtain ⟨ys, hys⟩ := ih
      exact ⟨y :: ys, .cons hy hys⟩
  rwa [(Computes.inTurn hys).unique xs h]

theorem Regular.onDemand : a.OnDemand where
  ends calls := by
    obtain ⟨answers, h⟩ := ha.exists_computes (Inquiry.inTurn (calls.map Call.inquiry))
    obtain ⟨requests, table, hrun⟩ := h.exists_answers
    refine ⟨(requests, answers), ⟨table, hrun⟩, ?_⟩
    rintro ⟨requests', answers'⟩ ⟨table', hrun'⟩
    obtain ⟨hrequests, hanswers, -⟩ := hrun.unique _ _ _ hrun'
    exact Prod.ext hrequests hanswers
  apart calls requests answers h := by
    obtain ⟨table, hrun⟩ := h
    exact hrun.not_pending ha.not_needed_self a.sound_fresh (List.forall_mem_nil _)
  alike calls requests answers h :=
    (List.forall₂_map_left_iff.mp (ha.computes_each h.computes)).imp fun _ _ hx => hx.answers_iff
  type id := by
    have hid : a.Computes (Call.type id).inquiry _ := (ha.computes_typeOf? id).typeOf
    exact (hid.answers_iff _).mpr rfl

end Calls

/-- For every text, environment and type of the document the types of the elements can be asked for
in any order. -/
theorem parse_onDemand (source : String) (environment : Environment) (root : DataType) :
    OnDemand ⟨Query.parse source, environment, root⟩ :=
  (regular_parse source environment root).onDemand

end JsonPath.Analyzer
