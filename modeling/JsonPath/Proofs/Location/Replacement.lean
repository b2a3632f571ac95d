import JsonPath.Location.Edit
import JsonPath.Proofs.Json.Same
import Mathlib.Data.List.Pairwise
import Mathlib.Data.List.Perm.Basic

/-!
Replacing several locations of a document at once. A replacement changes what stands at its location
and leaves every location alone that is not on one line with it, so replacements at locations that
are apart from each other can be carried out in any order. What contains a replaced value keeps its
outline: the names and the number of what it holds, in their order.
-/

namespace JsonPath

/-- Neither of the locations is at or inside the other. -/
def Location.Apart (a b : Location) : Prop := ¬ a <+: b ∧ ¬ b <+: a

namespace Location

variable {a b : Location} {s t : Step}

theorem Apart.symm (h : a.Apart b) : b.Apart a := And.symm h

instance : Std.Symm Apart := ⟨fun _ _ h => h.symm⟩

theorem not_apart_nil_left : ¬ Apart [] b := fun h => h.1 List.nil_prefix

theorem not_apart_nil_right : ¬ Apart a [] := fun h => h.2 List.nil_prefix

theorem Apart.cons_cases (h : Apart (s :: a) (t :: b)) : s ≠ t ∨ s = t ∧ a.Apart b := by
  by_cases hst : s = t
  · subst hst
    rw [Apart, List.cons_prefix_cons, List.cons_prefix_cons] at h
    exact .inr ⟨rfl, fun hab => h.1 ⟨rfl, hab⟩, fun hba => h.2 ⟨rfl, hba⟩⟩
  · exact .inl hst

end Location

open Location (Apart)

theorem Fields.insert_of_get? {α : Type} {fields : Fields α} {name : String} {x : α}
    (h : fields.get? name = some x) : fields.insert name x = fields := by
  induction fields with
  | nil => cases h
  | cons entry rest ih =>
    obtain ⟨key, old⟩ := entry
    by_cases hkey : key = name
    · rw [get?, if_pos hkey] at h
      rw [insert, if_pos hkey, Option.some.inj h]
    · rw [get?, if_neg hkey] at h
      rw [insert, if_neg hkey, ih h]

theorem Fields.insert_insert {α : Type} (fields : Fields α) (name : String) (x y : α) :
    (fields.insert name x).insert name y = fields.insert name y := by
  induction fields with
  | nil => simp [insert]
  | cons entry rest ih =>
    obtain ⟨key, old⟩ := entry
    by_cases hkey : key = name <;> simp [insert, hkey, ih]

/-- Two names that occur can be given their values in either order. -/
theorem Fields.insert_comm {α : Type} {fields : Fields α} {name other : String} {x y u w : α}
    (hname : fields.get? name = some u) (hother : fields.get? other = some w)
    (hne : name ≠ other) :
    (fields.insert name x).insert other y = (fields.insert other y).insert name x := by
  induction fields with
  | nil => cases hname
  | cons entry rest ih =>
    obtain ⟨key, old⟩ := entry
    by_cases hkey : key = name
    · subst hkey
      simp [insert, hne]
    · by_cases hkey' : key = other
      · subst hkey'
        simp [insert, hkey]
      · rw [get?, if_neg hkey] at hname
        rw [get?, if_neg hkey'] at hother
        simp [insert, hkey, hkey', ih hname hother]

theorem Fields.names_insert_of_get? {α : Type} {fields : Fields α} {name : String} {x y : α}
    (h : fields.get? name = some x) : (fields.insert name y).names = fields.names := by
  induction fields with
  | nil => cases h
  | cons entry rest ih =>
    obtain ⟨key, old⟩ := entry
    by_cases hkey : key = name
    · simp [insert, names, hkey]
    · rw [get?, if_neg hkey] at h
      have hrest := ih h
      simp only [names] at hrest
      simp [insert, names, hkey, hrest]

namespace Json

variable {f : Json → Json} {v w old x y : Json} {s t : Step} {l m : Location}

/-! ### Children -/

/-- The value with another child at a step that leads to one. -/
def setChild (v : Json) (step : Step) (w : Json) : Json :=
  match v, step with
  | array items, .index i => array (items.set i w)
  | object members, .name name => object (Fields.insert members name w)
  | v, _ => v

/-- What a value tells of its children without the children: how many items it has, or the names of
its members in their order. -/
def outline : Json → Json
  | array items => array (items.map fun _ => null)
  | object members => object (members.map fun member => (member.1, null))
  | v => v

theorem child?_setChild_self (h : v.child? s = some old) : (v.setChild s w).child? s = some w := by
  cases v <;> cases s <;> try cases h
  · obtain ⟨hi, -⟩ := List.getElem?_eq_some_iff.mp h
    exact List.getElem?_set_self hi
  · simp [setChild, child?]

theorem child?_setChild_of_ne (h : s ≠ t) : (v.setChild s w).child? t = v.child? t := by
  cases v with
  | array items =>
    cases s with
    | name => rfl
    | index i =>
      cases t with
      | name => rfl
      | index j => exact List.getElem?_set_ne fun hij => h (congrArg Step.index hij)
  | object members =>
    cases s with
    | index => rfl
    | name a =>
      cases t with
      | index => rfl
      | name b =>
        have hne : a ≠ b := fun hab => h (congrArg Step.name hab)
        simp [setChild, child?, hne]
  | null | bool | number | string => rfl

theorem setChild_self (h : v.child? s = some w) : v.setChild s w = v := by
  cases v <;> cases s <;> try cases h
  · obtain ⟨hi, hget⟩ := List.getElem?_eq_some_iff.mp h
    rw [setChild, ← hget, List.set_getElem_self]
  · rw [setChild, Fields.insert_of_get? h]

theorem setChild_setChild (v : Json) (s : Step) (x y : Json) :
    (v.setChild s x).setChild s y = v.setChild s y := by
  cases v <;> cases s <;> try rfl
  · simp [setChild]
  · simp [setChild, Fields.insert_insert]

theorem setChild_comm (hs : v.child? s = some old) (ht : v.child? t = some w) (hne : s ≠ t) :
    (v.setChild s x).setChild t y = (v.setChild t y).setChild s x := by
  cases v <;> cases s <;> cases t <;> try first | cases hs | cases ht
  · have hij := fun hij => hne (congrArg Step.index hij)
    simp [setChild, List.set_comm _ _ hij]
  · have hnames := fun hnames => hne (congrArg Step.name hnames)
    simp [setChild, Fields.insert_comm hs ht hnames]

theorem outline_setChild (h : v.child? s = some old) : (v.setChild s w).outline = v.outline := by
  cases v with
  | array items =>
    cases s with
    | name => cases h
    | index i => simp [setChild, outline, List.map_set, List.map_const']
  | object members =>
    cases s with
    | index => cases h
    | name a =>
      have hnames : ((Fields.insert members a w).map Prod.fst) = members.map Prod.fst :=
        Fields.names_insert_of_get? h
      have houtline (ms : List (String × Json)) :
          (object ms).outline = object ((ms.map Prod.fst).map fun name => (name, null)) := by
        rw [outline, List.map_map]
        rfl
      rw [setChild, houtline, houtline, hnames]
  | null | bool | number | string => cases h

/-! ### One replacement -/

theorem modify?_cons (f : Json → Json) (step : Step) (rest : Location) (v : Json) :
    modify? f (step :: rest) v =
      ((v.child? step).bind (modify? f rest)).map (v.setChild step) := by
  cases v <;> cases step <;> rfl

/-- A value is replaced just where there is one. -/
theorem isSome_modify? (f : Json → Json) (l : Location) (v : Json) :
    (modify? f l v).isSome = (v.at? l).isSome := by
  induction l generalizing v with
  | nil => rfl
  | cons step rest ih =>
    rw [modify?_cons, at?, Option.isSome_map]
    cases v.child? step with
    | none => rfl
    | some child => exact ih child

/-- What a replacement along a step comes to. -/
theorem modify?_cons_eq_some (h : modify? f (s :: l) v = some w) :
    ∃ child changed, v.child? s = some child ∧ modify? f l child = some changed ∧
      w = v.setChild s changed := by
  rw [modify?_cons, Option.map_eq_some_iff] at h
  obtain ⟨changed, hchanged, rfl⟩ := h
  obtain ⟨child, hchild, hmodify⟩ := Option.bind_eq_some_iff.mp hchanged
  exact ⟨child, changed, hchild, hmodify, rfl⟩

theorem at?_modify?_self (h : modify? f l v = some w) : w.at? l = (v.at? l).map f := by
  induction l generalizing v w with
  | nil =>
    cases h
    rfl
  | cons step rest ih =>
    obtain ⟨child, changed, hchild, hmodify, rfl⟩ := modify?_cons_eq_some h
    simp only [at?, hchild, child?_setChild_self hchild, Option.bind_some]
    exact ih hmodify

/-- Apart from its location a replacement changes nothing. -/
theorem at?_modify?_of_apart (h : modify? f l v = some w) (hlm : l.Apart m) :
    w.at? m = v.at? m := by
  induction l generalizing v w m with
  | nil => exact absurd hlm Location.not_apart_nil_left
  | cons step rest ih =>
    obtain ⟨child, changed, hchild, hmodify, rfl⟩ := modify?_cons_eq_some h
    cases m with
    | nil => exact absurd hlm Location.not_apart_nil_right
    | cons other tail =>
      rcases hlm.cons_cases with hne | ⟨rfl, hapart⟩
      · simp only [at?, child?_setChild_of_ne hne]
      · simp only [at?, hchild, child?_setChild_self hchild, Option.bind_some]
        exact ih hmodify hapart

/-- What is not at the location or inside it keeps its outline. -/
theorem outline_modify? (h : modify? f l v = some w) (hlm : ¬ l <+: m) :
    (w.at? m).map outline = (v.at? m).map outline := by
  induction l generalizing v w m with
  | nil => exact absurd List.nil_prefix hlm
  | cons step rest ih =>
    obtain ⟨child, changed, hchild, hmodify, rfl⟩ := modify?_cons_eq_some h
    cases m with
    | nil => exact congrArg some (outline_setChild hchild)
    | cons other tail =>
      by_cases hstep : step = other
      · subst hstep
        simp only [at?, hchild, child?_setChild_self hchild, Option.bind_some]
        exact ih hmodify fun hprefix => hlm (List.cons_prefix_cons.mpr ⟨rfl, hprefix⟩)
      · simp only [at?, child?_setChild_of_ne hstep]

theorem modify?_setChild_self (h : v.child? s = some old) (l : Location) :
    modify? f (s :: l) (v.setChild s x) = (modify? f l x).map (v.setChild s) := by
  rw [modify?_cons, child?_setChild_self h, Option.bind_some]
  exact congrArg (fun g => (modify? f l x).map g) (funext (setChild_setChild v s x))

theorem modify?_setChild_of_ne (h : s ≠ t) (l : Location) :
    modify? f (t :: l) (v.setChild s x) =
      ((v.child? t).bind (modify? f l)).map ((v.setChild s x).setChild t) := by
  rw [modify?_cons, child?_setChild_of_ne h]

/-- Replacements at locations that are apart can change places. -/
theorem modify?_comm (h : l.Apart m) (v : Json) :
    (modify? f l v).bind (modify? f m) = (modify? f m v).bind (modify? f l) := by
  induction l generalizing m v with
  | nil => exact absurd h Location.not_apart_nil_left
  | cons step rest ih =>
    cases m with
    | nil => exact absurd h Location.not_apart_nil_right
    | cons other tail =>
      rw [modify?_cons, modify?_cons]
      rcases h.cons_cases with hne | ⟨rfl, hapart⟩
      · cases hs : (v.child? step).bind (modify? f rest) <;>
          cases ht : (v.child? other).bind (modify? f tail)
        · rfl
        · simp [modify?_setChild_of_ne hne.symm, hs]
        · simp [modify?_setChild_of_ne hne, ht]
        · obtain ⟨child, hchild, -⟩ := Option.bind_eq_some_iff.mp hs
          obtain ⟨child', hchild', -⟩ := Option.bind_eq_some_iff.mp ht
          simp [modify?_setChild_of_ne hne, modify?_setChild_of_ne hne.symm, hs, ht,
            setChild_comm hchild hchild' hne]
      · cases hchild : v.child? step with
        | none => rfl
        | some child =>
          have hboth (a b : Location) :
              ((modify? f a child).map (v.setChild step)).bind (modify? f (step :: b)) =
                ((modify? f a child).bind (modify? f b)).map (v.setChild step) := by
            rw [Option.bind_map, Option.map_bind]
            exact Option.bind_congr fun x _ => modify?_setChild_self hchild b
          rw [Option.bind_some, Option.bind_some, hboth, hboth, ih hapart]

theorem modify?_id (h : modify? id l v = some w) : w = v := by
  induction l generalizing v w with
  | nil => exact (Option.some.inj h).symm
  | cons step rest ih =>
    obtain ⟨child, changed, hchild, hmodify, rfl⟩ := modify?_cons_eq_some h
    obtain rfl := ih hmodify
    exact setChild_self hchild

end Json

/-! ### Several replacements -/

namespace Edited

variable {f : Json → Json} {e : Edited} {l m : Location}

/-- One replacement, if its location is there. -/
theorem step_modify? (f : Json → Json) (l : Location) (e : Edited) :
    (e.document.at? l = none ∧ e.step (Json.modify? f l) = e) ∨
      ∃ w, (e.document.at? l).isSome = true ∧ Json.modify? f l e.document = some w ∧
        e.step (Json.modify? f l) = ⟨w, e.count + 1⟩ := by
  have hsome := Json.isSome_modify? f l e.document
  unfold step
  cases hmodify : Json.modify? f l e.document with
  | none =>
    rw [hmodify] at hsome
    exact .inl ⟨Option.not_isSome_iff_eq_none.mp (by rw [← hsome]; decide), rfl⟩
  | some w =>
    rw [hmodify] at hsome
    exact .inr ⟨w, hsome.symm, rfl, rfl⟩

theorem step_comm (h : l.Apart m) (e : Edited) :
    (e.step (Json.modify? f l)).step (Json.modify? f m) =
      (e.step (Json.modify? f m)).step (Json.modify? f l) := by
  have hcomm := Json.modify?_comm (f := f) h e.document
  unfold step
  cases hl : Json.modify? f l e.document <;> cases hm : Json.modify? f m e.document
  · simp [hl]
  · simp only [hl, hm, Option.bind_none, Option.bind_some] at hcomm ⊢
    rw [← hcomm]
  · simp only [hl, hm, Option.bind_none, Option.bind_some] at hcomm ⊢
    rw [hcomm]
  · rename_i v w
    simp only [hl, hm, Option.bind_some] at hcomm ⊢
    -- the first location is still there after the second replacement
    have hstill : (Json.modify? f l w).isSome = true := by
      rw [Json.isSome_modify?, Json.at?_modify?_of_apart hm h.symm, ← Json.isSome_modify? f, hl]
      rfl
    obtain ⟨both, hboth⟩ := Option.isSome_iff_exists.mp hstill
    rw [hcomm, hboth]

end Edited

namespace Json

variable {f : Json → Json} {v : Json} {locations : List Location}

/-- What a replacement of the values at some locations comes to: how many there were, what stands
at the locations, what has been left alone, and what the containers around them tell. -/
structure Replaced (f : Json → Json) (locations : List Location) (v : Json) (e : Edited) : Prop
    where
  count : e.count = locations.countP fun l => (v.at? l).isSome
  targets : ∀ l ∈ locations, e.document.at? l = (v.at? l).map f
  elsewhere : ∀ m, (∀ l ∈ locations, l.Apart m) → e.document.at? m = v.at? m
  above : ∀ l ∈ locations, ∀ m, m <+: l → m ≠ l →
    (e.document.at? m).map outline = (v.at? m).map outline

/-- A run of replacements goes on from any document and any count. -/
def replaceFrom (f : Json → Json) (locations : List Location) (e : Edited) : Edited :=
  locations.foldl (fun e l => e.step (modify? f l)) e

theorem at?_replaceFrom (f : Json → Json) {m : Location} (h : ∀ l ∈ locations, l.Apart m)
    (e : Edited) : (replaceFrom f locations e).document.at? m = e.document.at? m := by
  induction locations generalizing e with
  | nil => rfl
  | cons l rest ih =>
    rw [List.forall_mem_cons] at h
    rw [replaceFrom, List.foldl_cons]
    refine (ih h.2 _).trans ?_
    rcases e.step_modify? f l with ⟨-, hstep⟩ | ⟨w, -, hw, hstep⟩
    · rw [hstep]
    · rw [hstep]
      exact at?_modify?_of_apart hw h.1

theorem outline_replaceFrom (f : Json → Json) {m : Location} (h : ∀ l ∈ locations, ¬ l <+: m)
    (e : Edited) : ((replaceFrom f locations e).document.at? m).map outline =
      (e.document.at? m).map outline := by
  induction locations generalizing e with
  | nil => rfl
  | cons l rest ih =>
    rw [List.forall_mem_cons] at h
    rw [replaceFrom, List.foldl_cons]
    refine (ih h.2 _).trans ?_
    rcases e.step_modify? f l with ⟨-, hstep⟩ | ⟨w, -, hw, hstep⟩
    · rw [hstep]
    · rw [hstep]
      exact outline_modify? hw h.1

theorem targets_replaceFrom (f : Json → Json) (hapart : locations.Pairwise Apart) (e : Edited)
    {l : Location} (hl : l ∈ locations) :
    (replaceFrom f locations e).document.at? l = (e.document.at? l).map f := by
  induction locations generalizing e with
  | nil => cases hl
  | cons first rest ih =>
    obtain ⟨hfirst, hrest⟩ := List.pairwise_cons.mp hapart
    rw [replaceFrom, List.foldl_cons]
    rcases List.mem_cons.mp hl with rfl | hl
    · refine (at?_replaceFrom f (fun m hm => (hfirst m hm).symm) _).trans ?_
      rcases e.step_modify? f l with ⟨hnone, hstep⟩ | ⟨w, -, hw, hstep⟩
      · rw [hstep, hnone]
        rfl
      · rw [hstep]
        exact at?_modify?_self hw
    · refine (ih hrest _ hl).trans ?_
      rcases e.step_modify? f first with ⟨-, hstep⟩ | ⟨w, -, hw, hstep⟩
      · rw [hstep]
      · rw [hstep, at?_modify?_of_apart hw (hfirst l hl)]

theorem count_replaceFrom (f : Json → Json) (hapart : locations.Pairwise Apart) (e : Edited) :
    (replaceFrom f locations e).count =
      e.count + locations.countP fun l => (e.document.at? l).isSome := by
  induction locations generalizing e with
  | nil => rfl
  | cons first rest ih =>
    obtain ⟨hfirst, hrest⟩ := List.pairwise_cons.mp hapart
    rw [replaceFrom, List.foldl_cons]
    refine (ih hrest _).trans ?_
    rcases e.step_modify? f first with ⟨hnone, hstep⟩ | ⟨w, hsome, hw, hstep⟩
    · simp [hstep, hnone]
    · have hcount : (rest.countP fun l => (w.at? l).isSome) =
          rest.countP fun l => (e.document.at? l).isSome := by
        refine List.countP_congr fun m hm => ?_
        rw [at?_modify?_of_apart hw (hfirst m hm)]
      simp only [hstep, hcount, List.countP_cons, if_pos hsome]
      omega

theorem replaceFrom_perm (f : Json → Json) (hapart : locations.Pairwise Apart)
    {others : List Location} (hperm : locations.Perm others) (e : Edited) :
    replaceFrom f others e = replaceFrom f locations e := by
  refine (hperm.foldl_eq' ?_ e).symm
  intro l hl m hm e
  by_cases heq : l = m
  · rw [heq]
  · exact Edited.step_comm (hapart.forall hl hm heq) e

theorem document_replaceFrom_id (locations : List Location) (e : Edited) :
    (replaceFrom id locations e).document = e.document := by
  induction locations generalizing e with
  | nil => rfl
  | cons l rest ih =>
    rw [replaceFrom, List.foldl_cons]
    refine (ih _).trans ?_
    rcases e.step_modify? id l with ⟨-, hstep⟩ | ⟨w, -, hw, hstep⟩
    · rw [hstep]
    · rw [hstep]
      exact modify?_id hw

/-- A location above one of several that are apart is neither at nor inside any of them. -/
theorem not_prefix_of_above (hapart : locations.Pairwise Apart) {l m t : Location}
    (hl : l ∈ locations) (hml : m <+: l) (hne : m ≠ l) (ht : t ∈ locations) : ¬ t <+: m := by
  intro htm
  have htl : t = l := by
    by_contra hother
    exact (hapart.forall ht hl hother).1 (htm.trans hml)
  subst htl
  exact hne (hml.eq_of_length (Nat.le_antisymm hml.length_le htm.length_le))

/-- Replacing the values at locations that are apart changes these values and no others, and the
order in which the locations are given does not matter. Replacing values by themselves changes
nothing, whatever the locations are. -/
theorem replace_touches_targets (hapart : locations.Pairwise Apart) (f : Json → Json) (v : Json) :
    Replaced f locations v (v.replace (fun _ => f) locations) ∧
      (∀ others, locations.Perm others →
        v.replace (fun _ => f) others = v.replace (fun _ => f) locations) ∧
      ∀ any, (v.replace (fun _ w => w) any).document = v := by
  refine ⟨?_, ?_, ?_⟩
  · exact {
      count := (count_replaceFrom f hapart ⟨v, 0⟩).trans (Nat.zero_add _)
      targets := fun _ hl => targets_replaceFrom f hapart ⟨v, 0⟩ hl
      elsewhere := fun _ hm => at?_replaceFrom f hm ⟨v, 0⟩
      above := fun _ hl _ hml hne =>
        outline_replaceFrom f (fun _ ht => not_prefix_of_above hapart hl hml hne ht) ⟨v, 0⟩ }
  · exact fun _ hperm => replaceFrom_perm f hapart hperm ⟨v, 0⟩
  · exact fun any => document_replaceFrom_id any ⟨v, 0⟩

/-- Items and members of one document, one of them absent and one looked for in the wrong kind of
container. -/
theorem replace_touches_targets_nested :
    let v := object [("a", array [bool true, object [("b", null)]]), ("c", string "x")]
    let locations : List Location :=
      [[.name "c"], [.name "a", .index 1, .name "b"], [.name "a", .index 4], [.name "a", .name "b"]]
    locations.Pairwise Apart ∧
      Replaced (fun w => array [w]) locations v
        ⟨object [("a", array [bool true, object [("b", array [null])]]),
          ("c", array [string "x"])], 2⟩ ∧
      v.replace (fun _ w => array [w]) locations.reverse =
        v.replace (fun _ w => array [w]) locations ∧
      (v.replace (fun _ w => w) ([] :: locations)).document = v := by
  intro v locations
  have hapart : locations.Pairwise Apart := by
    simp [locations, Apart]
  obtain ⟨hreplaced, hperm, hid⟩ := replace_touches_targets hapart (fun w => array [w]) v
  exact ⟨hapart, hreplaced, hperm _ locations.reverse_perm.symm, hid _⟩

end Json

end JsonPath
