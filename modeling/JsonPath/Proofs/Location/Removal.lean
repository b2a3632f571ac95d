import JsonPath.Location.Edit
import JsonPath.Proofs.Json.Locations
import JsonPath.Proofs.Location.Order
import Mathlib.Data.Finset.Card

/-!
Removing several locations of a document at once. Removals are carried out one after the other, from
the last location to the first, and each one leaves the locations before it where they were. So the
outcome is the document rebuilt without what stood at the given locations at the start, and the
count is that of the different locations that led to something below the root.
-/

namespace JsonPath

open Location (order)

namespace Json

mutual

/-- The value rebuilt without what stands at the locations that `gone` holds of. The value itself
stays. -/
def without (gone : Location → Bool) : Json → Json
  | .array items => .array (withoutItems gone 0 items)
  | .object members => .object (withoutMembers gone members)
  | v => v

/-- The items that stay, the first of them at the position `i` of its array. -/
def withoutItems (gone : Location → Bool) (i : Nat) : List Json → List Json
  | [] => []
  | item :: rest =>
    if gone [.index i] then withoutItems gone (i + 1) rest
    else (item.without fun l => gone (.index i :: l)) :: withoutItems gone (i + 1) rest

def withoutMembers (gone : Location → Bool) : List (String × Json) → List (String × Json)
  | [] => []
  | (name, value) :: rest =>
    if gone [.name name] then withoutMembers gone rest
    else (name, value.without fun l => gone (.name name :: l)) :: withoutMembers gone rest

end

mutual

/-- Only the locations that lead to something below the value count. -/
theorem without_congr {gone gone' : Location → Bool} : (v : Json) → v.WellFormed →
    (∀ l, l ≠ [] → (v.at? l).isSome = true → gone l = gone' l) → v.without gone = v.without gone'
  | .array items, hv, h => by
    rw [without, without]
    congr 1
    refine withoutItems_congr items 0 hv ?_
    intro j item l hitem hl
    rw [Nat.zero_add]
    refine h _ (List.cons_ne_nil _ _) ?_
    rw [at?, child?, hitem]
    exact hl
  | .object members, hv, h => by
    rw [without, without]
    congr 1
    refine withoutMembers_congr members hv.2 ?_
    intro name value l hmember hl
    refine h _ (List.cons_ne_nil _ _) ?_
    rw [at?, child?, Fields.get?_eq_some_of_mem hv.1 hmember]
    exact hl
  | .null, _, _ | .bool _, _, _ | .number _, _, _ | .string _, _, _ => rfl

theorem withoutItems_congr {gone gone' : Location → Bool} : (items : List Json) → (i : Nat) →
    WellFormedItems items →
    (∀ (j : Nat) item l, items[j]? = some item → (item.at? l).isSome = true →
      gone (.index (i + j) :: l) = gone' (.index (i + j) :: l)) →
    withoutItems gone i items = withoutItems gone' i items
  | [], _, _, _ => rfl
  | item :: rest, i, hv, h => by
    have hself : gone [.index i] = gone' [.index i] := h 0 item [] rfl rfl
    have hitem := without_congr item hv.1 fun l _ hl => h 0 item l rfl hl
    have hrest : withoutItems gone (i + 1) rest = withoutItems gone' (i + 1) rest := by
      refine withoutItems_congr rest (i + 1) hv.2 ?_
      intro j item l hitem hl
      have hnext := h (j + 1) item l hitem hl
      rwa [← Nat.add_assoc, Nat.add_right_comm] at hnext
    rw [withoutItems, withoutItems, hself, hrest]
    exact congrArg (fun first => if gone' [.index i] then _ else first :: _) hitem

theorem withoutMembers_congr {gone gone' : Location → Bool} : (members : List (String × Json)) →
    WellFormedMembers members →
    (∀ name value l, (name, value) ∈ members → (value.at? l).isSome = true →
      gone (.name name :: l) = gone' (.name name :: l)) →
    withoutMembers gone members = withoutMembers gone' members
  | [], _, _ => rfl
  | (name, value) :: rest, hv, h => by
    have hself : gone [.name name] = gone' [.name name] :=
      h name value [] List.mem_cons_self rfl
    have hvalue := without_congr value hv.1 fun l _ hl => h name value l List.mem_cons_self hl
    have hrest := withoutMembers_congr rest hv.2 fun name value l hmember hl =>
      h name value l (List.mem_cons_of_mem _ hmember) hl
    rw [withoutMembers, withoutMembers, hself, hrest]
    exact congrArg (fun first => if gone' [.name name] then _ else (name, first) :: _) hvalue

end

mutual

theorem without_none : (v : Json) → (v.without fun _ => false) = v
  | .array items => by rw [without, withoutItems_none 0 items]
  | .object members => by rw [without, withoutMembers_none members]
  | .null | .bool _ | .number _ | .string _ => rfl

theorem withoutItems_none (i : Nat) : (items : List Json) →
    withoutItems (fun _ => false) i items = items
  | [] => rfl
  | item :: rest => by
    rw [withoutItems, if_neg Bool.false_ne_true, without_none item, withoutItems_none (i + 1) rest]

theorem withoutMembers_none : (members : List (String × Json)) →
    withoutMembers (fun _ => false) members = members
  | [] => rfl
  | (name, value) :: rest => by
    rw [withoutMembers, if_neg Bool.false_ne_true, without_none value, withoutMembers_none rest]

end

section Items

variable {gone : Location → Bool} {items : List Json} {child : Json} {i : Nat}

/-- The items before the first position at or below which something goes stay as they are. -/
theorem withoutItems_append (k : Nat)
    (hbefore : ∀ j < i, ∀ l, gone (.index (k + j) :: l) = false) :
    withoutItems gone k items = items.take i ++ withoutItems gone (k + i) (items.drop i) := by
  induction i generalizing k items with
  | zero => rfl
  | succ i ih =>
    cases items with
    | nil => rfl
    | cons item rest =>
      have hfirst : ∀ l, gone (.index k :: l) = false := hbefore 0 (Nat.succ_pos i)
      have hitem : (item.without fun l => gone (.index k :: l)) = item := by
        rw [funext hfirst]
        exact without_none item
      have hrest := @ih rest (k + 1) fun j hj l => by
        rw [Nat.add_right_comm]
        exact hbefore (j + 1) (Nat.succ_lt_succ hj) l
      rw [withoutItems, if_neg (by simp [hfirst]), hitem, hrest, Nat.add_right_comm]
      rfl

/-- What becomes of the item at the first position at or below which something goes, and of the
items after it. -/
theorem withoutItems_split (hi : items[i]? = some child)
    (hbefore : ∀ j < i, ∀ l, gone (.index j :: l) = false) :
    withoutItems gone 0 items = items.take i ++
      if gone [.index i] then withoutItems gone (i + 1) (items.drop (i + 1))
      else (child.without fun l => gone (.index i :: l)) ::
        withoutItems gone (i + 1) (items.drop (i + 1)) := by
  obtain ⟨hlt, rfl⟩ := List.getElem?_eq_some_iff.mp hi
  rw [withoutItems_append (i := i) 0 (by simpa using hbefore), Nat.zero_add,
    List.drop_eq_getElem_cons hlt, withoutItems]

end Items

section Members

variable {gone gone' : Location → Bool} {members : List (String × Json)} {name : String}

theorem get?_withoutMembers (members : List (String × Json)) (name : String) :
    Fields.get? (withoutMembers gone members) name =
      if gone [.name name] then none
      else (Fields.get? members name).map (·.without fun l => gone (.name name :: l)) := by
  induction members with
  | nil => simp [withoutMembers, Fields.get?]
  | cons member rest ih =>
    obtain ⟨key, value⟩ := member
    by_cases hkey : key = name
    · subst hkey
      by_cases hgone : gone [.name key] <;> simp [withoutMembers, Fields.get?, hgone, ih]
    · by_cases hgone : gone [.name key] <;> simp [withoutMembers, Fields.get?, hkey, hgone, ih]

/-- Where no member has the name, what goes at or below it does not matter. -/
theorem withoutMembers_eq_of_ne (hv : WellFormedMembers members)
    (hname : name ∉ Fields.names members)
    (h : ∀ other l, other ≠ name → gone (.name other :: l) = gone' (.name other :: l)) :
    withoutMembers gone members = withoutMembers gone' members := by
  refine withoutMembers_congr members hv ?_
  intro other value l hmember _
  refine h other l ?_
  rintro rfl
  exact hname (List.mem_map.mpr ⟨_, hmember, rfl⟩)

/-- A member that stays is removed after the others that go. -/
theorem erase_withoutMembers (hnames : (Fields.names members).Nodup)
    (hv : WellFormedMembers members) (hself : gone [.name name] = false) :
    Fields.erase (withoutMembers gone members) name =
      withoutMembers (fun l => gone l || l == [.name name]) members := by
  induction members with
  | nil => rfl
  | cons member rest ih =>
    obtain ⟨key, value⟩ := member
    obtain ⟨hkey, hnames⟩ := List.nodup_cons.mp hnames
    by_cases heq : key = name
    · subst heq
      rw [withoutMembers, withoutMembers, if_neg (by simp [hself]), if_pos (by simp),
        Fields.erase, if_pos rfl]
      refine withoutMembers_eq_of_ne hv.2 hkey ?_
      intro other l hother
      simp [hother]
    · have hstep : (Step.name key == Step.name name) = false := by simpa using heq
      by_cases hgone : gone [.name key]
      · simp [withoutMembers, hgone, ih hnames hv.2]
      · simp [withoutMembers, hgone, heq, hstep, Fields.erase, ih hnames hv.2]

/-- A member that stays is changed after the others. -/
theorem insert_withoutMembers {child : Json} {l : Location}
    (hnames : (Fields.names members).Nodup) (hv : WellFormedMembers members)
    (hself : gone [.name name] = false) (hl : l ≠ [])
    (hchild : Fields.get? members name = some child) :
    Fields.insert (withoutMembers gone members) name
        (child.without fun m => gone (.name name :: m) || m == l) =
      withoutMembers (fun m => gone m || m == .name name :: l) members := by
  induction members with
  | nil => cases hchild
  | cons member rest ih =>
    obtain ⟨key, value⟩ := member
    obtain ⟨hkey, hnames⟩ := List.nodup_cons.mp hnames
    by_cases heq : key = name
    · subst heq
      obtain rfl : value = child := by simpa [Fields.get?] using hchild
      have hrest : withoutMembers gone rest =
          withoutMembers (fun m => gone m || m == .name key :: l) rest := by
        refine withoutMembers_eq_of_ne hv.2 hkey ?_
        intro other m hother
        simp [hother]
      rw [withoutMembers, withoutMembers, if_neg (by simp [hself]),
        if_neg (by simp [hself, hl]), Fields.insert, if_pos rfl, hrest]
      simp
    · have hstep : (Step.name key == Step.name name) = false := by simpa using heq
      have hrest := ih hnames hv.2 (by simpa [Fields.get?, heq] using hchild)
      by_cases hgone : gone [.name key]
      · simp [withoutMembers, hgone, hrest]
      · simp [withoutMembers, hgone, heq, hstep, Fields.insert, hrest]

end Members

section Erasing

variable {gone : Location → Bool} {v w : Json} {step : Step} {l : Location}

/-! What is removed after removals at later locations has not been touched by them, and neither has
anything before it. -/

theorem order_of_order_cons (hgone : ∀ m, gone m = true → order (step :: l) m = .lt) :
    ∀ m, gone (step :: m) = true → order l m = .lt := by
  intro m hm
  have hlt := hgone (step :: m) hm
  rwa [Location.order_cons_cons] at hlt

theorem not_gone_self (hgone : ∀ m, gone m = true → order (step :: l) m = .lt) :
    gone [step] = false :=
  Bool.eq_false_iff.mpr fun hm => Location.not_order_prefix _ _ (hgone _ hm)

theorem not_gone_before {i j : Nat} (hj : j < i)
    (hgone : ∀ m, gone m = true → order (.index i :: l) m = .lt) (m : Location) :
    gone (.index j :: m) = false := by
  refine Bool.eq_false_iff.mpr fun hm => ?_
  have hlt := hgone _ hm
  rw [order, Step.order, Nat.compare_eq_gt.mpr hj] at hlt
  cases hlt

/-- The items before and after one at or below which something is removed next. -/
theorem withoutItems_next {items : List Json} {child : Json} {i : Nat}
    (hv : WellFormedItems items) (hi : items[i]? = some child)
    (hgone : ∀ m, gone m = true → order (.index i :: l) m = .lt) :
    ∃ front back, front.length = i ∧
      withoutItems gone 0 items =
        front ++ (child.without fun m => gone (.index i :: m)) :: back ∧
      withoutItems (fun m => gone m || m == .index i :: l) 0 items =
        front ++ if l = [] then back
          else (child.without fun m => gone (.index i :: m) || m == l) :: back := by
  have hself : gone [.index i] = false := not_gone_self hgone
  refine ⟨items.take i, withoutItems gone (i + 1) (items.drop (i + 1)), ?_, ?_, ?_⟩
  · rw [List.length_take]
    exact Nat.min_eq_left (List.getElem?_eq_some_iff.mp hi).1.le
  · rw [withoutItems_split hi fun j hj m => not_gone_before hj hgone m, if_neg (by simp [hself])]
  · have hafter : withoutItems (fun m => gone m || m == .index i :: l) (i + 1)
        (items.drop (i + 1)) = withoutItems gone (i + 1) (items.drop (i + 1)) := by
      refine withoutItems_congr _ _ ?_ ?_
      · exact wellFormedItems_iff.mpr fun item hitem =>
          wellFormedItems_iff.mp hv item (List.mem_of_mem_drop hitem)
      · intro j item m _ _
        have hne : i + 1 + j ≠ i := by omega
        simp [hne]
    rw [withoutItems_split hi ?_, hafter]
    · cases l <;> simp [hself]
    · intro j hj m
      simp [not_gone_before hj hgone m, hj.ne]

theorem length_withoutItems_le (i : Nat) (items : List Json) :
    (withoutItems gone i items).length ≤ items.length := by
  induction items generalizing i with
  | nil => exact Nat.le_refl 0
  | cons item rest ih =>
    rw [withoutItems]
    split
    · exact Nat.le_succ_of_le (ih (i + 1))
    · exact Nat.succ_le_succ (ih (i + 1))

/-- A removal after those at later locations goes as it would without them. -/
theorem erase?_without (hv : v.WellFormed) (hgone : ∀ m, gone m = true → order l m = .lt)
    (hl : l ≠ []) :
    (v.without gone).erase? l = (v.at? l).map fun _ => v.without fun m => gone m || m == l := by
  induction l generalizing v gone with
  | nil => exact absurd rfl hl
  | cons step rest ih =>
    have hbelow {child : Json} (hchild : v.child? step = some child) (hne : rest ≠ []) :=
      ih (hv.child? hchild) (order_of_order_cons hgone) hne
    cases v with
    | array items =>
      cases step with
      | index i =>
        cases hchild : items[i]? with
        | none =>
          have hle := List.getElem?_eq_none_iff.mp hchild
          have hlength := (@length_withoutItems_le gone 0 items).trans hle
          cases rest <;> simp [without, erase?, eraseChild?, at?, child?, hchild, hlength]
        | some child =>
          obtain ⟨front, back, rfl, hbefore, hafter⟩ := withoutItems_next hv hchild hgone
          rw [without, without, hbefore, hafter, at?, child?, hchild]
          cases rest with
          | nil =>
            rw [erase?, eraseChild?, if_pos (by simp),
              List.eraseIdx_append_of_length_le (Nat.le_refl _), Nat.sub_self,
              List.eraseIdx_cons_zero, if_pos rfl]
            rfl
          | cons => simp [erase?, hbelow hchild, Function.comp_def]
      | name => cases rest <;> rfl
    | object members =>
      cases step with
      | index => cases rest <;> rfl
      | name name =>
        have hself : gone [.name name] = false := not_gone_self hgone
        have hget := @get?_withoutMembers gone members name
        rw [if_neg (by simp [hself])] at hget
        rw [without, without, at?, child?]
        cases hchild : Fields.get? members name with
        | none =>
          rw [hchild] at hget
          cases rest <;> simp [erase?, eraseChild?, Fields.contains, hget]
        | some child =>
          rw [hchild] at hget
          cases rest with
          | nil =>
            rw [← erase_withoutMembers hv.1 hv.2 hself]
            simp [erase?, eraseChild?, Fields.contains, hget, at?]
          | cons =>
            rw [← insert_withoutMembers hv.1 hv.2 hself (List.cons_ne_nil _ _) hchild]
            simp [erase?, hget, hbelow hchild, Function.comp_def]
    | null | bool | number | string => cases step <;> cases rest <;> rfl

/-- Whether a location leads to something that can be removed. -/
def leadsBelow (v : Json) (l : Location) : Bool := l ≠ [] && (v.at? l).isSome

/-- One step of removing: what stood at the location at the start goes as well, and counts. -/
theorem step_erase? (hv : v.WellFormed) (hgone : ∀ m, gone m = true → order l m = .lt) (n : Nat) :
    (Edited.mk (v.without gone) n).step (erase? l) =
      ⟨v.without fun m => gone m || m == l, n + if v.leadsBelow l then 1 else 0⟩ := by
  have hsame (h : v.leadsBelow l = false) :
      v.without gone = v.without fun m => gone m || m == l := by
    refine without_congr v hv fun m hm hsome => ?_
    have hne : m ≠ l := by
      rintro rfl
      simp [leadsBelow, hm, hsome] at h
    simp [hne]
  unfold Edited.step
  by_cases hl : l = []
  · subst hl
    have hnone : erase? [] (v.without gone) = none := by rw [erase?]
    rw [hnone, hsame rfl]
    simp [leadsBelow]
  · dsimp only
    rw [erase?_without hv hgone hl]
    cases hat : v.at? l with
    | none =>
      have hbelow : v.leadsBelow l = false := by simp [leadsBelow, hat]
      rw [hsame hbelow, hbelow]
      rfl
    | some w => simp [leadsBelow, hl, hat]

/-- Removing at locations in increasing order, the last one first. -/
theorem foldr_step_erase? (hv : v.WellFormed) {ls : List Location}
    (hls : ls.Pairwise fun a b => order a b = .lt) :
    ls.foldr (fun l (e : Edited) => e.step (erase? l)) ⟨v, 0⟩ =
      ⟨v.without fun m => decide (m ∈ ls), ls.countP v.leadsBelow⟩ := by
  induction ls with
  | nil => simp [without_none]
  | cons l rest ih =>
    obtain ⟨hlt, hrest⟩ := List.pairwise_cons.mp hls
    rw [List.foldr_cons, ih hrest, step_erase? hv (by simpa using hlt), List.countP_cons]
    congr 2
    funext m
    by_cases hm : m = l <;> simp [hm]

end Erasing

/-- Removing at some locations leaves the document rebuilt without what stood there, and counts the
different locations other than the root that led to a value. -/
theorem remove_eq_without (locations : List Location) {v : Json} (hv : v.WellFormed) :
    v.remove locations =
      ⟨v.without fun l => decide (l ∈ locations),
        (locations.toFinset.filter fun l => l ≠ [] ∧ (v.at? l).isSome = true).card⟩ := by
  have hnodup := Location.nodup_eraseReps_sort locations
  have hmem : ∀ l, l ∈ (Location.sort locations).eraseReps ↔ l ∈ locations :=
    fun _ => Location.mem_eraseReps_sort
  have hfinset : (Location.sort locations).eraseReps.toFinset = locations.toFinset :=
    Finset.ext fun l => by rw [List.mem_toFinset, List.mem_toFinset, hmem]
  have hcount : (Location.sort locations).eraseReps.countP v.leadsBelow =
      (locations.toFinset.filter fun l => l ≠ [] ∧ (v.at? l).isSome = true).card := by
    rw [← hfinset, List.countP_eq_length_filter,
      ← List.toFinset_card_of_nodup (hnodup.filter _), List.toFinset_filter]
    simp [leadsBelow]
  rw [remove, List.foldl_reverse, foldr_step_erase? hv (Location.pairwise_eraseReps_sort locations),
    hcount]
  simp only [hmem]

/-- Given in any order: two items of an array, something inside one of them and inside one that
stays, the root, a name that is not there, and a repetition. -/
theorem remove_eq_without_nested :
    (object [("a", array [null, array [bool true, null], bool false]), ("b", null)]).WellFormed ∧
    (object [("a", array [null, array [bool true, null], bool false]), ("b", null)]).remove
        [[.name "a", .index 0], [], [.name "a", .index 1, .index 0], [.name "c"],
          [.name "a", .index 2], [.name "a", .index 0]] =
      ⟨object [("a", array [array [null]]), ("b", null)], 3⟩ := by
  have hwellFormed : (object [("a", array [null, array [bool true, null], bool false]),
      ("b", null)]).WellFormed := by
    simp [WellFormed, WellFormedItems, WellFormedMembers, Fields.names]
  refine ⟨hwellFormed, (remove_eq_without _ hwellFormed).trans ?_⟩
  rfl

end Json

end JsonPath
