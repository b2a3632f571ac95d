import JsonPath.Proofs.Syntax.Extents
import JsonPath.Proofs.Syntax.Numbering
import JsonPath.Syntax.Index

/-!
The table of a query agrees with its tree. The traversal enters every element with its parent, and
the elements of a query have different numbers, so no entry is lost. Hence the table finds each
element by its number, then its parent, and the way up from parent to parent ends at the query.
-/

namespace JsonPath

namespace Index

variable {α : Type}

theorem join_put (slots : List (Option α)) (id other : Nat) (x : Option α) :
    (put slots id x)[other]?.join = if id = other then x else slots[other]?.join := by
  rw [put, List.getElem?_set]
  by_cases h : id = other
  · subst h
    rw [if_pos rfl, if_pos rfl, if_pos (by simp; omega), Option.join_some]
  · rw [if_neg h, if_neg h, List.getElem?_append]
    split
    · rfl
    · rename_i hout
      rw [List.getElem?_eq_none (Nat.le_of_not_lt hout), List.getElem?_replicate]
      split <;> rfl

/-- Several slots set one after the other. -/
def putAll (slots : List (Option α)) (writes : List (Nat × Option α)) : List (Option α) :=
  writes.foldl (fun slots w => put slots w.1 w.2) slots

theorem join_putAll_of_not_mem {writes : List (Nat × Option α)} {id : Nat}
    (h : id ∉ writes.map Prod.fst) (slots : List (Option α)) :
    (putAll slots writes)[id]?.join = slots[id]?.join := by
  induction writes generalizing slots with
  | nil => rfl
  | cons w rest ih =>
    rw [List.map_cons, List.mem_cons, not_or] at h
    change (putAll (put slots w.1 w.2) rest)[id]?.join = _
    rw [ih h.2, join_put, if_neg (Ne.symm h.1)]

/-- What is written to a slot stays there if nothing else is written to it. -/
theorem join_putAll_of_mem {writes : List (Nat × Option α)} {w : Nat × Option α}
    (hnodup : (writes.map Prod.fst).Nodup) (hw : w ∈ writes) (slots : List (Option α)) :
    (putAll slots writes)[w.1]?.join = w.2 := by
  induction writes generalizing slots with
  | nil => cases hw
  | cons v rest ih =>
    rw [List.map_cons, List.nodup_cons] at hnodup
    change (putAll (put slots v.1 v.2) rest)[w.1]?.join = _
    rcases List.mem_cons.mp hw with rfl | hrest
    · rw [join_putAll_of_not_mem hnodup.1, join_put, if_pos rfl]
    · exact ih hnodup.2 hrest _

end Index

namespace Tree

mutual

/-- The elements of a tree, each with the number of its parent, in the order of a traversal. -/
def links (parent : Option Nat) : Tree → List (Element × Option Nat)
  | node e cs => (e, parent) :: linksAll (some e.id) cs

def linksAll (parent : Option Nat) : List Tree → List (Element × Option Nat)
  | [] => []
  | c :: rest => links parent c ++ linksAll parent rest

end

theorem linksAll_eq_flatMap (parent : Option Nat) (ts : List Tree) :
    linksAll parent ts = ts.flatMap (links parent) := by
  induction ts with
  | nil => rfl
  | cons t rest ih => rw [linksAll, ih, List.flatMap_cons]

mutual

theorem links_elements (parent : Option Nat) :
    (t : Tree) → (t.links parent).map Prod.fst = t.elements
  | node e cs => by
    rw [links, elements_node, List.map_cons, linksAll_elements (some e.id) cs]

theorem linksAll_elements (parent : Option Nat) :
    (ts : List Tree) → (linksAll parent ts).map Prod.fst = ts.flatMap elements
  | [] => rfl
  | t :: rest => by
    rw [linksAll, List.map_append, links_elements parent t, linksAll_elements parent rest,
      List.flatMap_cons]

end

end Tree

namespace Index

mutual

/-- A traversal enters the links of the tree. -/
theorem visit_eq (parent : Option Nat) (index : Index) : (t : Tree) →
    visit parent index t = (t.links parent).foldl (fun i l => i.enter l.1 l.2) index
  | .node e cs => by
    rw [visit, Tree.links, List.foldl_cons, visitAll_eq]

theorem visitAll_eq (parent : Option Nat) (index : Index) : (ts : List Tree) →
    visitAll parent index ts =
      (Tree.linksAll parent ts).foldl (fun i l => i.enter l.1 l.2) index
  | [] => rfl
  | t :: rest => by
    rw [visitAll, Tree.linksAll, List.foldl_append, visit_eq parent index t, visitAll_eq]

end

theorem entered_eq (links : List (Element × Option Nat)) (index : Index) :
    links.foldl (fun i l => i.enter l.1 l.2) index =
      ⟨putAll index.elements (links.map fun l => (l.1.id, some l.1)),
        putAll index.parents (links.map fun l => (l.1.id, l.2))⟩ := by
  induction links generalizing index with
  | nil => rfl
  | cons l rest ih => exact ih (index.enter l.1 l.2)

end Index

namespace Tree

theorem links_ids {α : Type} (t : Tree) (f : Element × Option Nat → α) :
    ((t.links none).map fun l => (l.1.id, f l)).map Prod.fst = t.ids := by
  rw [ids, ← t.links_elements none, List.map_map, List.map_map]
  rfl

/-- A part of a tree, with the elements around it, innermost first. Each is the child of the next,
and the last one is the element of the tree. -/
inductive Below (t : Tree) : (above : List Element) → (s : Tree) → Prop
  | top : t.Below [] t
  | child {above : List Element} {s c : Tree} (outer : t.Below above s) (mem : c ∈ s.children) :
      t.Below (s.element :: above) c

namespace Below

variable {t s : Tree} {above : List Element}

/-- What is around a part of a child is around it in the tree, inside the tree's element. -/
theorem lift {e : Element} {c : Tree} {cs : List Tree} (h : c.Below above s) (hc : c ∈ cs) :
    (node e cs).Below (above ++ [e]) s := by
  induction h with
  | top => exact .child .top hc
  | child _ mem ih => exact .child ih mem

/-- The outermost element is that of the tree. -/
theorem getLast? (h : t.Below above s) : (s.element :: above).getLast? = some t.element := by
  induction h with
  | top => rfl
  | child _ _ ih => rw [List.getLast?_cons_cons, ih]

theorem links_subset (h : t.Below above s) :
    s.links (above.head?.map Element.id) ⊆ t.links none := by
  induction h with
  | top => exact fun _ => id
  | @child _ s c _ mem ih =>
    obtain ⟨e, cs⟩ := s
    refine fun link hlink => ih ?_
    rw [links, linksAll_eq_flatMap]
    exact .tail _ (List.mem_flatMap.mpr ⟨c, mem, hlink⟩)

/-- The traversal of a tree links its parts to the innermost of the elements around them. -/
theorem link_mem (h : t.Below above s) :
    (s.element, above.head?.map Element.id) ∈ t.links none := by
  refine h.links_subset ?_
  cases s
  rw [links]
  exact .head _

end Below

theorem Part.exists_below {s t : Tree} (h : s.Part t) : ∃ above, t.Below above s := by
  induction h with
  | self => exact ⟨[], .top⟩
  | child _ mem ih =>
    obtain ⟨above, h⟩ := ih
    exact ⟨_, h.lift mem⟩

mutual

/-- The search for a number leads to a part of the tree with the number. -/
theorem below_of_lineage? {id : Nat} {found : List Element} : (t : Tree) →
    t.lineage? id = some found →
    ∃ above s, t.Below above s ∧ s.element.id = id ∧ found = above.reverse ++ [s.element]
  | node e cs, h => by
    rw [lineage?] at h
    split at h
    · rename_i hid
      obtain rfl := Option.some.inj h
      exact ⟨[], node e cs, .top, hid, rfl⟩
    · obtain ⟨inner, hinner, rfl⟩ := Option.map_eq_some_iff.mp h
      obtain ⟨c, hc, above, s, hs, hid, rfl⟩ := below_of_lineageAmong cs hinner
      exact ⟨above ++ [e], s, hs.lift hc, hid, by simp⟩

theorem below_of_lineageAmong {id : Nat} {found : List Element} : (ts : List Tree) →
    lineageAmong id ts = some found → ∃ t ∈ ts,
    ∃ above s, t.Below above s ∧ s.element.id = id ∧ found = above.reverse ++ [s.element]
  | t :: rest, h => by
    rw [lineageAmong] at h
    split at h
    · rename_i hfound
      obtain rfl := Option.some.inj h
      exact ⟨t, .head _, below_of_lineage? t hfound⟩
    · obtain ⟨c, hc, hbelow⟩ := below_of_lineageAmong rest h
      exact ⟨c, .tail _ hc, hbelow⟩

end

mutual

/-- The search for a number fails only if no element has it. -/
theorem not_mem_ids_of_lineage? {id : Nat} :
    (t : Tree) → t.lineage? id = none → id ∉ t.ids
  | node e cs, h => by
    rw [lineage?] at h
    split at h
    · cases h
    · rename_i hid
      rw [ids_node, List.mem_cons, not_or]
      exact ⟨Ne.symm hid, not_mem_ids_of_lineageAmong cs (Option.map_eq_none_iff.mp h)⟩

theorem not_mem_ids_of_lineageAmong {id : Nat} :
    (ts : List Tree) → lineageAmong id ts = none → id ∉ ts.flatMap ids
  | [], _ => List.not_mem_nil
  | t :: rest, h => by
    rw [lineageAmong] at h
    split at h
    · cases h
    · rename_i hnone
      rw [List.flatMap_cons, List.mem_append, not_or]
      exact ⟨not_mem_ids_of_lineage? t hnone, not_mem_ids_of_lineageAmong rest h⟩

end

end Tree

namespace Index

variable {index : Index} {next : Option Element} {a b : List Element}

theorem Climb.next_eq (h : index.Climb next a) : next = a.head? := by
  cases h <;> rfl

/-- There is one way up from an element. -/
theorem Climb.unique (ha : index.Climb next a) (hb : index.Climb next b) : b = a := by
  induction ha generalizing b with
  | top =>
    cases hb
    rfl
  | up _ ih =>
    cases hb with
    | up rest => rw [ih rest]

end Index

namespace Query

theorem index_eq (q : Query) :
    q.index =
      ⟨Index.putAll (List.replicate q.elementCount none)
          ((q.tree.links none).map fun l => (l.1.id, some l.1)),
        Index.putAll (List.replicate q.elementCount none)
          ((q.tree.links none).map fun l => (l.1.id, l.2))⟩ := by
  rw [index, Index.visit_eq, Index.entered_eq]

/-- The entries of an element in the table. -/
theorem index_entries {q : Query} (h : q.tree.ids.Nodup) {above : List Element} {s : Tree}
    (hs : q.tree.Below above s) :
    q.index.get? s.element.id = some s.element ∧
      q.index.parents[s.element.id]?.join = above.head?.map Element.id := by
  rw [index_eq]
  constructor
  · refine Index.join_putAll_of_mem (w := (s.element.id, some s.element)) ?_ ?_ _
    · rwa [Tree.links_ids]
    · exact List.mem_map_of_mem hs.link_mem
  · refine Index.join_putAll_of_mem (w := (s.element.id, above.head?.map Element.id)) ?_ ?_ _
    · rwa [Tree.links_ids]
    · exact List.mem_map_of_mem hs.link_mem

theorem index_vacant {q : Query} {id : Nat} (h : id ∉ q.tree.ids) :
    q.index.get? id = none ∧ q.index.parents[id]?.join = none := by
  have hslots {α : Type} : (List.replicate q.elementCount (none : Option α))[id]?.join = none := by
    rw [List.getElem?_replicate]
    split <;> rfl
  rw [index_eq]
  constructor
  · rw [Index.get?, Index.join_putAll_of_not_mem (by rwa [Tree.links_ids]), hslots]
  · rw [Index.join_putAll_of_not_mem (by rwa [Tree.links_ids]), hslots]

theorem index_parent {q : Query} (h : q.tree.ids.Nodup) {above : List Element} {s : Tree}
    (hs : q.tree.Below above s) : q.index.parent? s.element.id = above.head? := by
  rw [Index.parent?, (index_entries h hs).2]
  cases hs with
  | top => rfl
  | child outer _ => exact (index_entries h outer).1

/-- From parent to parent the table leads through the elements around an element. -/
theorem index_ancestors {q : Query} (h : q.tree.ids.Nodup) {above : List Element} {s : Tree}
    (hs : q.tree.Below above s) : q.index.Ancestors s.element.id above := by
  rw [Index.Ancestors, index_parent h hs]
  induction hs with
  | top => exact .top
  | child outer _ ih => exact .up (by rwa [index_parent h outer])

/-- The table of a query finds every element of the tree by its number. The parent of an element
is the one whose child it is, and from parent to parent the table leads through the elements
around it, the last of which is the query. -/
structure Indexed (q : Query) : Prop where
  get : ∀ s : Tree, s.Part q.tree → q.index.get? s.element.id = some s.element
  parent : ∀ s : Tree, s.Part q.tree → ∀ c ∈ s.children,
    q.index.parent? c.element.id = some s.element
  ancestors : ∀ s : Tree, s.Part q.tree → ∃ above, q.tree.Below above s ∧
    (s.element :: above).getLast? = some (.query q) ∧ q.index.Ancestors s.element.id above
  vacant : ∀ id ∉ q.tree.ids, q.index.get? id = none ∧ q.index.Ancestors id []

/-- A query whose elements have different numbers agrees with its table. -/
theorem indexed {q : Query} (h : q.tree.ids.Nodup) : q.Indexed where
  get s hs := by
    obtain ⟨above, hbelow⟩ := hs.exists_below
    exact (index_entries h hbelow).1
  parent s hs c hc := by
    obtain ⟨above, hbelow⟩ := hs.exists_below
    exact index_parent h (hbelow.child hc)
  ancestors s hs := by
    obtain ⟨above, hbelow⟩ := hs.exists_below
    exact ⟨above, hbelow, hbelow.getLast?, index_ancestors h hbelow⟩
  vacant id hid := by
    obtain ⟨hget, hparent⟩ := index_vacant hid
    refine ⟨hget, ?_⟩
    rw [Index.Ancestors, Index.parent?, hparent]
    exact .top

/-- The table gives for every number what a search through the tree does. -/
theorem index_search {q : Query} (h : q.tree.ids.Nodup) (id : Nat) :
    q.index.get? id = q.tree.find? id ∧ q.index.parent? id = q.tree.parent? id ∧
      ∀ found, q.index.Ancestors id found ↔ found = q.tree.ancestors id := by
  have hunique {above : List Element} (h : q.index.Ancestors id above) (found : List Element) :
      q.index.Ancestors id found ↔ found = above :=
    ⟨fun hfound => h.unique hfound, fun heq => heq ▸ h⟩
  rw [Tree.find?, Tree.parent?, Tree.ancestors]
  cases hfound : q.tree.lineage? id with
  | none =>
    obtain ⟨hget, hancestors⟩ := (indexed h).vacant id (Tree.not_mem_ids_of_lineage? _ hfound)
    exact ⟨hget, hancestors.next_eq, hunique hancestors⟩
  | some found =>
    obtain ⟨above, s, hs, rfl, rfl⟩ := Tree.below_of_lineage? _ hfound
    have habove : (above.reverse ++ [s.element]).dropLast.reverse = above := by simp
    have hlast : (above.reverse ++ [s.element]).getLast? = some s.element :=
      List.getLast?_concat
    simp only [habove, Option.bind_some, hlast]
    exact ⟨(index_entries h hs).1, index_parent h hs, hunique (index_ancestors h hs)⟩

/-- The tree of a query is well formed, and its table agrees with it. Every number below the count
is that of exactly one element. Every element begins and ends with the first and the last token
below it, its children stand one after the other inside its range, and they span all of the range
unless it is that of the query. -/
theorem parse_tree_indexed (source : String) :
    (parse source).tree.ids.Perm (List.range (parse source).elementCount) ∧
      (∀ s, s.Part (parse source).tree →
        s.Delimited ∧ s.Spread ∧ (s ≠ (parse source).tree → s.Hulled)) ∧
      (parse source).Indexed ∧
      ∀ id, (parse source).index.get? id = (parse source).tree.find? id ∧
        (parse source).index.parent? id = (parse source).tree.parent? id ∧
        ∀ found, (parse source).index.Ancestors id found ↔
          found = (parse source).tree.ancestors id :=
  have hnodup := parse_ids_nodup source
  ⟨parse_ids_perm source, fun _ => parse_part_spread source, indexed hnodup,
    index_search hnodup⟩

end Query

end JsonPath
