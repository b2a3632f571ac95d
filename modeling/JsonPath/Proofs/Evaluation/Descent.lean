import Mathlib.Data.List.Infix
import Mathlib.Data.List.Perm.Basic
import JsonPath.Proofs.Evaluation.Located

/-!
Descent into documents. A descendant segment is applied to a value and then to everything inside,
child after child, so its wildcard selects the children of a value before those of the first child.
Still it selects everything inside the document just once, each value before what is inside it, and
any other selectors select from the root and from all that the wildcard selects.
-/

namespace JsonPath

/-- The nodes are the values inside a document, each at its location once, before those inside it,
and the children of each one after the other in their order. -/
structure Enumerates (document : Json) (nodes : List Node) : Prop where
  mem_iff : ∀ n, n ∈ nodes ↔ n.location ≠ [] ∧ document.at? n.location = some n.value
  nodup : (nodes.map (·.location)).Nodup
  outside_in : nodes.Pairwise fun a b => ¬b.location <+: a.location
  in_order : ∀ n : Node, document.at? n.location = some n.value → n.children <:+: nodes

namespace Node

variable {l : Location} {v document : Json} {n m : Node}

/-- Below a node there is nothing else than the children of what is there and below. -/
theorem within_perm (l : Location) (v : Json) :
    (within l v).Perm (⟨v, l⟩ :: (within l v).flatMap children) := by
  induction v using Json.children_induction generalizing l with
  | step v ih =>
    -- what is below a child is the child and, by induction, the children below the child
    have hbelow : (v.children.flatMap fun below => within (l ++ [below.1]) below.2).Perm
        (v.children.flatMap fun below => ⟨below.2, l ++ [below.1]⟩ ::
          (within (l ++ [below.1]) below.2).flatMap children) :=
      List.Perm.flatMap_left _ fun below hbelow => ih below hbelow _
    rw [within_eq, List.flatMap_cons, List.flatMap_assoc]
    refine .cons _ (hbelow.trans ?_)
    exact (List.map_append_flatMap_perm _ _ _).symm

theorem location_of_mem_within (hv : v.WellFormed) (h : n ∈ within l v) : l <+: n.location := by
  obtain ⟨below, hlocation, -⟩ := (mem_within_iff hv).mp h
  exact ⟨below, hlocation.symm⟩

/-- Of two nodes the later one is not above the earlier one, nor at its location. -/
theorem within_outside_in (hv : v.WellFormed) :
    (within l v).Pairwise fun a b => ¬b.location <+: a.location := by
  induction v using Json.children_induction generalizing l with
  | step v ih =>
    have hchild (below : Step × Json) (hbelow : below ∈ v.children) : below.2.WellFormed :=
      hv.child? (hv.mem_children_iff.mp hbelow)
    rw [within_eq, List.pairwise_cons, List.pairwise_flatMap]
    refine ⟨?_, fun below hbelow => ih below hbelow (hchild below hbelow), ?_⟩
    · intro n hn habove
      obtain ⟨below, hbelow, hn⟩ := List.mem_flatMap.mp hn
      have hlength := ((location_of_mem_within (hchild below hbelow) hn).trans habove).length_le
      simp only [List.length_append, List.length_singleton] at hlength
      omega
    · refine List.Pairwise.imp_of_mem ?_ hv.pairwise_children
      intro a b ha hb hne n hn m hm habove
      -- both locations go on from `l`, by different steps
      have hfirst := location_of_mem_within (hchild a ha) hn
      have hsecond := (location_of_mem_within (hchild b hb) hm).trans habove
      have heq := (List.prefix_of_prefix_length_le hfirst hsecond (by simp)).eq_of_length (by simp)
      exact hne (List.singleton_injective (List.append_cancel_left heq))

/-- The children of nodes that come in this order come in this order. -/
theorem flatMap_children_outside_in {nodes : List Node}
    (hnodes : nodes.Pairwise fun a b => ¬b.location <+: a.location)
    (hvalues : ∀ n ∈ nodes, n.value.WellFormed) :
    (nodes.flatMap children).Pairwise fun a b => ¬b.location <+: a.location := by
  rw [List.pairwise_flatMap]
  constructor
  · intro n hn
    rw [children, List.pairwise_map]
    refine (hvalues n hn).pairwise_children.imp ?_
    intro a b hne habove
    have heq := habove.eq_of_length (by simp)
    exact hne (List.singleton_injective (List.append_cancel_left heq)).symm
  · refine hnodes.imp ?_
    intro a b hab n hn m hm habove
    obtain ⟨first, -, rfl⟩ := List.mem_map.mp hn
    obtain ⟨second, -, rfl⟩ := List.mem_map.mp hm
    -- what is above a child is above the node itself, or the child
    rcases List.prefix_concat_iff.mp ((List.prefix_append _ _).trans habove) with heq | h
    · have hlength := habove.length_le
      simp [heq] at hlength
    · exact hab h

/-- The children of the root and of everything inside the document enumerate it. -/
theorem enumerates_flatMap_children (hdocument : document.WellFormed) :
    Enumerates document ((within [] document).flatMap children) := by
  have hwithin (n : Node) : n ∈ within [] document ↔ n.IsAt document := by
    rw [mem_within_iff hdocument]
    constructor
    · rintro ⟨below, hlocation, hbelow⟩
      rw [IsAt, hlocation]
      exact hbelow
    · intro h
      exact ⟨n.location, rfl, h⟩
  have hperm := within_perm [] document
  have houtside := flatMap_children_outside_in (within_outside_in hdocument)
    fun n hn => hdocument.at? ((hwithin n).mp hn)
  refine ⟨?_, ?_, houtside, ?_⟩
  · intro n
    constructor
    · intro hn
      have hmem := hperm.mem_iff.mpr (List.mem_cons_of_mem _ hn)
      obtain ⟨parent, -, hchild⟩ := List.mem_flatMap.mp hn
      obtain ⟨below, -, rfl⟩ := List.mem_map.mp hchild
      exact ⟨List.concat_ne_nil _ _, (hwithin _).mp hmem⟩
    · rintro ⟨hlocation, hn⟩
      rcases List.mem_cons.mp (hperm.mem_iff.mp ((hwithin n).mpr hn)) with rfl | h
      · exact absurd rfl hlocation
      · exact h
  · rw [List.nodup_iff_pairwise_ne, List.pairwise_map]
    refine houtside.imp ?_
    intro a b hab heq
    exact hab (heq ▸ List.prefix_rfl)
  · intro n hn
    obtain ⟨before, after, heq⟩ := List.append_of_mem ((hwithin n).mpr hn)
    rw [heq, List.flatMap_append, List.flatMap_cons, ← List.append_assoc]
    exact List.infix_append _ _ _

end Node

section Segments

variable (scope : Scope) (n : Node)

theorem Selectors.nodes_eq (ss : Selectors) :
    ss.nodes scope n = ss.toList.flatMap fun s => s.nodes scope n := by
  cases ss with
  | last s => rw [Selectors.nodes, Selectors.toList, List.flatMap_singleton]
  | more s comma rest =>
    rw [Selectors.nodes, Selectors.toList, List.flatMap_cons, rest.nodes_eq]

/-- A segment applies its selectors, one after the other, to each node that it visits. -/
theorem Segment.nodes_eq (s : Segment) : s.nodes scope n =
    (n.visited s.isDescendant).flatMap fun m => s.selectors.flatMap fun t => t.nodes scope m := by
  cases s with
  | shorthand id dots selector =>
    simp only [Segment.nodes, isDescendant, selectors, List.flatMap_singleton]
  | bracketed id dots opening ss closing =>
    simp only [Segment.nodes, isDescendant, selectors, Selectors.nodes_eq]

end Segments

namespace Query

/-- The selectors of a query that is one descendant segment. -/
def descent? (q : Query) : Option (List Selector) :=
  match q.path with
  | .step (.root _ _) segment => if segment.isDescendant then some segment.selectors else none
  | _ => none

variable {q : Query} {ss : List Selector}

/-- Such a query applies its selectors to the root and to everything inside the document. -/
theorem find_of_descent? (h : q.descent? = some ss) (env : Environment) (document : Json) :
    q.find env document = (Node.within [] document).flatMap fun n =>
      ss.flatMap fun s => s.nodes ⟨env, document⟩ n := by
  rw [find_eq_nodes, nodes]
  unfold descent? at h
  split at h
  · rename_i segment hpath
    split at h
    · rename_i hdescendant
      cases h
      rw [hpath, Path.nodes, Path.nodes, List.flatMap_singleton, Segment.nodes_eq, hdescendant]
      rfl
    · cases h
  · cases h

/-- A descendant wildcard selects all that is inside the document, once, from the outside in and in
order. Other selectors in its place select what they select, as a segment that does not descend, from
the root and from the nodes that the wildcard selects, each as often. -/
theorem enumerates_of_descent? {wild : Query} {id : Nat} {token : Token}
    (hwild : wild.descent? = some [.wildcard id token]) (env : Environment) {document : Json}
    (hdocument : document.WellFormed) :
    Enumerates document (wild.find env document) ∧
    ∀ (deep : Query) (segment : Segment), deep.descent? = some segment.selectors →
      segment.isDescendant = false →
      (deep.find env document).Perm
        ((Node.root document :: wild.find env document).flatMap fun n =>
          (segment.select ⟨env, document⟩ n).result) := by
  have hfind : wild.find env document = (Node.within [] document).flatMap Node.children := by
    rw [find_of_descent? hwild]
    simp only [List.flatMap_singleton, Selector.nodes]
  rw [hfind]
  refine ⟨Node.enumerates_flatMap_children hdocument, ?_⟩
  intro deep segment hdeep hchild
  have hselect (n : Node) : (segment.select ⟨env, document⟩ n).result =
      segment.selectors.flatMap fun s => s.nodes ⟨env, document⟩ n := by
    rw [Segment.select_nodes, Segment.nodes_eq, hchild]
    exact List.flatMap_singleton _ _
  rw [find_of_descent? hdeep, funext hselect]
  exact (Node.within_perm [] document).flatMap_right _

/-- An array and an object at different depths. -/
theorem enumerates_of_descent?_nested :
    let document := Json.object [("a", .array [.bool true, .object [("b", .null)]]), ("c", .null)]
    let wild := parse "$..*"
    wild.descent? = some [.wildcard 5 ⟨6, .wildcard, "*", "", ⟨3, 4⟩, false⟩] ∧
    document.WellFormed ∧
    Enumerates document (wild.find .standard document) ∧
    ∀ (deep : Query) (segment : Segment), deep.descent? = some segment.selectors →
      segment.isDescendant = false →
      (deep.find .standard document).Perm
        ((Node.root document :: wild.find .standard document).flatMap fun n =>
          (segment.select ⟨.standard, document⟩ n).result) := by
  intro document wild
  have hwild : wild.descent? = some [.wildcard 5 ⟨6, .wildcard, "*", "", ⟨3, 4⟩, false⟩] := by rfl
  have hdocument : document.WellFormed := by
    simp [document, Json.WellFormed, Json.WellFormedItems, Json.WellFormedMembers, Fields.names]
  exact ⟨hwild, hdocument, enumerates_of_descent? hwild .standard hdocument⟩

end Query

end JsonPath
