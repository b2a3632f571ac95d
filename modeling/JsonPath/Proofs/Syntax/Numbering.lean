import JsonPath.Proofs.Syntax.Elements
import JsonPath.Proofs.Syntax.Lossless

/-!
The numbers of a query's elements. A run hands out one number after the other, so the elements
of a query have all the numbers below their count, each once, and a number names an element. The
order of the numbers differs from the order of the tree only for operators, which are numbered
after their first operand.
-/

namespace JsonPath

namespace Cursor

/-- A run numbers its entries consecutively. -/
theorem Run.ids_eq {a b : Cursor} {entries : List Entry} (h : a.Run entries b) :
    Entry.ids entries = List.range' a.nextId entries.length ∧
      b.nextId = a.nextId + entries.length := by
  induction h with
  | stay | blanks | garbage | report | element | token | missing => exact ⟨rfl, rfl⟩
  | append _ _ ihl ihr =>
    obtain ⟨hfirst, hmiddle⟩ := ihl
    obtain ⟨hsecond, hlast⟩ := ihr
    rw [hmiddle] at hsecond hlast
    refine ⟨?_, ?_⟩
    · rw [Entry.ids_append, List.length_append, hfirst, hsecond]
      exact List.range'_append_1
    · rw [hlast, List.length_append, Nat.add_assoc]

end Cursor

namespace Tree

/-- The numbers of a tree's elements. -/
def ids (t : Tree) : List Nat := t.elements.map Element.id

@[simp] theorem ids_node (e : Element) (cs : List Tree) :
    (node e cs).ids = e.id :: cs.flatMap ids := by
  rw [ids, elements_node, List.map_cons, List.map_flatMap]
  rfl

@[simp] theorem ids_leaf (t : Token) : (leaf t).ids = [t.id] := ids_node _ _

@[simp] theorem flatMap_ids_leaf? (t : Option Token) :
    (leaf? t).flatMap ids = t.toList.map Token.id := by
  cases t with
  | none => rfl
  | some token => simp [leaf?]

end Tree

@[simp] theorem Bound.flatMap_ids_leaf? (b : Option Bound) :
    (Bound.leaf? b).flatMap Tree.ids = Entry.ids (Bound.entries b) := by
  cases b <;> simp [Bound.leaf?, Bound.entries, Entry.ids, Entry.id]

@[simp] theorem StepPart.flatMap_ids_leaves (p : Option StepPart) :
    (StepPart.leaves p).flatMap Tree.ids = Entry.ids (StepPart.entries p) := by
  cases p <;> simp [StepPart.leaves, StepPart.entries, Entry.id]

mutual

theorem Path.ids_perm : (p : Path) →
    (Entry.ids p.entries).Perm (p.id :: p.parts.flatMap Tree.ids)
  | .root _ _ => by simp [Path.entries, Path.parts, Path.id, Entry.id]
  | .step before segment => by
    simpa [Path.entries, Path.parts, Path.id] using before.ids_perm.append segment.ids_perm

theorem Segment.ids_perm : (s : Segment) → (Entry.ids s.entries).Perm s.tree.ids
  | .shorthand _ _ selector => by
    simpa [Segment.entries, Segment.tree, Entry.id, Element.id, Segment.id] using
      selector.ids_perm
  | .bracketed _ dots _ selectors _ => by
    cases dots <;>
      simpa [Segment.entries, Segment.tree, Entry.id, Element.id, Segment.id, Tree.leaf?] using
        selectors.ids_perm.append_right _

theorem Selectors.ids_perm : (ss : Selectors) →
    (Entry.ids ss.entries).Perm (ss.trees.flatMap Tree.ids)
  | .last selector => by simpa [Selectors.entries, Selectors.trees] using selector.ids_perm
  | .more selector _ rest => by
    simpa [Selectors.entries, Selectors.trees, Entry.id] using
      selector.ids_perm.append (rest.ids_perm.cons _)

theorem Selector.ids_perm : (s : Selector) → (Entry.ids s.entries).Perm s.tree.ids
  | .name .. | .index .. | .wildcard .. | .missing .. | .slice .. => by
    simp [Selector.entries, Selector.tree, Entry.id, Element.id, Selector.id]
  | .filter _ _ test => by
    simpa [Selector.entries, Selector.tree, Entry.id, Element.id, Selector.id] using test.ids_perm

theorem Expr.ids_perm : (e : Expr) → (Entry.ids e.entries).Perm e.tree.ids
  | .or _ first _ rest | .and _ first _ rest => by
    rw [Expr.entries, Expr.tree, Tree.ids_node, Entry.ids_append, Entry.ids_cons]
    refine List.perm_middle.trans (.cons _ ?_)
    simpa [Entry.id] using first.ids_perm.append (rest.ids_perm.cons _)
  | .not _ _ inner => by
    simpa [Expr.entries, Expr.tree, Entry.id, Element.id, Expr.id] using inner.ids_perm
  | .parens _ _ inner _ => by
    simpa [Expr.entries, Expr.tree, Entry.id, Element.id, Expr.id] using
      inner.ids_perm.append_right _
  | .comparison _ left _ _ right => by
    rw [Expr.entries, Expr.tree, Tree.ids_node, Entry.ids_append, Entry.ids_cons]
    refine List.perm_middle.trans (.cons _ ?_)
    simpa [Entry.id] using left.ids_perm.append (right.ids_perm.cons _)
  | .path _ p => by
    simpa [Expr.entries, Expr.tree, Entry.id, Element.id, Expr.id] using p.ids_perm
  | .call _ _ _ arguments _ => by
    simpa [Expr.entries, Expr.tree, Entry.id, Element.id, Expr.id] using
      arguments.ids_perm.append_right _
  | .literal .. | .missing .. => by
    simp [Expr.entries, Expr.tree, Entry.id, Element.id, Expr.id]

theorem Operands.ids_perm : (os : Operands) →
    (Entry.ids os.entries).Perm (os.trees.flatMap Tree.ids)
  | .last operand => by simpa [Operands.entries, Operands.trees] using operand.ids_perm
  | .more operand _ rest => by
    simpa [Operands.entries, Operands.trees, Entry.id] using
      operand.ids_perm.append (rest.ids_perm.cons _)

theorem Arguments.ids_perm : (as : Arguments) →
    (Entry.ids as.entries).Perm (as.trees.flatMap Tree.ids)
  | .none => by simp [Arguments.entries, Arguments.trees]
  | .some operands => operands.ids_perm

end

namespace Query

theorem ids_perm (q : Query) : (Entry.ids q.entries).Perm q.tree.ids := by
  simpa [entries, tree, Path.tree, Entry.id, Element.id] using
    q.path.ids_perm.append_right [q.ending.id]

/-- The elements of a query have all the numbers below their count, each once. -/
theorem parse_ids_perm (source : String) :
    (parse source).tree.ids.Perm (List.range (parse source).elementCount) := by
  obtain ⟨last, hbody, -, hending, hcount⟩ := parse_run source
  have hrun : (Cursor.ofChars source.toList).Run (parse source).entries
      (Parser.take .endOfQuery 0 last).2 := by
    rw [entries, hending]
    exact hbody.append (.token last .endOfQuery 0)
  obtain ⟨hids, hlast⟩ := hrun.ids_eq
  have hlength : (parse source).elementCount = (parse source).entries.length := by
    rw [hcount]
    exact hlast.trans (Nat.zero_add _)
  rw [hlength, List.range_eq_range']
  exact (parse source).ids_perm.symm.trans (.of_eq hids)

theorem parse_ids_nodup (source : String) : (parse source).tree.ids.Nodup :=
  (parse_ids_perm source).nodup_iff.mpr List.nodup_range

end Query

end JsonPath
