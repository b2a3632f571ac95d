import JsonPath.Proofs.Syntax.Marks
import JsonPath.Proofs.Typing.Elements
import JsonPath.Typing.Demand
import Mathlib.Data.List.Forall2
import Mathlib.Logic.Relation

/-!
Types on demand are the types of the elements. A type is needed for another only if it comes before
it in the evaluation of the query: that of a segment for the ones after it, those of selectors for
their segment, those of a filter's candidates for all that is inside of the filter, and those inside
of it for the filter. So the type of an element is never requested while it is being computed, every
computation ends, and it makes no difference what an analyzer has remembered.
-/

namespace JsonPath

namespace Analyzer

variable {a : Analyzer} {α β : Type}

section Computations

/-- The result that a computation comes to if it computes each type that it requests anew. -/
inductive Computes (a : Analyzer) : {α : Type} → Inquiry α → α → Prop
  | done {α : Type} {x : α} : Computes a (.done x) x
  | request {α : Type} {id : Nat} {t : DataType} {next : DataType → Inquiry α} {x : α}
      (inner : Computes a (a.compute id) t) (rest : Computes a (next t) x) :
      Computes a (.request id next) x

/-- A computation that asks for this type goes on with it. -/
theorem Computes.unique {i : Inquiry α} {x : α} (h : a.Computes i x) :
    ∀ y, a.Computes i y → y = x := by
  induction h with
  | done =>
    intro y hy
    cases hy
    rfl
  | request _ _ ihinner ihrest =>
    intro y hy
    cases hy with
    | request inner rest =>
      rw [ihinner _ inner] at rest
      exact ihrest _ rest

theorem Computes.bind {i : Inquiry α} {x : α} (h : a.Computes i x) :
    ∀ {f : α → Inquiry β} {y : β}, a.Computes (f x) y → a.Computes (i >>= f) y := by
  induction h with
  | done => exact fun hf => hf
  | request inner _ _ ihrest => exact fun hf => .request inner (ihrest hf)

theorem Computes.typeOf {id : Nat} {t : DataType} (h : a.Computes (a.compute id) t) :
    a.Computes (Inquiry.typeOf id) t := .request h .done

theorem Computes.inTurn {is : List (Inquiry α)} {xs : List α}
    (h : List.Forall₂ (fun i x => a.Computes i x) is xs) : a.Computes (Inquiry.inTurn is) xs := by
  induction h with
  | nil => exact .done
  | cons hfirst _ ih => exact hfirst.bind (ih.bind .done)

end Computations

section Places

variable {above : List Element}

/-- The elements of the query have different numbers, and its marks are the first tokens of
paths. -/
structure Regular (a : Analyzer) : Prop where
  ids : a.query.tree.ids.Nodup
  marked : a.query.tree.Marked false

variable (ha : a.Regular)

include ha

theorem Regular.compute {s : Tree} (hs : a.query.tree.Below above s) :
    a.compute s.element.id = a.elementType s.element := by
  have hfind := (Query.index_search ha.ids s.element.id).1
  rw [(Query.index_entries ha.ids hs).1] at hfind
  rw [Analyzer.compute, ← hfind]

theorem Regular.parent {s : Tree} (hs : a.query.tree.Below above s) :
    a.query.tree.parent? s.element.id = above.head? := by
  rw [← (Query.index_search ha.ids s.element.id).2.1, Query.index_parent ha.ids hs]

theorem Regular.ancestors {s : Tree} (hs : a.query.tree.Below above s) :
    a.query.tree.ancestors s.element.id = above :=
  (((Query.index_search ha.ids s.element.id).2.2 above).mp (Query.index_ancestors ha.ids hs)).symm

end Places

end Analyzer

/-- The element itself, if it is a filter. -/
def Element.filter? : Element → Option Selector
  | .selector (.filter id question test) => some (.filter id question test)
  | _ => none

namespace Analyzer

variable {a : Analyzer} {above : List Element}

/-- A scope for what stands inside of these elements, the innermost first. -/
structure Inside (a : Analyzer) (above : List Element) (s : TypeScope) : Prop where
  environment : s.environment = a.environment
  root : s.root = a.root
  current : a.Computes (a.current (above.findSome? Element.filter?)) s.current

theorem Inside.push {s : TypeScope} (hs : a.Inside above s) {e : Element} (he : e.filter? = none) :
    a.Inside (e :: above) s where
  environment := hs.environment
  root := hs.root
  current := by
    rw [List.findSome?_cons, he]
    exact hs.current

theorem Inside.filter {s : TypeScope} (hs : a.Inside above s) {id : Nat} {question : Token}
    {test : Expr} {t : DataType} (ht : a.Computes (a.candidates (.filter id question test)) t) :
    a.Inside (.selector (.filter id question test) :: above) { s with current := t } where
  environment := hs.environment
  root := hs.root
  current := ht

section Tokens

variable (ha : a.Regular)

include ha

theorem Regular.isMark {e : Element} {t : Token}
    (ht : a.query.tree.Below (e :: above) (.leaf t)) : t.isMark = e.isPath := by
  have hmarked := (ha.marked.part ht).own
  rwa [List.head?_cons, Option.any_some] at hmarked

/-- A token that is no mark has the type of the element it is part of. -/
theorem Regular.computes_token {e : Element} {t : Token} {whole : DataType}
    (ht : a.query.tree.Below (e :: above) (.leaf t)) (he : e.isPath = false)
    (hwhole : a.Computes (a.compute e.id) whole) : a.Computes (a.compute t.id) whole := by
  have hmark := ha.isMark ht
  have hcompute := ha.compute ht
  have hparent := ha.parent ht
  rw [he, Token.isMark, TokenKind.isMark, Bool.or_eq_false_iff, decide_eq_false_iff_not,
    decide_eq_false_iff_not] at hmark
  obtain ⟨hroot, hcurrent⟩ := hmark
  change a.query.tree.parent? t.id = some e at hparent
  change a.compute t.id = a.tokenType t at hcompute
  rw [hcompute, tokenType]
  split
  · contradiction
  · contradiction
  · rw [hparent]
    exact hwhole.typeOf

/-- A mark has the type of what its path starts with. -/
theorem Regular.computes_mark {s : TypeScope} {e : Element} (hs : a.Inside (e :: above) s)
    (id : Nat) {t : Token} (ht : a.query.tree.Below (e :: above) (.leaf t))
    (he : e.isPath = true) : a.Computes (a.compute t.id) ((Path.root id t).seedType s) := by
  have hmark := ha.isMark ht
  have hcompute := ha.compute ht
  have habove := ha.ancestors ht
  change a.compute t.id = a.tokenType t at hcompute
  change a.query.tree.ancestors t.id = e :: above at habove
  rw [he, Token.isMark, TokenKind.isMark, Bool.or_eq_true, decide_eq_true_iff,
    decide_eq_true_iff] at hmark
  rw [hcompute, tokenType, Path.seedType, Path.isRelative, Path.identifier]
  rcases hmark with hkind | hkind <;> rw [hkind]
  · rw [hs.root]
    exact .done
  · have hfilter : a.query.tree.enclosingFilter? t.id = (e :: above).findSome? Element.filter? := by
      rw [← habove]
      rfl
    rw [hfilter]
    exact hs.current

end Tokens

end Analyzer

/-- The types of all typed elements are those that are computed for their numbers. -/
abbrev Analyzer.AllComputed (a : Analyzer) (typed : List Typed) : Prop :=
  ∀ e ∈ typed, a.Computes (a.compute e.element.id) e.type

section Narrowing

variable {a : Analyzer}

theorem Expr.mem_typed (s : TypeScope) (e : Expr) : Typed.expression s e ∈ e.typed s := by
  cases e <;> simp [Expr.typed]

theorem Expr.computes_compared {l : Location} {op : Comparison} {other : Expr} {u : DataType}
    (h : a.Computes (a.compute other.id) u) (assume : Bool) (t : DataType) :
    a.Computes (Expr.compared l op other assume t) (narrowComparison l op u assume t) := by
  cases op with
  | equal | notEqual => exact h.typeOf.bind .done
  | less | lessOrEqual | greater | greaterOrEqual => exact .done

mutual

/-- The types of the other operands are all that is requested to narrow a type. -/
theorem Expr.computes_narrowed {s : TypeScope} (assume : Bool) : (e : Expr) →
    a.AllComputed (e.typed s) → ∀ t, a.Computes (e.narrowed assume t) (e.narrow s assume t)
  | .and _ first _ rest, h, t | .or _ first _ rest, h, t => by
    simp only [Expr.typed, List.forall_mem_cons, List.forall_mem_append] at h
    obtain ⟨-, hfirst, -, hrest⟩ := h
    exact (first.computes_narrowed assume hfirst t).bind
      ((rest.computes_narrowedEach assume hrest t).bind .done)
  | .not _ _ inner, h, t => by
    simp only [Expr.typed, List.forall_mem_cons] at h
    exact inner.computes_narrowed (!assume) h.2.2 t
  | .parens _ _ inner _, h, t => by
    simp only [Expr.typed, List.forall_mem_cons, List.forall_mem_append] at h
    exact inner.computes_narrowed assume h.2.2.1 t
  | .comparison _ left _ op right, h, t => by
    simp only [Expr.typed, List.forall_mem_cons, List.forall_mem_append] at h
    obtain ⟨-, hleft, -, hright⟩ := h
    rw [Expr.narrowed, Expr.narrow]
    cases left.relativeLocation? with
    | some l => exact Expr.computes_compared (hright _ (right.mem_typed s)) assume t
    | none =>
      cases right.relativeLocation? with
      | some l => exact Expr.computes_compared (hleft _ (left.mem_typed s)) assume t
      | none => exact .done
  | .path _ p, _, t => by
    rw [Expr.narrowed, Expr.narrow]
    cases p.relativeLocation? <;> exact .done
  | .call .., _, _ | .literal .., _, _ | .missing .., _, _ => .done

theorem Operands.computes_narrowedEach {s : TypeScope} {whole : DataType} (assume : Bool) :
    (os : Operands) → a.AllComputed (os.typed s whole) →
    ∀ t, a.Computes (os.narrowedEach assume t) (os.narrowEach s assume t)
  | .last operand, h, t => (operand.computes_narrowed assume h t).bind .done
  | .more operand _ rest, h, t => by
    simp only [Operands.typed, List.forall_mem_cons, List.forall_mem_append] at h
    obtain ⟨hoperand, -, hrest⟩ := h
    exact (operand.computes_narrowed assume hoperand t).bind
      ((rest.computes_narrowedEach assume hrest t).bind .done)

end

end Narrowing

namespace Tree

theorem Below.each {t : Tree} {e : Element} {cs : List Tree} {above : List Element}
    (h : t.Below above (node e cs)) : ∀ c ∈ cs, t.Below (e :: above) c :=
  fun _ hc => h.child hc

theorem Below.ids_sublist {t s : Tree} {above : List Element} (h : t.Below above s) :
    s.ids.Sublist t.ids := by
  induction h with
  | top => exact List.Sublist.refl _
  | @child _ s c _ mem ih =>
    obtain ⟨e, cs⟩ := s
    refine List.Sublist.trans ?_ ih
    rw [ids_node, List.flatMap_def]
    exact .cons _ (List.sublist_flatten_of_mem (List.mem_map_of_mem mem))

end Tree

namespace Path

theorem segments_sublist (p : Path) :
    (p.segments.map Segment.id).Sublist (p.parts.flatMap Tree.ids) := by
  cases p with
  | root id identifier => exact List.nil_sublist _
  | step before segment =>
    rw [segments, parts, List.map_append, List.flatMap_append]
    refine before.segments_sublist.append (List.singleton_sublist.mpr ?_)
    cases segment <;> simp [Segment.tree, Segment.id, Element.id]

theorem before?_eq_none {id : Nat} (p : Path) (h : id ∉ p.segments.map Segment.id) :
    p.before? id = none := by
  cases p with
  | root id' identifier => rfl
  | step before segment =>
    rw [segments, List.map_append, List.mem_append, not_or, List.map_singleton,
      List.mem_singleton] at h
    rw [before?, before.before?_eq_none h.1, if_neg (Ne.symm h.2)]
    rfl

/-- The path is the beginning of another. -/
inductive Begins (p : Path) : Path → Prop
  | self : Begins p p
  | step {w : Path} {segment : Segment} (h : Begins p w) : Begins p (.step w segment)

namespace Begins

variable {before w : Path} {segment : Segment}

theorem of_step (h : (Path.step before segment).Begins w) : before.Begins w := by
  induction h with
  | self => exact .step .self
  | step _ ih => exact .step ih

theorem before? (h : (Path.step before segment).Begins w)
    (hids : (w.segments.map Segment.id).Nodup) : w.before? segment.id = some before := by
  induction h with
  | self =>
    rw [segments, List.map_append, List.nodup_append] at hids
    have hout : segment.id ∉ before.segments.map Segment.id := fun hin =>
      hids.2.2 _ hin _ List.mem_cons_self rfl
    rw [Path.before?, before.before?_eq_none hout, if_pos rfl]
    rfl
  | step _ ih =>
    rw [segments, List.map_append, List.nodup_append] at hids
    rw [Path.before?, ih hids.1]
    rfl

end Begins

/-- The type of a path is that of its end. -/
theorem exists_end (s : TypeScope) (p : Path) :
    ∃ e ∈ p.typed s, e.element.id = p.endId ∧ e.type = p.type s := by
  cases p with
  | root id identifier => exact ⟨_, List.mem_cons_self, rfl, rfl⟩
  | step before segment =>
    have hsegment : ∃ e ∈ segment.typed s (segment.incoming (before.type s)),
        e.element.id = segment.id ∧ e.type = segment.type s (segment.incoming (before.type s)) := by
      cases segment <;> exact ⟨_, List.mem_cons_self, rfl, rfl⟩
    obtain ⟨e, he, hid, htype⟩ := hsegment
    exact ⟨e, List.mem_append_right _ he, hid, htype⟩

theorem computes_end {a : Analyzer} {s : TypeScope} {p : Path} (h : a.AllComputed (p.typed s)) :
    a.Computes (a.compute p.endId) (p.type s) := by
  obtain ⟨e, he, hid, htype⟩ := p.exists_end s
  rw [← hid, ← htype]
  exact h e he

end Path

namespace Analyzer

variable {a : Analyzer} (ha : a.Regular) {above : List Element} {s : TypeScope}

include ha

/-- What stands before a segment in its path tells what the segment is applied to. -/
theorem Regular.computes_incoming {w before : Path} {segment : Segment}
    (hpath : a.query.tree.Below above w.tree) (hstart : (Path.step before segment).Begins w)
    (hsegment : a.query.tree.Below (.path w :: above) segment.tree)
    (hbefore : a.AllComputed (before.typed s)) :
    a.Computes (a.incoming segment) (segment.incoming (before.type s)) := by
  have hids : (w.segments.map Segment.id).Nodup := by
    have hparts := hpath.ids_sublist.nodup ha.ids
    rw [Path.tree, Tree.ids_node, List.nodup_cons] at hparts
    exact w.segments_sublist.nodup hparts.2
  have hparent := ha.parent hsegment
  have hid : segment.tree.element.id = segment.id := by cases segment <;> rfl
  rw [hid, List.head?_cons] at hparent
  rw [incoming, hparent]
  dsimp only
  rw [hstart.before? hids, Option.map_some, Option.getD_some]
  exact (Path.computes_end hbefore).typeOf.bind .done

omit ha in
theorem computes_candidates {segment : Segment} {selector : Selector} {incoming : DataType}
    (hsegment : a.query.tree.segmentOf? selector.id = some segment)
    (hincoming : a.Computes (a.incoming segment) incoming) :
    a.Computes (a.candidates selector) incoming.children := by
  rw [candidates, hsegment]
  exact hincoming.bind .done

omit ha in
theorem computes_selected {segment : Segment} {selector : Selector} {incoming t : DataType}
    (hsegment : a.query.tree.segmentOf? selector.id = some segment)
    (hincoming : a.Computes (a.incoming segment) incoming)
    (h : a.Computes (selected incoming selector) t) : a.Computes (a.selectorType selector) t := by
  rw [selectorType, hsegment]
  exact hincoming.bind h

theorem Regular.segmentOf {segment : Segment} {selector : Selector}
    (h : a.query.tree.Below (.segment segment :: above) selector.tree) :
    a.query.tree.segmentOf? selector.id = some segment := by
  have hparent := ha.parent h
  rw [selector.element_tree] at hparent
  rw [Tree.segmentOf?, show a.query.tree.parent? selector.id = _ from hparent, List.head?_cons]

theorem Regular.computes_segment {segment : Segment} {types : List DataType}
    (h : a.query.tree.Below above segment.tree)
    (htypes : List.Forall₂ (fun selector t => a.Computes (a.compute selector.id) t)
      segment.selectors types) : a.Computes (a.compute segment.id) (.unionOf types) := by
  have hcompute := ha.compute h
  rw [segment.element_tree] at hcompute
  rw [show a.compute segment.id = _ from hcompute]
  refine (Computes.inTurn ?_).bind .done
  exact List.forall₂_map_left_iff.mpr (htypes.imp fun _ _ ht => ht.typeOf)

theorem Regular.compute_selector {selector : Selector}
    (h : a.query.tree.Below above selector.tree) :
    a.compute selector.id = a.selectorType selector := by
  have hcompute := ha.compute h
  rwa [selector.element_tree] at hcompute

theorem Regular.compute_expression {e : Expr} (h : a.query.tree.Below above e.tree) :
    a.compute e.id = a.expressionType e := by
  have hcompute := ha.compute h
  rwa [e.element_tree] at hcompute

/-- The type of an expression is known from the expression alone, unless it is a path. -/
theorem Regular.computes_expression (hs : a.Inside above s) {e : Expr}
    (h : a.query.tree.Below above e.tree)
    (hpath : ∀ id p, e = .path id p → a.Computes (a.compute p.id) (p.type s)) :
    a.Computes (a.compute e.id) (e.type s) := by
  rw [ha.compute_expression h]
  cases e with
  | path id p => exact (hpath id p rfl).typeOf
  | call id name opening arguments closing =>
    rw [Expr.type, hs.environment]
    exact .done
  | or | and | not | comparison | literal | parens | missing => exact .done

theorem Regular.compute_path {p : Path} (h : a.query.tree.Below above p.tree) :
    a.compute p.id = Inquiry.typeOf p.endId := ha.compute h

/-- The tokens directly below an element have its type. -/
theorem Regular.computes_tokens {e : Element} {whole : DataType} {tokens : List Token}
    (htokens : ∀ t ∈ tokens, a.query.tree.Below (e :: above) (.leaf t)) (he : e.isPath = false)
    (hwhole : a.Computes (a.compute e.id) whole) :
    a.AllComputed (tokens.map (Typed.token whole)) := by
  intro x hx
  obtain ⟨t, ht, rfl⟩ := List.mem_map.mp hx
  exact ha.computes_token (htokens t ht) he hwhole

end Analyzer

theorem Selector.computes_self {a : Analyzer} {s : TypeScope} {incoming : DataType}
    {selector : Selector} (h : a.AllComputed (selector.typed s incoming)) :
    a.Computes (a.compute selector.id) (selector.type s incoming) := by
  cases selector <;> exact h _ List.mem_cons_self

/-- Apart from filters, all that is below a selector are tokens. -/
theorem Selector.leaf_mem_children {selector : Selector}
    (h : (Element.selector selector).filter? = none) :
    ∀ t ∈ selector.tree.tokens, Tree.leaf t ∈ selector.tree.children := by
  cases selector with
  | filter => cases h
  | name | index | wildcard | missing =>
    simp [Selector.tree, Tree.tokens, Tree.tokensAll, Tree.leaf, Tree.children]
  | slice id start colon stop step =>
    intro t ht
    cases start <;> cases stop <;> rcases step with _ | ⟨_, _ | _⟩ <;>
      simpa [Selector.tree, Tree.tokens, Tree.tokensAll, Tree.leaf, Tree.children, Bound.leaf?,
        Tree.leaf?, StepPart.leaves] using ht

section Elements

variable {a : Analyzer}

/-- The elements of a selector other than a filter. -/
theorem Selector.allComputed_of_filter? (ha : a.Regular) {s : TypeScope} {above : List Element}
    {segment : Segment} {incoming : DataType}
    (hincoming : a.Computes (a.incoming segment) incoming)
    {selector : Selector} (h : a.query.tree.Below (.segment segment :: above) selector.tree)
    (hfilter : (Element.selector selector).filter? = none) :
    a.AllComputed (selector.typed s incoming) := by
  have hself : a.Computes (a.compute selector.id) (selector.type s incoming) := by
    rw [ha.compute_selector h]
    refine Analyzer.computes_selected (ha.segmentOf h) hincoming ?_
    cases selector with
    | filter => cases hfilter
    | index id token value =>
      rw [Analyzer.selected, Selector.type]
      split <;> exact .done
    | name | slice | wildcard | missing => exact .done
  have htokens : a.AllComputed
      (selector.tree.tokens.map (Typed.token (selector.type s incoming))) := by
    refine ha.computes_tokens (fun t ht => h.child (Selector.leaf_mem_children hfilter t ht)) ?_ ?_
    · rw [selector.element_tree]
      rfl
    · rwa [selector.element_tree]
  have htyped : selector.typed s incoming =
      ⟨.selector selector, some incoming, selector.type s incoming⟩ ::
        selector.tree.tokens.map (Typed.token (selector.type s incoming)) := by
    cases selector with
    | filter => cases hfilter
    | name | index | slice | wildcard | missing => rfl
  rw [htyped]
  exact List.forall_mem_cons.mpr ⟨hself, htokens⟩

-- The induction is on the syntax, although types are requested sideways and upwards too: what stands
-- before a segment and what a filter tests are computed by the time their users are reached, and are
-- handed down as `incoming` and in the scope.
mutual

theorem Path.allComputed (ha : a.Regular) {s : TypeScope} {above : List Element} {w : Path}
    (hs : a.Inside (.path w :: above) s) (hpath : a.query.tree.Below above w.tree) :
    (p : Path) → p.Begins w → (∀ c ∈ p.parts, a.query.tree.Below (.path w :: above) c) →
    a.AllComputed (p.typed s)
  | .root id identifier, _, h => by
    have hmark := ha.computes_mark hs id (h _ List.mem_cons_self) rfl
    exact List.forall_mem_singleton.mpr hmark
  | .step before segment, hstart, h => by
    simp only [Path.parts, List.forall_mem_append, List.forall_mem_singleton] at h
    obtain ⟨hparts, hsegment⟩ := h
    have hbefore := Path.allComputed ha hs hpath before hstart.of_step hparts
    have hincoming := ha.computes_incoming hpath hstart hsegment hbefore
    exact List.forall_mem_append.mpr ⟨hbefore, segment.allComputed ha hs hsegment hincoming⟩
termination_by structural x => x

theorem Segment.allComputed (ha : a.Regular) {s : TypeScope} {above : List Element}
    {incoming : DataType} (hs : a.Inside above s) : (segment : Segment) →
    a.query.tree.Below above segment.tree → a.Computes (a.incoming segment) incoming →
    a.AllComputed (segment.typed s incoming)
  | .shorthand id dots selector, h, hincoming => by
    have hbelow := h.each
    simp only [List.forall_mem_cons] at hbelow
    obtain ⟨hdots, hinner, -⟩ := hbelow
    have hselector := Selector.allComputed ha (hs.push rfl) hincoming selector hinner
    have hself := ha.computes_segment h (.cons (Selector.computes_self hselector) .nil)
    simp only [Segment.typed, List.forall_mem_cons]
    exact ⟨hself, ha.computes_token hdots rfl hself, hselector⟩
  | .bracketed id dots opening selectors closing, h, hincoming => by
    have hbelow := h.each
    simp only [List.forall_mem_append, List.forall_mem_cons] at hbelow
    obtain ⟨⟨hdots, hopening, hselectors⟩, hclosing, -⟩ := hbelow
    obtain ⟨htypes, hall⟩ := Selectors.allComputed ha (hs.push rfl) hincoming selectors hselectors
    have hself := ha.computes_segment h htypes
    have htokens : ∀ t ∈ dots.toList, a.query.tree.Below
        (.segment (.bracketed id dots opening selectors closing) :: above) (.leaf t) := by
      cases dots with
      | none => exact List.forall_mem_nil _
      | some t => exact List.forall_mem_singleton.mpr (hdots _ List.mem_cons_self)
    simp only [Segment.typed, List.forall_mem_cons, List.forall_mem_append]
    exact ⟨hself, ⟨ha.computes_tokens htokens rfl hself, ha.computes_token hopening rfl hself,
      hall _ hself⟩, ha.computes_token hclosing rfl hself, List.forall_mem_nil _⟩
termination_by structural x => x

theorem Selectors.allComputed (ha : a.Regular) {s : TypeScope} {above : List Element}
    {segment : Segment} {incoming : DataType} (hs : a.Inside (.segment segment :: above) s)
    (hincoming : a.Computes (a.incoming segment) incoming) : (selectors : Selectors) →
    (∀ c ∈ selectors.trees, a.query.tree.Below (.segment segment :: above) c) →
    List.Forall₂ (fun selector t => a.Computes (a.compute selector.id) t) selectors.toList
      (selectors.types s incoming) ∧
    ∀ whole, a.Computes (a.compute segment.id) whole →
      a.AllComputed (selectors.typed s incoming whole)
  | .last selector, h => by
    have hselector := Selector.allComputed ha hs hincoming selector (h _ List.mem_cons_self)
    exact ⟨.cons (Selector.computes_self hselector) .nil, fun _ _ => hselector⟩
  | .more selector comma rest, h => by
    simp only [Selectors.trees, List.forall_mem_cons] at h
    obtain ⟨hbelow, hcomma, hothers⟩ := h
    have hselector := Selector.allComputed ha hs hincoming selector hbelow
    obtain ⟨htypes, hall⟩ := Selectors.allComputed ha hs hincoming rest hothers
    refine ⟨.cons (Selector.computes_self hselector) htypes, fun whole hwhole => ?_⟩
    simp only [Selectors.typed, List.forall_mem_append, List.forall_mem_cons]
    exact ⟨hselector, ha.computes_token hcomma rfl hwhole, hall whole hwhole⟩
termination_by structural x => x

theorem Selector.allComputed (ha : a.Regular) {s : TypeScope} {above : List Element}
    {segment : Segment} {incoming : DataType} (hs : a.Inside (.segment segment :: above) s)
    (hincoming : a.Computes (a.incoming segment) incoming) : (selector : Selector) →
    a.query.tree.Below (.segment segment :: above) selector.tree →
    a.AllComputed (selector.typed s incoming)
  | .filter id question test, h => by
    have hbelow := h.each
    simp only [List.forall_mem_cons] at hbelow
    obtain ⟨hquestion, hinner, -⟩ := hbelow
    have hsegment := ha.segmentOf h
    have hcandidates := Analyzer.computes_candidates hsegment hincoming
    have htest := Expr.allComputed ha (hs.filter hcandidates) test hinner
    have hself : a.Computes (a.compute id)
        (Selector.type s incoming (.filter id question test)) := by
      rw [show a.compute id = _ from ha.compute_selector h]
      exact Analyzer.computes_selected hsegment hincoming (test.computes_narrowed true htest _)
    simp only [Selector.typed, List.forall_mem_cons]
    exact ⟨hself, ha.computes_token hquestion rfl hself, htest⟩
  | .name .., h | .index .., h | .slice .., h | .wildcard .., h | .missing .., h =>
    Selector.allComputed_of_filter? ha hincoming h rfl
termination_by structural x => x

theorem Expr.allComputed (ha : a.Regular) {s : TypeScope} {above : List Element}
    (hs : a.Inside above s) : (e : Expr) → a.query.tree.Below above e.tree →
    a.AllComputed (e.typed s)
  | .or id first operator rest, h | .and id first operator rest, h => by
    have hself := ha.computes_expression hs h nofun
    have hbelow := h.each
    simp only [List.forall_mem_cons] at hbelow
    obtain ⟨hfirst, hoperator, hrest⟩ := hbelow
    simp only [Expr.typed, List.forall_mem_cons, List.forall_mem_append]
    exact ⟨hself, Expr.allComputed ha (hs.push rfl) first hfirst,
      ha.computes_token hoperator rfl hself, Operands.allComputed ha (hs.push rfl) hself rest hrest⟩
  | .not id bang inner, h => by
    have hself := ha.computes_expression hs h nofun
    have hbelow := h.each
    simp only [List.forall_mem_cons] at hbelow
    obtain ⟨hbang, hinner, -⟩ := hbelow
    simp only [Expr.typed, List.forall_mem_cons]
    exact ⟨hself, ha.computes_token hbang rfl hself, Expr.allComputed ha (hs.push rfl) inner hinner⟩
  | .comparison id left operator op right, h => by
    have hself := ha.computes_expression hs h nofun
    have hbelow := h.each
    simp only [List.forall_mem_cons] at hbelow
    obtain ⟨hleft, hoperator, hright, -⟩ := hbelow
    simp only [Expr.typed, List.forall_mem_cons, List.forall_mem_append]
    exact ⟨hself, Expr.allComputed ha (hs.push rfl) left hleft,
      ha.computes_token hoperator rfl hself, Expr.allComputed ha (hs.push rfl) right hright⟩
  | .path id p, h => by
    have hpath := h.each p.tree List.mem_cons_self
    have hall := Path.allComputed ha ((hs.push rfl).push rfl) hpath p .self hpath.each
    have hp : a.Computes (a.compute p.id) (p.type s) := by
      rw [ha.compute_path hpath]
      exact (Path.computes_end hall).typeOf
    have hself := ha.computes_expression hs h fun _ _ heq => by cases heq; exact hp
    simp only [Expr.typed, List.forall_mem_cons]
    exact ⟨hself, hp, hall⟩
  | .call id name opening arguments closing, h => by
    have hself := ha.computes_expression hs h nofun
    have hbelow := h.each
    simp only [List.forall_mem_cons, List.forall_mem_append] at hbelow
    obtain ⟨⟨hname, hopening, harguments⟩, hclosing, -⟩ := hbelow
    simp only [Expr.typed, List.forall_mem_cons, List.forall_mem_append]
    exact ⟨hself, ha.computes_token hname rfl hself, ha.computes_token hopening rfl hself,
      Arguments.allComputed ha (hs.push rfl) hself arguments harguments,
      ha.computes_token hclosing rfl hself, List.forall_mem_nil _⟩
  | .parens id opening inner closing, h => by
    have hself := ha.computes_expression hs h nofun
    have hbelow := h.each
    simp only [List.forall_mem_cons] at hbelow
    obtain ⟨hopening, hinner, hclosing, -⟩ := hbelow
    simp only [Expr.typed, List.forall_mem_cons, List.forall_mem_append]
    exact ⟨hself, ha.computes_token hopening rfl hself,
      Expr.allComputed ha (hs.push rfl) inner hinner, ha.computes_token hclosing rfl hself,
      List.forall_mem_nil _⟩
  | .literal id token value, h => by
    have hself := ha.computes_expression hs h nofun
    have htoken := h.each (.leaf token) List.mem_cons_self
    exact List.forall_mem_cons.mpr ⟨hself,
      List.forall_mem_singleton.mpr (ha.computes_token htoken rfl hself)⟩
  | .missing id token, h => by
    have hself := ha.computes_expression hs h nofun
    have htoken := h.each (.leaf token) List.mem_cons_self
    exact List.forall_mem_cons.mpr ⟨hself,
      List.forall_mem_singleton.mpr (ha.computes_token htoken rfl hself)⟩
termination_by structural x => x

theorem Operands.allComputed (ha : a.Regular) {s : TypeScope} {above : List Element} {e : Expr}
    {whole : DataType} (hs : a.Inside (.expression e :: above) s)
    (hwhole : a.Computes (a.compute e.id) whole) : (os : Operands) →
    (∀ c ∈ os.trees, a.query.tree.Below (.expression e :: above) c) →
    a.AllComputed (os.typed s whole)
  | .last operand, h => Expr.allComputed ha hs operand (h _ List.mem_cons_self)
  | .more operand separator rest, h => by
    simp only [Operands.trees, List.forall_mem_cons] at h
    obtain ⟨hoperand, hseparator, hrest⟩ := h
    simp only [Operands.typed, List.forall_mem_append, List.forall_mem_cons]
    exact ⟨Expr.allComputed ha hs operand hoperand, ha.computes_token hseparator rfl hwhole,
      Operands.allComputed ha hs hwhole rest hrest⟩
termination_by structural x => x

theorem Arguments.allComputed (ha : a.Regular) {s : TypeScope} {above : List Element} {e : Expr}
    {whole : DataType} (hs : a.Inside (.expression e :: above) s)
    (hwhole : a.Computes (a.compute e.id) whole) : (as : Arguments) →
    (∀ c ∈ as.trees, a.query.tree.Below (.expression e :: above) c) →
    a.AllComputed (as.typed s whole)
  | .none, _ => List.forall_mem_nil _
  | .some operands, h => Operands.allComputed ha hs hwhole operands h
termination_by structural x => x

end

end Elements

namespace Analyzer

variable {a : Analyzer} (ha : a.Regular)

include ha

theorem Regular.allComputed : a.AllComputed (a.query.typed a.environment a.root) := by
  have htop : a.query.tree.Below [] a.query.tree := .top
  have hbelow := htop.each
  simp only [List.forall_mem_cons] at hbelow
  obtain ⟨hpath, hending, -⟩ := hbelow
  have hinside : a.Inside [.path a.query.path, .query a.query] ⟨a.environment, a.root, a.root⟩ :=
    ⟨rfl, rfl, .done⟩
  have hparts := Path.allComputed ha hinside hpath a.query.path .self hpath.each
  have htype : a.Computes (a.compute a.query.path.id)
      (a.query.path.type ⟨a.environment, a.root, a.root⟩) := by
    rw [ha.compute_path hpath]
    exact (Path.computes_end hparts).typeOf
  have hquery : a.Computes (a.compute a.query.id)
      (a.query.path.type ⟨a.environment, a.root, a.root⟩) := by
    rw [show a.compute a.query.id = _ from ha.compute htop]
    exact htype.typeOf
  simp only [Query.typed, List.forall_mem_cons, List.forall_mem_append]
  exact ⟨hquery, htype, hparts, ha.computes_token hending rfl hquery, List.forall_mem_nil _⟩

/-- What is computed for a number is the type of the element that has it, and the empty type if
there is none. -/
theorem Regular.computes_typeOf? (id : Nat) :
    a.Computes (a.compute id) ((a.query.typeOf? a.environment a.root id).getD .bottom) := by
  have hids : a.query.tree.ids =
      (a.query.typed a.environment a.root).map fun e => e.element.id := by
    rw [Tree.ids, ← a.query.elements_typed a.environment a.root, Typed.elements, List.map_map]
    rfl
  by_cases hid : id ∈ a.query.tree.ids
  · rw [hids] at hid
    obtain ⟨e, he, rfl⟩ := List.mem_map.mp hid
    rw [Query.typeOf?_eq_some ha.ids he]
    exact ha.allComputed e he
  · have hfind := (Query.index_search ha.ids id).1
    rw [(Query.index_vacant hid).1] at hfind
    have htype : a.query.typeOf? a.environment a.root id = none := by
      rw [hids] at hid
      rw [Query.typeOf?, Option.map_eq_none_iff, List.find?_eq_none]
      exact fun e he heq => hid (List.mem_map.mpr ⟨e, he, beq_iff_eq.mp heq⟩)
    rw [htype, Analyzer.compute, ← hfind]
    exact .done

end Analyzer

theorem Analyzer.regular_parse (source : String) (environment : Environment) (root : DataType) :
    Regular ⟨Query.parse source, environment, root⟩ :=
  ⟨Query.parse_ids_nodup source, Query.parse_marked source⟩

end JsonPath
