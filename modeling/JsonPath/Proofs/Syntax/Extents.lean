import JsonPath.Proofs.Syntax.Lossless

/-!
Where the elements of a query stand. Its tokens stand one after the other, and an element spans
the tokens below it, from the first to the last. So the children of an element stand one after the
other inside it, and together they span all of it.
-/

namespace JsonPath

/-- The smallest range that holds all of some ranges, if there are any. -/
def Range.hull? : List Range → Option Range
  | [] => none
  | r :: rest => some (rest.foldl cover r)

/-- The hull of some ranges holds each of them. -/
theorem Range.holds_foldl_cover (r : Range) (rest : List Range) :
    ∀ x ∈ r :: rest, (rest.foldl cover r).start ≤ x.start ∧ x.stop ≤ (rest.foldl cover r).stop := by
  induction rest generalizing r with
  | nil => simp
  | cons s rest ih =>
    obtain ⟨hcover, hrest⟩ := List.forall_mem_cons.mp (ih (r.cover s))
    have hboth : (r.cover s).start = min r.start s.start ∧ (r.cover s).stop = max r.stop s.stop :=
      ⟨rfl, rfl⟩
    rw [List.foldl_cons]
    exact List.forall_mem_cons.mpr ⟨by omega, List.forall_mem_cons.mpr ⟨by omega, hrest⟩⟩

/-- What holds all of some ranges holds their hull. -/
theorem Range.foldl_cover_within {outer : Range} (r : Range) (rest : List Range)
    (h : ∀ x ∈ r :: rest, outer.start ≤ x.start ∧ x.stop ≤ outer.stop) :
    outer.start ≤ (rest.foldl cover r).start ∧ (rest.foldl cover r).stop ≤ outer.stop := by
  induction rest generalizing r with
  | nil => exact h r List.mem_cons_self
  | cons s rest ih =>
    simp only [List.forall_mem_cons] at h ih
    refine ih (r.cover s) ⟨?_, h.2.2⟩
    dsimp only [cover]
    omega

/-- A range that holds some ranges, and starts and stops with one of them, is their hull. -/
theorem Range.hull?_eq_some {ranges : List Range} {r : Range}
    (hinside : ∀ x ∈ ranges, r.start ≤ x.start ∧ x.stop ≤ r.stop)
    (hstart : ∃ x ∈ ranges, x.start = r.start) (hstop : ∃ x ∈ ranges, x.stop = r.stop) :
    hull? ranges = some r := by
  obtain ⟨x, hx, hxstart⟩ := hstart
  obtain ⟨y, hy, hystop⟩ := hstop
  cases ranges with
  | nil => cases hx
  | cons first rest =>
    have hholds := holds_foldl_cover first rest
    have hleft := (hholds x hx).1
    have hright := (hholds y hy).2
    have hwithin := foldl_cover_within first rest hinside
    have hequal (s : Range) (h : s.start = r.start ∧ s.stop = r.stop) : s = r := by
      cases s
      cases r
      simpa using h
    rw [hull?, hequal (rest.foldl cover first) (by omega)]

/-- Tokens that stand one after the other. -/
structure Token.Ordered (tokens : List Token) : Prop where
  forward : ∀ t ∈ tokens, t.range.start ≤ t.range.stop
  apart : tokens.Pairwise fun a b => a.range.stop ≤ b.range.start

theorem Token.Ordered.sublist {some all : List Token} (h : Token.Ordered all)
    (hsublist : some.Sublist all) : Token.Ordered some where
  forward t ht := h.forward t (hsublist.subset ht)
  apart := h.apart.sublist hsublist

theorem Range.Spans.forward {r : Range} {chars part : List Char} (h : r.Spans chars part) :
    r.start ≤ r.stop := by
  obtain ⟨before, after, -, hstart, hstop⟩ := h
  rw [hstart, hstop, Text.byteLength_append]
  exact Nat.le_add_right _ _

/-- Tokens that tile a stretch of a text stand one after the other inside it. -/
theorem Token.Tile.ordered {chars : List Char} {start stop : Nat} {tokens : List Token}
    (h : Token.Tile chars start tokens stop) : Token.Ordered tokens ∧ start ≤ stop ∧
      ∀ t ∈ tokens, start ≤ t.range.start ∧ t.range.stop ≤ stop := by
  induction h with
  | nil => exact ⟨⟨List.forall_mem_nil _, .nil⟩, Nat.le_refl _, List.forall_mem_nil _⟩
  | cons skipped text _ _ ih =>
    obtain ⟨hordered, hle, hinside⟩ := ih
    have hskipped := skipped.forward
    have htext := text.forward
    refine ⟨⟨?_, ?_⟩, by dsimp only at hskipped; omega, ?_⟩
    · exact List.forall_mem_cons.mpr ⟨htext, hordered.forward⟩
    · exact List.pairwise_cons.mpr ⟨fun t ht => (hinside t ht).1, hordered.apart⟩
    · refine List.forall_mem_cons.mpr ⟨⟨hskipped, hle⟩, fun t ht => ?_⟩
      have := hinside t ht
      dsimp only at hskipped
      omega

/-- Every token stands at a stretch of the text. -/
theorem Token.Tile.spans {chars : List Char} {start stop : Nat} {tokens : List Token}
    (h : Token.Tile chars start tokens stop) :
    ∀ t ∈ tokens, ∃ part, t.range.Spans chars part := by
  induction h with
  | nil => exact List.forall_mem_nil _
  | cons _ text _ _ ih => exact List.forall_mem_cons.mpr ⟨⟨_, text⟩, ih⟩

/-- From the start of one stretch of a text to the stop of another is a stretch of it. -/
theorem Range.Spans.join {r s : Range} {chars a b : List Char} (hr : r.Spans chars a)
    (hs : s.Spans chars b) (h : r.start ≤ s.stop) :
    ∃ part, (⟨r.start, s.stop⟩ : Range).Spans chars part := by
  obtain ⟨before, after, hchars, hstart, -⟩ := hr
  obtain ⟨before', after', hchars', -, hstop⟩ := hs
  rw [hchars, List.append_assoc] at hchars'
  rcases List.append_eq_append_iff.mp hchars' with ⟨part, hpart, hafter⟩ | ⟨part, hpart, -⟩
  · refine ⟨part, before, after', ?_, hstart, ?_⟩
    · rw [hchars, List.append_assoc, hafter, List.append_assoc]
    · rw [hstop, hpart]
  · -- The other way round there is nothing between the two.
    have hnil : part = [] := by
      rw [hstart, hstop, hpart, Text.byteLength_append] at h
      cases part with
      | nil => rfl
      | cons x part =>
        have := x.utf8Size_pos
        rw [Text.byteLength_cons] at h
        omega
    rw [hnil, List.append_nil] at hpart
    exact ⟨[], before, a ++ after, by simp [hchars], hstart, by rw [hstop, List.append_nil, hpart]⟩

/-- The first and the last of some tokens. -/
structure Token.Ends (tokens : List Token) (first last : Token) : Prop where
  head : tokens.head? = some first
  last : tokens.getLast? = some last

namespace Token.Ends

variable {a b : List Token} {first last middle middle' : Token}

theorem single (t : Token) : Token.Ends [t] t t := ⟨rfl, rfl⟩

theorem append (ha : Token.Ends a first middle) (hb : Token.Ends b middle' last) :
    Token.Ends (a ++ b) first last where
  head := by rw [List.head?_append, ha.head, Option.some_or]
  last := by rw [List.getLast?_append, hb.last, Option.some_or]

theorem cons (t : Token) (hb : Token.Ends b middle last) : Token.Ends (t :: b) t last :=
  (single t).append hb

theorem around (first last : Token) (tokens : List Token) :
    Token.Ends (first :: tokens ++ [last]) first last := ⟨rfl, List.getLast?_concat⟩

theorem first_mem (h : Token.Ends a first last) : first ∈ a := List.mem_of_head? h.head

theorem last_mem (h : Token.Ends a first last) : last ∈ a := List.mem_of_getLast? h.last

/-- Tokens in order lie between the start of the first and the stop of the last. -/
theorem bounds (h : Token.Ends a first last) (ha : Token.Ordered a) {t : Token} (ht : t ∈ a) :
    first.range.start ≤ t.range.start ∧ t.range.stop ≤ last.range.stop := by
  constructor
  · obtain ⟨rest, rfl⟩ := List.head?_eq_some_iff.mp h.head
    rcases List.mem_cons.mp ht with rfl | hmem
    · exact Nat.le_refl _
    · exact Nat.le_trans (ha.forward _ h.first_mem) (List.rel_of_pairwise_cons ha.apart hmem)
  · obtain ⟨init, rfl⟩ := List.getLast?_eq_some_iff.mp h.last
    rcases List.mem_append.mp ht with hmem | hlast
    · exact Nat.le_trans ((List.pairwise_append.mp ha.apart).2.2 t hmem last (by simp))
        (ha.forward _ h.last_mem)
    · exact Nat.le_of_eq (by rw [List.mem_singleton.mp hlast])

end Token.Ends

namespace Tree

/-- A tree is part of another: it is that tree, or it is part of the tree of a child. -/
inductive Part (s : Tree) : Tree → Prop
  | self : Part s s
  | child {c : Tree} {e : Element} {cs : List Tree} (inner : Part s c) (mem : c ∈ cs) :
      Part s (node e cs)

/-- All parts of a tree have the property. -/
def Each (P : Tree → Prop) (t : Tree) : Prop := ∀ s, s.Part t → P s

theorem Each.self {P : Tree → Prop} {t : Tree} (h : t.Each P) : P t := h t .self

theorem each_node {P : Tree → Prop} {e : Element} {cs : List Tree} :
    (node e cs).Each P ↔ P (node e cs) ∧ ∀ c ∈ cs, c.Each P := by
  constructor
  · exact fun h => ⟨h _ .self, fun c hc s hs => h s (.child hs hc)⟩
  · rintro ⟨hself, hchildren⟩ s hs
    cases hs with
    | self => exact hself
    | child inner mem => exact hchildren _ mem s inner

theorem tokensAll_eq_flatMap (ts : List Tree) : tokensAll ts = ts.flatMap tokens := by
  induction ts with
  | nil => rfl
  | cons t rest ih => rw [tokensAll_cons, ih, List.flatMap_cons]

theorem tokens_composite {e : Element} {cs : List Tree} (he : e.asToken? = none) :
    (node e cs).tokens = tokensAll cs := by
  cases e with
  | token => cases he
  | query | path | segment | selector | expression => rw [Tree.tokens]; nofun

/-- The element of a tree begins and ends with the first and the last token of the tree. -/
def Delimited (t : Tree) : Prop :=
  Token.Ends t.tokens t.element.firstToken t.element.lastToken

/-- The element of a tree spans the tokens of the tree, those of the children among them. -/
structure Spanned (t : Tree) : Prop where
  delimited : t.Delimited
  range : t.range = t.element.firstToken.range.cover t.element.lastToken.range
  below : (tokensAll t.children).Sublist t.tokens

theorem spanned_leaf (t : Token) : (leaf t).Each Spanned := by
  refine each_node.mpr ⟨⟨.single t, ?_, List.nil_sublist _⟩, List.forall_mem_nil _⟩
  change t.range = t.range.cover t.range
  rw [Range.cover, Nat.min_self, Nat.max_self]

theorem spanned_leaf? (t : Option Token) : ∀ c ∈ leaf? t, c.Each Spanned := by
  intro c hc
  cases t with
  | none => cases hc
  | some token =>
    rw [List.mem_singleton.mp hc]
    exact spanned_leaf token

theorem spanned_leaves (t : Token) : ∀ c ∈ [leaf t], c.Each Spanned :=
  List.forall_mem_singleton.mpr (spanned_leaf t)

/-- An element that is not a token spans what its children do. -/
theorem spanned_node {e : Element} {cs : List Tree} {tokens : List Token}
    (he : e.asToken? = none) (hends : Token.Ends tokens e.firstToken e.lastToken)
    (htokens : tokensAll cs = tokens)
    (hrange : e.range = e.firstToken.range.cover e.lastToken.range)
    (hchildren : ∀ c ∈ cs, c.Each Spanned) : (node e cs).Each Spanned := by
  have hall : (node e cs).tokens = tokensAll cs := tokens_composite he
  refine each_node.mpr ⟨⟨?_, hrange, hall ▸ List.Sublist.refl _⟩, hchildren⟩
  rwa [Delimited, hall, htokens]

end Tree

theorem StepPart.spanned_leaves (part : Option StepPart) :
    ∀ c ∈ StepPart.leaves part, c.Each Tree.Spanned := by
  cases part with
  | none => exact List.forall_mem_nil _
  | some part =>
    exact List.forall_mem_cons.mpr ⟨Tree.spanned_leaf _, Tree.spanned_leaf? _⟩

theorem Segment.element_tree (s : Segment) : s.tree.element = .segment s := by
  cases s <;> rfl

theorem Selector.element_tree (s : Selector) : s.tree.element = .selector s := by
  cases s <;> rfl

theorem Expr.element_tree (e : Expr) : e.tree.element = .expression e := by
  cases e <;> rfl

theorem Segment.ends (s : Segment) (h : s.tree.Each Tree.Spanned) :
    Token.Ends s.tree.tokens s.firstToken s.lastToken := by
  have hends := h.self.delimited
  rwa [Tree.Delimited, s.element_tree] at hends

theorem Selector.ends (s : Selector) (h : s.tree.Each Tree.Spanned) :
    Token.Ends s.tree.tokens s.firstToken s.lastToken := by
  have hends := h.self.delimited
  rwa [Tree.Delimited, s.element_tree] at hends

theorem Expr.ends (e : Expr) (h : e.tree.Each Tree.Spanned) :
    Token.Ends e.tree.tokens e.firstToken e.lastToken := by
  have hends := h.self.delimited
  rwa [Tree.Delimited, e.element_tree] at hends

/-- The first and the last token of a slice. -/
theorem Selector.ends_slice (id : Nat) (start : Option Bound) (colon : Token) (stop : Option Bound)
    (step : Option StepPart) :
    Token.Ends (Entry.tokens (Bound.entries start) ++ colon :: Entry.tokens (Bound.entries stop) ++
        Entry.tokens (StepPart.entries step))
      (Selector.slice id start colon stop step).firstToken
      (Selector.slice id start colon stop step).lastToken := by
  have hstart {tokens : List Token} {last : Token} (h : Token.Ends (colon :: tokens) colon last) :
      Token.Ends (Entry.tokens (Bound.entries start) ++ colon :: tokens)
        (Selector.slice id start colon stop step).firstToken last := by
    cases start with
    | none => exact h
    | some start => exact .cons start.token h
  rw [List.append_assoc, List.cons_append]
  apply hstart
  rcases stop with _ | stop <;> rcases step with _ | ⟨second, _ | step⟩
  · exact .single colon
  · exact .cons colon (.single second)
  · exact .cons colon (.cons second (.single step.token))
  · exact .cons colon (.single stop.token)
  · exact .cons colon (.cons stop.token (.single second))
  · exact .cons colon (.cons stop.token (.cons second (.single step.token)))

mutual

theorem Path.spanned_parts : (p : Path) → (∀ c ∈ p.parts, c.Each Tree.Spanned) ∧
    Token.Ends (Tree.tokensAll p.parts) p.firstToken p.lastToken
  | .root id identifier =>
    ⟨Tree.spanned_leaves identifier, by
      rw [Path.parts, Tree.tokensAll_cons, Tree.tokens_leaf]
      exact .single identifier⟩
  | .step before segment => by
    obtain ⟨hparts, hends⟩ := before.spanned_parts
    have hsegment := segment.spanned
    rw [Path.parts]
    refine ⟨List.forall_mem_append.mpr ⟨hparts, List.forall_mem_singleton.mpr hsegment⟩, ?_⟩
    rw [Tree.tokensAll_append, Tree.tokensAll_cons, Tree.tokensAll_nil, List.append_nil]
    exact hends.append (segment.ends hsegment)

theorem Segment.spanned : (s : Segment) → s.tree.Each Tree.Spanned
  | .shorthand _ dots selector =>
    have hselector := selector.spanned
    Tree.spanned_node rfl (.cons dots (selector.ends hselector)) (by simp) rfl
      (List.forall_mem_cons.mpr
        ⟨Tree.spanned_leaf dots, List.forall_mem_singleton.mpr hselector⟩)
  | .bracketed _ none opening selectors closing =>
    Tree.spanned_node rfl (.around opening closing (Tree.tokensAll selectors.trees))
      (by simp [Tree.leaf?]) rfl
      (List.forall_mem_append.mpr
        ⟨List.forall_mem_cons.mpr ⟨Tree.spanned_leaf opening, selectors.spanned⟩,
          Tree.spanned_leaves closing⟩)
  | .bracketed _ (some dots) opening selectors closing =>
    Tree.spanned_node rfl (.around dots closing (opening :: Tree.tokensAll selectors.trees))
      (by simp [Tree.leaf?]) rfl
      (List.forall_mem_append.mpr
        ⟨List.forall_mem_cons.mpr ⟨Tree.spanned_leaf dots,
          List.forall_mem_cons.mpr ⟨Tree.spanned_leaf opening, selectors.spanned⟩⟩,
          Tree.spanned_leaves closing⟩)

theorem Selectors.spanned : (ss : Selectors) → ∀ c ∈ ss.trees, c.Each Tree.Spanned
  | .last selector => List.forall_mem_singleton.mpr selector.spanned
  | .more selector comma rest =>
    List.forall_mem_cons.mpr ⟨selector.spanned,
      List.forall_mem_cons.mpr ⟨Tree.spanned_leaf comma, rest.spanned⟩⟩

theorem Selector.spanned : (s : Selector) → s.tree.Each Tree.Spanned
  | .name _ token _ | .index _ token _ | .wildcard _ token | .missing _ token =>
    Tree.spanned_node rfl (.single token) (by simp) rfl (Tree.spanned_leaves token)
  | .slice id start colon stop step =>
    Tree.spanned_node rfl (Selector.ends_slice id start colon stop step) (by simp) rfl
      (List.forall_mem_append.mpr
        ⟨List.forall_mem_append.mpr ⟨Tree.spanned_leaf? _,
          List.forall_mem_cons.mpr ⟨Tree.spanned_leaf colon, Tree.spanned_leaf? _⟩⟩,
        StepPart.spanned_leaves step⟩)
  | .filter _ question test =>
    have htest := test.spanned
    Tree.spanned_node rfl (.cons question (test.ends htest)) (by simp) rfl
      (List.forall_mem_cons.mpr
        ⟨Tree.spanned_leaf question, List.forall_mem_singleton.mpr htest⟩)

theorem Expr.spanned : (e : Expr) → e.tree.Each Tree.Spanned
  | .or _ first operator rest | .and _ first operator rest =>
    have hfirst := first.spanned
    have ⟨hrest, _, hends⟩ := rest.spanned
    Tree.spanned_node rfl ((first.ends hfirst).append (.cons operator hends)) (by simp) rfl
      (List.forall_mem_cons.mpr
        ⟨hfirst, List.forall_mem_cons.mpr ⟨Tree.spanned_leaf operator, hrest⟩⟩)
  | .not _ bang inner =>
    have hinner := inner.spanned
    Tree.spanned_node rfl (.cons bang (inner.ends hinner)) (by simp) rfl
      (List.forall_mem_cons.mpr ⟨Tree.spanned_leaf bang, List.forall_mem_singleton.mpr hinner⟩)
  | .comparison _ left operator _ right =>
    have hleft := left.spanned
    have hright := right.spanned
    Tree.spanned_node rfl ((left.ends hleft).append (.cons operator (right.ends hright)))
      (by simp) rfl
      (List.forall_mem_cons.mpr ⟨hleft, List.forall_mem_cons.mpr
        ⟨Tree.spanned_leaf operator, List.forall_mem_singleton.mpr hright⟩⟩)
  | .path _ p =>
    have ⟨hparts, hends⟩ := p.spanned_parts
    Tree.spanned_node rfl hends (by simp [Tree.tokens]) rfl (List.forall_mem_singleton.mpr
      (Tree.spanned_node rfl hends rfl rfl hparts))
  | .call _ name opening arguments closing =>
    Tree.spanned_node rfl (.around name closing (opening :: Tree.tokensAll arguments.trees))
      (by simp) rfl
      (List.forall_mem_append.mpr
        ⟨List.forall_mem_cons.mpr ⟨Tree.spanned_leaf name,
          List.forall_mem_cons.mpr ⟨Tree.spanned_leaf opening, arguments.spanned⟩⟩,
          Tree.spanned_leaves closing⟩)
  | .literal _ token _ | .missing _ token =>
    Tree.spanned_node rfl (.single token) (by simp) rfl (Tree.spanned_leaves token)
  | .parens _ opening inner closing =>
    Tree.spanned_node rfl (.around opening closing inner.tree.tokens) (by simp) rfl
      (List.forall_mem_cons.mpr ⟨Tree.spanned_leaf opening,
        List.forall_mem_cons.mpr ⟨inner.spanned, Tree.spanned_leaves closing⟩⟩)

theorem Operands.spanned : (os : Operands) → (∀ c ∈ os.trees, c.Each Tree.Spanned) ∧
    ∃ first, Token.Ends (Tree.tokensAll os.trees) first os.lastToken
  | .last operand =>
    have hoperand := operand.spanned
    ⟨List.forall_mem_singleton.mpr hoperand, _, by
      rw [Operands.trees, Tree.tokensAll_cons, Tree.tokensAll_nil, List.append_nil]
      exact operand.ends hoperand⟩
  | .more operand separator rest => by
    have hoperand := operand.spanned
    obtain ⟨hrest, other, hends⟩ := rest.spanned
    refine ⟨List.forall_mem_cons.mpr ⟨hoperand,
      List.forall_mem_cons.mpr ⟨Tree.spanned_leaf separator, hrest⟩⟩, operand.firstToken, ?_⟩
    rw [Operands.trees, Tree.tokensAll_cons, Tree.tokensAll_cons, Tree.tokens_leaf]
    exact (operand.ends hoperand).append (.cons separator hends)

theorem Arguments.spanned : (as : Arguments) → ∀ c ∈ as.trees, c.Each Tree.Spanned
  | .none => List.forall_mem_nil _
  | .some operands => operands.spanned.1

end

namespace Tree

/-- An element whose tokens are in order reaches from the first to the last of them. -/
theorem Spanned.reaches {t : Tree} (h : t.Spanned) (ht : Token.Ordered t.tokens) :
    t.range.start = t.element.firstToken.range.start ∧
      t.range.stop = t.element.lastToken.range.stop ∧ t.range.start ≤ t.range.stop := by
  have hfirst := h.delimited.bounds ht h.delimited.first_mem
  have hlast := h.delimited.bounds ht h.delimited.last_mem
  have hforward := ht.forward _ h.delimited.first_mem
  rw [h.range]
  exact ⟨Nat.min_eq_left hlast.1, Nat.max_eq_right hfirst.2, by dsimp only [Range.cover]; omega⟩

/-- Where the tokens of an element stand at stretches of a text, so does the element. -/
theorem Spanned.range_spans {t : Tree} {chars : List Char} (h : t.Spanned)
    (ht : Token.Ordered t.tokens) (hspans : ∀ x ∈ t.tokens, ∃ part, x.range.Spans chars part) :
    ∃ part, t.range.Spans chars part := by
  obtain ⟨hstart, hstop, hforward⟩ := h.reaches ht
  obtain ⟨_, hfirst⟩ := hspans _ h.delimited.first_mem
  obtain ⟨_, hlast⟩ := hspans _ h.delimited.last_mem
  have hrange : t.range = ⟨t.element.firstToken.range.start, t.element.lastToken.range.stop⟩ := by
    rw [← hstart, ← hstop]
  rw [hrange]
  exact hfirst.join hlast (hstart ▸ hstop ▸ hforward)

/-- The children of a tree stand one after the other, each inside the range of the tree. -/
structure Spread (t : Tree) : Prop where
  apart : t.children.Pairwise fun a b => a.range.stop ≤ b.range.start
  inside : ∀ c ∈ t.children,
    t.range.start ≤ c.range.start ∧ c.range.start ≤ c.range.stop ∧ c.range.stop ≤ t.range.stop

/-- An element that is not a token has exactly the hull of its children's ranges. -/
def Hulled (t : Tree) : Prop :=
  t.element.asToken? = none → Range.hull? (t.children.map range) = some t.range

theorem child_tokens_sublist {c : Tree} {cs : List Tree} (hc : c ∈ cs) :
    c.tokens.Sublist (tokensAll cs) := by
  rw [tokensAll_eq_flatMap]
  exact List.sublist_flatten_of_mem (List.mem_map_of_mem hc)

/-- Trees whose tokens are in order stand one after the other. -/
theorem spanned_apart {cs : List Tree} (hcs : ∀ c ∈ cs, c.Spanned)
    (h : Token.Ordered (tokensAll cs)) :
    cs.Pairwise fun a b => a.range.stop ≤ b.range.start := by
  have hapart := h.apart
  rw [tokensAll_eq_flatMap, List.pairwise_flatMap] at hapart
  refine hapart.2.imp_of_mem fun {a b} ha hb hab => ?_
  have hstop := ((hcs a ha).reaches (h.sublist (child_tokens_sublist ha))).2.1
  have hstart := ((hcs b hb).reaches (h.sublist (child_tokens_sublist hb))).1
  rw [hstop, hstart]
  exact hab _ (hcs a ha).delimited.last_mem _ (hcs b hb).delimited.first_mem

/-- Where a tree and its children span their tokens, the children are spread inside the tree. -/
theorem Spanned.spread {t : Tree} (h : t.Spanned) (hcs : ∀ c ∈ t.children, c.Spanned)
    (ht : Token.Ordered t.tokens) : t.Spread where
  apart := spanned_apart hcs (ht.sublist h.below)
  inside c hc := by
    have hsublist := (child_tokens_sublist hc).trans h.below
    obtain ⟨hstart, hstop, -⟩ := h.reaches ht
    obtain ⟨hcstart, hcstop, hforward⟩ := (hcs c hc).reaches (ht.sublist hsublist)
    have hfirst := h.delimited.bounds ht (hsublist.subset (hcs c hc).delimited.first_mem)
    have hlast := h.delimited.bounds ht (hsublist.subset (hcs c hc).delimited.last_mem)
    omega

/-- The token of a composite element is a token of one of its children. -/
theorem exists_child_of_mem_tokens {t : Tree} (ht : t.element.asToken? = none) {x : Token}
    (hx : x ∈ t.tokens) : ∃ c ∈ t.children, x ∈ c.tokens := by
  obtain ⟨e, cs⟩ := t
  change e.asToken? = none at ht
  rw [tokens_composite ht, tokensAll_eq_flatMap] at hx
  exact List.mem_flatMap.mp hx

theorem Spanned.hulled {t : Tree} (h : t.Spanned) (hcs : ∀ c ∈ t.children, c.Spanned)
    (ht : Token.Ordered t.tokens) : t.Hulled := by
  intro hcomposite
  obtain ⟨hstart, hstop, -⟩ := h.reaches ht
  have hinside := (h.spread hcs ht).inside
  have hreaches {c : Tree} (hc : c ∈ t.children) :=
    (hcs c hc).reaches (ht.sublist ((child_tokens_sublist hc).trans h.below))
  have hbounds {c : Tree} (hc : c ∈ t.children) {x : Token} (hx : x ∈ c.tokens) :=
    (hcs c hc).delimited.bounds (ht.sublist ((child_tokens_sublist hc).trans h.below)) hx
  refine Range.hull?_eq_some ?_ ?_ ?_
  · exact List.forall_mem_map.mpr fun c hc => ⟨(hinside c hc).1, (hinside c hc).2.2⟩
  · obtain ⟨c, hc, hx⟩ := exists_child_of_mem_tokens hcomposite h.delimited.first_mem
    refine ⟨c.range, List.mem_map_of_mem hc, ?_⟩
    have := hinside c hc
    have := hreaches hc
    have := hbounds hc hx
    omega
  · obtain ⟨c, hc, hx⟩ := exists_child_of_mem_tokens hcomposite h.delimited.last_mem
    refine ⟨c.range, List.mem_map_of_mem hc, ?_⟩
    have := hinside c hc
    have := hreaches hc
    have := hbounds hc hx
    omega

/-- The tokens of a part are tokens of the tree, in the same order. -/
theorem Part.tokens_sublist {s t : Tree} (h : s.Part t) (ht : t.Each Spanned) :
    s.tokens.Sublist t.tokens := by
  induction h with
  | self => exact List.Sublist.refl _
  | child inner mem ih =>
    have hnode := each_node.mp ht
    exact ((ih (hnode.2 _ mem)).trans (child_tokens_sublist mem)).trans hnode.1.below

/-- What is part of a part of a tree is part of the tree. -/
theorem Part.trans {r s t : Tree} (h : r.Part s) (hs : s.Part t) : r.Part t := by
  induction hs with
  | self => exact h
  | child _ mem ih => exact .child ih mem

theorem Part.of_mem_children {c t : Tree} (h : c ∈ t.children) : c.Part t := by
  cases t
  exact .child .self h

/-- In a tree that spans tokens in order, the children of every part are spread inside it, with
exactly the range of the part as their hull. -/
theorem Each.spread {t : Tree} (h : t.Each Spanned) (ht : Token.Ordered t.tokens) {s : Tree}
    (hs : s.Part t) : s.Spread ∧ s.Hulled := by
  have hordered := ht.sublist (hs.tokens_sublist h)
  have hchildren (c : Tree) (hc : c ∈ s.children) : c.Spanned :=
    h c ((Part.of_mem_children hc).trans hs)
  exact ⟨(h s hs).spread hchildren hordered, (h s hs).hulled hchildren hordered⟩

end Tree

namespace Query

theorem spanned_children (q : Query) : ∀ c ∈ q.tree.children, c.Each Tree.Spanned := by
  obtain ⟨hparts, hends⟩ := q.path.spanned_parts
  exact List.forall_mem_cons.mpr
    ⟨Tree.spanned_node rfl hends rfl rfl hparts, Tree.spanned_leaves q.ending⟩

/-- A part of a query is the query, or part of its path or its end. -/
theorem part_cases {q : Query} {s : Tree} (h : s.Part q.tree) :
    s = q.tree ∨ ∃ c ∈ q.tree.children, s.Part c := by
  rw [Query.tree] at h ⊢
  cases h with
  | self => exact .inl rfl
  | child inner mem => exact .inr ⟨_, mem, inner⟩

theorem tree_tokens (q : Query) : q.tree.tokens = Tree.tokensAll q.tree.children :=
  Tree.tokens_composite rfl

/-- A query begins with the first token of its path and ends with its end. -/
theorem delimited (q : Query) : q.tree.Delimited := by
  have hpath : q.path.tree.Delimited :=
    (q.spanned_children q.path.tree List.mem_cons_self).self.delimited
  have htokens : q.tree.tokens = q.path.tree.tokens ++ [q.ending] := by
    rw [tree_tokens]
    simp [Query.tree, Tree.children]
  rw [Tree.Delimited, htokens]
  exact hpath.append (.single q.ending)

/-- Where the tokens of a query stand one after the other in its source, the children of every
part of it are spread inside the part, and are the hull of every part but the query itself. -/
theorem part_spread (q : Query) (ht : Token.Ordered q.tree.tokens)
    (hlength : ∀ t ∈ q.tree.tokens, t.range.stop ≤ q.length) {s : Tree} (hs : s.Part q.tree) :
    s.Delimited ∧ s.Spread ∧ (s ≠ q.tree → s.Hulled) := by
  have hchildren := q.spanned_children
  rw [tree_tokens] at ht hlength
  have hchild {c : Tree} (hc : c ∈ q.tree.children) : Token.Ordered c.tokens :=
    ht.sublist (Tree.child_tokens_sublist hc)
  rcases part_cases hs with rfl | ⟨c, hc, hpart⟩
  · refine ⟨q.delimited, ⟨?_, fun c hc => ?_⟩, fun h => absurd rfl h⟩
    · exact Tree.spanned_apart (fun c hc => (hchildren c hc).self) ht
    · have hspanned := (hchildren c hc).self
      obtain ⟨-, hstop, hforward⟩ := hspanned.reaches (hchild hc)
      have hlast := hlength _ ((Tree.child_tokens_sublist hc).subset hspanned.delimited.last_mem)
      exact ⟨Nat.zero_le _, hforward, hstop ▸ hlast⟩
  · obtain ⟨hspread, hhulled⟩ := (hchildren c hc).spread (hchild hc) hpart
    exact ⟨(hchildren c hc s hpart).delimited, hspread, fun _ => hhulled⟩

/-- The tokens of a source stand at stretches of it, and so does every part of the query that they
make. -/
theorem part_spans {chars : List Char} {start stop : Nat} (q : Query)
    (ht : Token.Tile chars start q.tree.tokens stop) (hlength : q.length = Text.byteLength chars)
    {s : Tree} (hs : s.Part q.tree) : ∃ part, s.range.Spans chars part := by
  rcases part_cases hs with rfl | ⟨c, hc, hpart⟩
  · exact ⟨chars, [], [], by rw [List.nil_append, List.append_nil], rfl, hlength⟩
  · have hsublist : s.tokens.Sublist q.tree.tokens := by
      rw [tree_tokens]
      exact (hpart.tokens_sublist (q.spanned_children c hc)).trans (Tree.child_tokens_sublist hc)
    exact (q.spanned_children c hc s hpart).range_spans (ht.ordered.1.sublist hsublist)
      fun x hx => ht.spans x (hsublist.subset hx)

theorem parse_length (source : String) : (parse source).length = source.utf8ByteSize := by
  simp only [parse_eq, Text.byteLength_eq_utf8ByteSize, String.ofList_toList]

theorem parse_part_spread (source : String) {s : Tree} (hs : s.Part (parse source).tree) :
    s.Delimited ∧ s.Spread ∧ (s ≠ (parse source).tree → s.Hulled) := by
  obtain ⟨hordered, -, hinside⟩ := (parse_lossless source).2.1.ordered
  refine part_spread _ hordered (fun t ht => ?_) hs
  rw [parse_length]
  exact (hinside t ht).2

end Query

end JsonPath
