import JsonPath.Proofs.Syntax.Extents
import JsonPath.Proofs.Syntax.Numbering
import JsonPath.Syntax.Position
import Mathlib.Data.List.Basic

/-!
Looking up a position finds what a search of the whole query finds. The way down the tree is the
right one because the ranges of its elements are nested, and those of the children of an element
stand one after the other.
-/

namespace JsonPath

/-- The position is at the start of the range or inside it. -/
def Range.holds (r : Range) (position : Nat) : Bool := r.start ≤ position && position < r.stop

/-- Where a token stands, with what was skipped before it. -/
def Token.extent (t : Token) : Range :=
  ⟨t.range.start - Text.byteLength t.skipped.toList, t.range.stop⟩

theorem Range.surrounds_iff {r : Range} {position : Nat} :
    r.surrounds position = true ↔ r.start < position ∧ position < r.stop := by
  rw [surrounds, Bool.and_eq_true, decide_eq_true_eq, decide_eq_true_eq]

theorem Range.touches_iff {r : Range} {position : Nat} :
    r.touches position = true ↔ r.start ≤ position ∧ position ≤ r.stop := by
  rw [touches, Bool.and_eq_true, decide_eq_true_eq, decide_eq_true_eq]

theorem Range.Spans.start_eq {start stop : Nat} {chars part : List Char}
    (h : (⟨start, stop⟩ : Range).Spans chars part) : stop - Text.byteLength part = start := by
  obtain ⟨before, after, -, hstart, hstop⟩ := h
  dsimp only at hstart hstop
  rw [Text.byteLength_append] at hstop
  omega

namespace Token.Tile

variable {chars : List Char} {start stop position : Nat} {tokens : List Token}

theorem holds_eq_false (h : Token.Tile chars start tokens stop) (hposition : position < start) :
    ∀ t ∈ tokens, t.extent.holds position = false := by
  induction h with
  | nil => exact List.forall_mem_nil _
  | @cons start stop t rest skipped text _ _ ih =>
    have hskipped := skipped.forward
    have htext := text.forward
    have hstart : t.extent.start = start := skipped.start_eq
    dsimp only at hskipped
    refine List.forall_mem_cons.mpr ⟨?_, ih (by omega)⟩
    rw [Range.holds, hstart]
    simp only [Bool.and_eq_false_iff, decide_eq_false_iff_not]
    omega

/-- Of tokens that tile a text, the first that ends after a position is the only one that holds
it, together with what was skipped before. -/
theorem filter_holds (h : Token.Tile chars start tokens stop) (hposition : start ≤ position) :
    tokens.filter (·.extent.holds position) =
      (tokens.find? fun t => position < t.range.stop).toList := by
  induction h with
  | nil => rfl
  | @cons start stop t rest skipped _ _ others ih =>
    have hstart : t.extent.start = start := skipped.start_eq
    have hholds : t.extent.holds position = decide (position < t.range.stop) := by
      rw [Range.holds, hstart, decide_eq_true hposition, Bool.true_and]
      rfl
    rw [List.filter_cons, hholds, List.find?_cons]
    cases hlt : decide (position < t.range.stop) with
    | true =>
      have hrest := others.holds_eq_false (of_decide_eq_true hlt)
      simp [List.filter_eq_nil_iff.mpr fun t ht => Bool.eq_false_iff.mp (hrest t ht)]
    | false => exact ih (Nat.le_of_not_lt (of_decide_eq_false hlt))

end Token.Tile

namespace Tree

variable {position : Nat}

mutual

/-- Where the elements of a tree span tokens in order, the way down leads to the first token that
ends after the position. -/
theorem atPosition_spanned : (t : Tree) → t.Each Spanned → Token.Ordered t.tokens →
    position < t.range.stop →
    (t.tokens.find? fun x => position < x.range.stop).map .token = some (t.atPosition position)
  | node e cs, hspanned, hordered, hstop => by
    obtain ⟨hself, hchildren⟩ := each_node.mp hspanned
    rw [atPosition, atPositionAmong_spanned cs hchildren (hordered.sublist hself.below)]
    cases he : e.asToken? with
    | some x =>
      cases e with
      | token y =>
        -- What stands below a token can only repeat it.
        have hbelow : (tokensAll cs).Sublist [y] := hself.below
        have hy : position < y.range.stop := hstop
        rcases List.sublist_singleton.mp hbelow with hnil | hone
        · rw [hnil, tokens]
          simp [hy]
        · rw [hone, tokens]
          simp [hy]
      | query | path | segment | selector | expression => cases he
    | none =>
      have htokens : (node e cs).tokens = tokensAll cs := tokens_composite he
      have hlast : position < e.lastToken.range.stop := (hself.reaches hordered).2.1 ▸ hstop
      have hmem : e.lastToken ∈ tokensAll cs := htokens ▸ hself.delimited.last_mem
      have hsome : ((tokensAll cs).find? fun x => decide (position < x.range.stop)).isSome :=
        List.find?_isSome.mpr ⟨e.lastToken, hmem, decide_eq_true hlast⟩
      obtain ⟨x, hx⟩ := Option.isSome_iff_exists.mp hsome
      rw [htokens, hx]
      rfl

theorem atPositionAmong_spanned : (ts : List Tree) → (∀ c ∈ ts, c.Each Spanned) →
    Token.Ordered (tokensAll ts) →
    atPositionAmong position ts =
      ((tokensAll ts).find? fun x => position < x.range.stop).map .token
  | [], _, _ => rfl
  | c :: rest, hspanned, hordered => by
    obtain ⟨hc, hrest⟩ := List.forall_mem_cons.mp hspanned
    rw [tokensAll_cons] at hordered ⊢
    have hfirst := hordered.sublist (List.sublist_append_left _ _)
    have hothers := hordered.sublist (List.sublist_append_right _ _)
    rw [atPositionAmong, List.find?_append, Option.map_or]
    split
    · rename_i hstop
      rw [atPosition_spanned c hc hfirst hstop, Option.some_or]
    · rename_i hstop
      have hnone : (c.tokens.find? fun x => decide (position < x.range.stop)) = none := by
        refine List.find?_eq_none.mpr fun x hx => ?_
        have hends := (hc.self.reaches hfirst).2.1
        have hbounds := hc.self.delimited.bounds hfirst hx
        simp only [decide_eq_true_eq]
        omega
      rw [hnone, Option.map_none, Option.none_or]
      exact atPositionAmong_spanned rest hrest hothers

end

theorem surrounding?_eq_none {t : Tree} :
    t.surrounding? position = none ↔ t.range.surrounds position = false := by
  obtain ⟨e, cs⟩ := t
  change _ ↔ e.range.surrounds position = false
  rw [surrounding?, ite_eq_right_iff, Bool.eq_false_iff]
  exact ⟨fun h htrue => (nomatch h htrue), fun h htrue => absurd htrue h⟩

/-- The way down leads through the first child that has the position inside. -/
theorem surroundingAmong_eq (position : Nat) (ts : List Tree) :
    surroundingAmong position ts =
      (ts.find? (·.range.surrounds position)).bind (surrounding? position) := by
  induction ts with
  | nil => rfl
  | cons c rest ih =>
    rw [surroundingAmong, List.find?_cons, ih]
    cases hc : c.range.surrounds position with
    | true =>
      cases hfound : c.surrounding? position with
      | none => rw [surrounding?_eq_none.mp hfound] at hc; cases hc
      | some e => exact hfound.symm
    | false => rw [surrounding?_eq_none.mpr hc]

/-- A part of a tree with nested ranges lies inside the tree. -/
theorem Part.inside {s t : Tree} (h : s.Part t) (ht : t.Each Spread) :
    t.range.start ≤ s.range.start ∧ s.range.stop ≤ t.range.stop := by
  induction h with
  | self => exact ⟨Nat.le_refl _, Nat.le_refl _⟩
  | child _ mem ih =>
    obtain ⟨hself, hchildren⟩ := each_node.mp ht
    have hchild := hself.inside _ mem
    have hpart := ih (hchildren _ mem)
    omega

/-- What has a position inside has it inside of whatever it is part of. -/
theorem Part.surrounds {s t : Tree} (h : s.Part t) (ht : t.Each Spread)
    (hs : s.range.surrounds position) : t.range.surrounds position := by
  have hinside := h.inside ht
  rw [Range.surrounds_iff] at hs ⊢
  omega

/-- Of trees that stand one after the other only the one that is found has the position inside. -/
theorem surrounding_unique {cs : List Tree} {c d : Tree}
    (hapart : cs.Pairwise fun a b => a.range.stop ≤ b.range.start)
    (hfound : cs.find? (·.range.surrounds position) = some c) (hd : d ∈ cs)
    (hsurrounds : d.range.surrounds position) : d = c := by
  obtain ⟨hc, before, after, rfl, hbefore⟩ := List.find?_eq_some_iff_append.mp hfound
  rcases List.mem_append.mp hd with hd | hd
  · have := hbefore d hd
    simp [hsurrounds] at this
  · rcases List.mem_cons.mp hd with rfl | hd
    · rfl
    · have hcd := List.rel_of_pairwise_cons (List.pairwise_append.mp hapart).2.1 hd
      rw [Range.surrounds_iff] at hc hsurrounds
      omega

/-- Where ranges are nested and those of siblings stand one after the other, the element that is
found is part of all that have the position inside. -/
theorem surrounding_innermost : (t : Tree) → t.Each Spread → t.range.surrounds position →
    ∃ s : Tree, s.Part t ∧ t.surrounding? position = some s.element ∧
      s.range.surrounds position ∧
      ∀ r : Tree, r.Part t → r.range.surrounds position → s.Part r
  | node e cs, hspread, hsurrounds => by
    obtain ⟨hself, hchildren⟩ := each_node.mp hspread
    have hfound : (node e cs).surrounding? position =
        some ((surroundingAmong position cs).getD e) := if_pos hsurrounds
    rw [hfound, surroundingAmong_eq]
    cases hc : cs.find? (·.range.surrounds position) with
    | none =>
      refine ⟨node e cs, .self, rfl, hsurrounds, fun r hr hrs => ?_⟩
      cases hr with
      | self => exact .self
      | @child c _ _ inner mem =>
        exact absurd (inner.surrounds (hchildren c mem) hrs) (List.find?_eq_none.mp hc c mem)
    | some c =>
      have hmem : c ∈ cs := List.mem_of_find?_eq_some hc
      have hinner := List.find?_some (p := fun c : Tree => c.range.surrounds position) hc
      obtain ⟨s, hpart, hs, hss, hall⟩ := surrounding_innermost c (hchildren c hmem) hinner
      refine ⟨s, .child hpart hmem, ?_, hss, fun r hr hrs => ?_⟩
      · rw [Option.bind_some, hs, Option.getD_some]
      · cases hr with
        | self => exact .child hpart hmem
        | @child d _ _ inner mem =>
          have hd := inner.surrounds (hchildren d mem) hrs
          obtain rfl := surrounding_unique hself.apart hc mem hd
          exact hall r inner hrs

mutual

theorem id_mem_of_mem_tokens {x : Token} : (t : Tree) → x ∈ t.tokens → x.id ∈ t.ids
  | node e cs, h => by
    rw [ids_node]
    cases e with
    | token y =>
      rw [tokens, List.mem_singleton] at h
      exact h ▸ List.mem_cons_self
    | query | path | segment | selector | expression =>
      rw [tokens_composite rfl] at h
      exact List.mem_cons_of_mem _ (id_mem_of_mem_tokensAll cs h)

theorem id_mem_of_mem_tokensAll {x : Token} : (ts : List Tree) → x ∈ tokensAll ts →
    x.id ∈ ts.flatMap ids
  | [], h => by cases h
  | c :: rest, h => by
    rw [tokensAll_cons, List.mem_append] at h
    rw [List.flatMap_cons, List.mem_append]
    exact h.imp (id_mem_of_mem_tokens c) (id_mem_of_mem_tokensAll rest)

end

/-- Below a token there is nothing, if all numbers are different. -/
theorem childless {x : Token} {cs : List Tree} (hspanned : (node (.token x) cs).Each Spanned)
    (hids : (node (.token x) cs).ids.Nodup) : cs = [] := by
  obtain ⟨hself, hchildren⟩ := each_node.mp hspanned
  cases cs with
  | nil => rfl
  | cons c rest =>
    have hc : c ∈ c :: rest := List.mem_cons_self
    have hfirst := (hchildren c hc).self.delimited.first_mem
    have hsame := hself.below.subset ((child_tokens_sublist hc).subset hfirst)
    rw [tokens, List.mem_singleton] at hsame
    have hmem := id_mem_of_mem_tokens c hfirst
    rw [hsame] at hmem
    rw [ids_node] at hids
    exact absurd (List.mem_flatMap.mpr ⟨c, hc, hmem⟩) (List.nodup_cons.mp hids).1

/-- Tokens that touch a position are only where an element touches it that holds them. -/
theorem filter_touches_eq_nil {e : Element} {cs : List Tree}
    (hordered : Token.Ordered (tokensAll cs))
    (hinside : ∀ x ∈ tokensAll cs, e.range.start ≤ x.range.start ∧ x.range.stop ≤ e.range.stop)
    (hnot : e.range.touches position = false) :
    (tokensAll cs).filter (·.range.touches position) = [] := by
  refine List.filter_eq_nil_iff.mpr fun x hx htouches => ?_
  have hforward := hordered.forward x hx
  have hx := hinside x hx
  rw [Range.touches_iff] at htouches
  have htrue : e.range.touches position = true := Range.touches_iff.mpr (by omega)
  rw [hnot] at htrue
  cases htrue

/-- The token that an element is, if it touches a position. -/
def touched? (position : Nat) (entry : Nat × Element) : Option Token :=
  match entry.2.asToken? with
  | some token => if token.range.touches position then some token else none
  | none => none

theorem touched?_composite {depth : Nat} {e : Element} (he : e.asToken? = none) :
    touched? position (depth, e) = none := by
  rw [touched?, he]

theorem composite_touched {depth : Nat} {e : Element} {cs : List Tree} (he : e.asToken? = none)
    (hordered : Token.Ordered (tokensAll cs))
    (hinside : ∀ x ∈ tokensAll cs, e.range.start ≤ x.range.start ∧ x.range.stop ≤ e.range.stop)
    (hchildren : (visitAll (fun e => !e.range.touches position) (depth + 1) cs).filterMap
      (touched? position) = (tokensAll cs).filter (·.range.touches position)) :
    ((node e cs).visit (fun e => !e.range.touches position) depth).filterMap (touched? position) =
      (tokensAll cs).filter (·.range.touches position) := by
  rw [visit, List.filterMap_cons_none (touched?_composite he)]
  cases htouches : e.range.touches position with
  | true => exact hchildren
  | false => exact (filter_touches_eq_nil hordered hinside htouches).symm

mutual

/-- To leave out what is below the elements that do not touch a position leaves out no token that
does. -/
theorem visit_touched : (t : Tree) → (depth : Nat) → t.Each Spanned → Token.Ordered t.tokens →
    t.ids.Nodup →
    (t.visit (fun e => !e.range.touches position) depth).filterMap (touched? position) =
      t.tokens.filter (·.range.touches position)
  | node e cs, depth, hspanned, hordered, hids => by
    obtain ⟨hself, hchildren⟩ := each_node.mp hspanned
    cases he : e.asToken? with
    | some x =>
      cases e with
      | token y =>
        obtain rfl := childless hspanned hids
        have hvisit : (node (.token y) []).visit (fun e => !e.range.touches position) depth =
            [(depth, .token y)] := by
          rw [visit, visitAll, ite_self]
        have htouched : touched? position (depth, .token y) =
            if y.range.touches position then some y else none := rfl
        rw [hvisit, tokens, List.filterMap_cons, List.filter_cons, htouched]
        cases y.range.touches position <;> rfl
      | query | path | segment | selector | expression => cases he
    | none =>
      have htokens : (node e cs).tokens = tokensAll cs := tokens_composite he
      rw [htokens] at hordered ⊢
      refine composite_touched he hordered (fun x hx => ?_) ?_
      · obtain ⟨hstart, hstop, -⟩ := hself.reaches (htokens ▸ hordered)
        have hbounds := hself.delimited.bounds (htokens ▸ hordered) (htokens ▸ hx)
        exact ⟨hstart ▸ hbounds.1, hstop ▸ hbounds.2⟩
      · rw [ids_node] at hids
        exact visitAll_touched cs (depth + 1) hchildren hordered (List.nodup_cons.mp hids).2

theorem visitAll_touched : (ts : List Tree) → (depth : Nat) → (∀ c ∈ ts, c.Each Spanned) →
    Token.Ordered (tokensAll ts) → (ts.flatMap ids).Nodup →
    (visitAll (fun e => !e.range.touches position) depth ts).filterMap (touched? position) =
      (tokensAll ts).filter (·.range.touches position)
  | [], _, _, _, _ => rfl
  | c :: rest, depth, hspanned, hordered, hids => by
    obtain ⟨hc, hrest⟩ := List.forall_mem_cons.mp hspanned
    rw [tokensAll_cons] at hordered ⊢
    rw [List.flatMap_cons] at hids
    rw [visitAll, List.filterMap_append, List.filter_append,
      visit_touched c depth hc (hordered.sublist (List.sublist_append_left _ _))
        (List.nodup_append.mp hids).1,
      visitAll_touched rest depth hrest (hordered.sublist (List.sublist_append_right _ _))
        (List.nodup_append.mp hids).2.1]

end

end Tree

namespace Query

/-- What looking up a position in a source finds is what a search through all tokens, or through
all elements, of the query finds. -/
structure ExactLookup (source : String) (position : Nat) : Prop where
  /-- Inside the source it is the first token that ends after the position, the only one whose
  text, with what was skipped before it, holds the position. -/
  inside : position < source.utf8ByteSize → ∃ t,
    (parse source).tree.tokens.find? (fun x => position < x.range.stop) = some t ∧
      (parse source).tree.tokens.filter (·.extent.holds position) = [t] ∧
      (parse source).tree.atPosition position = .token t
  beyond : source.utf8ByteSize ≤ position →
    (parse source).tree.atPosition position = .query (parse source)
  nowhere : (parse source).tree.surrounding? position = none ↔
    ∀ s : Tree, s.Part (parse source).tree → s.range.surrounds position = false
  /-- Of all elements that have the position strictly inside, the one that is found is innermost:
  it is part of each. -/
  innermost : ∀ e, (parse source).tree.surrounding? position = some e →
    ∃ s : Tree, s.Part (parse source).tree ∧ s.element = e ∧ s.range.surrounds position ∧
      ∀ r : Tree, r.Part (parse source).tree → r.range.surrounds position → s.Part r
  touching : (parse source).tree.touching position =
    (parse source).tree.tokens.filter fun t => t.range.start ≤ position && position ≤ t.range.stop

theorem atPosition_eq (q : Query) (ht : Token.Ordered q.tree.tokens) (position : Nat) :
    q.tree.atPosition position =
      ((q.tree.tokens.find? fun x => position < x.range.stop).map .token).getD (.query q) := by
  rw [tree_tokens] at ht ⊢
  rw [← Tree.atPositionAmong_spanned _ q.spanned_children ht]
  rfl

theorem touching_eq (q : Query) (ht : Token.Ordered q.tree.tokens)
    (hlength : ∀ t ∈ q.tree.tokens, t.range.stop ≤ q.length) (hids : q.tree.ids.Nodup)
    (position : Nat) :
    q.tree.touching position = q.tree.tokens.filter (·.range.touches position) := by
  rw [tree_tokens] at ht hlength ⊢
  have hbelow : (q.tree.children.flatMap Tree.ids).Nodup := by
    rw [Query.tree, Tree.ids_node] at hids
    exact (List.nodup_cons.mp hids).2
  exact Tree.composite_touched (e := .query q) rfl ht (fun x hx => ⟨Nat.zero_le _, hlength x hx⟩)
    (Tree.visitAll_touched q.tree.children 1 q.spanned_children ht hbelow)

theorem parse_exactLookup (source : String) (position : Nat) : ExactLookup source position := by
  obtain ⟨-, htile, hlast, -, hending⟩ := parse_lossless source
  obtain ⟨hordered, -, hinside⟩ := htile.ordered
  have hspread : (parse source).tree.Each Tree.Spread :=
    fun _ hs => (parse_part_spread source hs).2.1
  have hat := (parse source).atPosition_eq hordered position
  have hlength (t : Token) (ht : t ∈ (parse source).tree.tokens) :
      t.range.stop ≤ (parse source).length := by
    rw [parse_length]
    exact (hinside t ht).2
  refine ⟨fun hposition => ?_, fun hposition => ?_, ?_, fun e he => ?_, ?_⟩
  · have hstop : position < (parse source).ending.range.stop := by rwa [hending]
    have hsome : ((parse source).tree.tokens.find? fun x =>
        decide (position < x.range.stop)).isSome :=
      List.find?_isSome.mpr ⟨_, List.mem_of_getLast? hlast, decide_eq_true hstop⟩
    obtain ⟨t, ht⟩ := Option.isSome_iff_exists.mp hsome
    refine ⟨t, ht, ?_, ?_⟩
    · rw [htile.filter_holds (Nat.zero_le _), ht]
      rfl
    · rw [hat, ht]
      rfl
  · have hnone : ((parse source).tree.tokens.find? fun x =>
        decide (position < x.range.stop)) = none := by
      refine List.find?_eq_none.mpr fun t ht => ?_
      have := (hinside t ht).2
      rw [decide_eq_true_eq]
      omega
    rw [hat, hnone]
    rfl
  · rw [Tree.surrounding?_eq_none]
    refine ⟨fun hroot s hs => ?_, fun h => h _ .self⟩
    rw [Bool.eq_false_iff] at hroot ⊢
    exact fun hsurrounds => hroot (hs.surrounds hspread hsurrounds)
  · have hroot : (parse source).tree.range.surrounds position := by
      by_contra hnot
      rw [Tree.surrounding?_eq_none.mpr (Bool.eq_false_iff.mpr hnot)] at he
      cases he
    obtain ⟨s, hpart, hs, hsurrounds, hall⟩ := Tree.surrounding_innermost _ hspread hroot
    rw [hs, Option.some_inj] at he
    exact ⟨s, hpart, he, hsurrounds, hall⟩
  · exact (parse source).touching_eq hordered hlength (parse_ids_nodup source) position

end Query

end JsonPath
