import JsonPath.Proofs.Syntax.Elements
import JsonPath.Proofs.Syntax.Lossless
import JsonPath.Proofs.Syntax.Soundness

/-!
Nothing of a query is dropped silently. What a run passes over without making a token of it is
blank or in the range of a fault, a token without text is made only after a fault, and where there
is no fault nothing is missing.
-/

namespace JsonPath

/-- Every character of a text that is not blank stands in the range of a fault. The text ends at
the position `stop`. -/
def Text.Reported (faults : List (Located SyntaxFault)) (text : List Char) (stop : Nat) : Prop :=
  ∀ before x after, text = before ++ x :: after → Cursor.isBlank x = false →
    ∃ fault ∈ faults, ∃ position, position + byteLength (x :: after) = stop ∧
      fault.range.start ≤ position ∧ position + byteLength [x] ≤ fault.range.stop

namespace Text.Reported

variable {faults more : List (Located SyntaxFault)} {a b : List Char} {stop : Nat}

theorem nil (faults : List (Located SyntaxFault)) (stop : Nat) : Reported faults [] stop := by
  intro before x after htext
  simp at htext

theorem mono (h : Reported faults a stop) (hsubset : faults ⊆ more) : Reported more a stop := by
  intro before x after htext hx
  obtain ⟨fault, hfault, hrange⟩ := h before x after htext hx
  exact ⟨fault, hsubset hfault, hrange⟩

theorem append (ha : Reported faults a stop) (hb : Reported faults b (stop + byteLength b)) :
    Reported faults (a ++ b) (stop + byteLength b) := by
  intro before x after htext hx
  rcases List.append_eq_append_iff.mp htext with ⟨between, rfl, rfl⟩ | ⟨between, rfl, htail⟩
  · exact hb between x after rfl hx
  · cases between with
    | nil => exact hb [] x after htail.symm hx
    | cons y between =>
      obtain ⟨rfl, rfl⟩ := List.cons_eq_cons.mp htail
      obtain ⟨fault, hfault, position, hposition, hrange⟩ := ha before x between rfl hx
      refine ⟨fault, hfault, position, ?_, hrange⟩
      change position + byteLength (x :: between ++ b) = _
      rw [byteLength_append, ← Nat.add_assoc, hposition]

/-- Blanks need no fault. -/
theorem blanks (h : ∀ x ∈ a, Cursor.isBlank x = true) : Reported faults a stop := by
  rintro before x after rfl hx
  rw [h x (by simp)] at hx
  cases hx

/-- A fault at a text accounts for all of it. -/
theorem garbage {fault : SyntaxFault} {start : Nat}
    (h : ⟨fault, ⟨start, start + byteLength a⟩⟩ ∈ faults) :
    Reported faults a (start + byteLength a) := by
  rintro before x after rfl -
  refine ⟨_, h, start + byteLength before, ?_, Nat.le_add_right _ _, ?_⟩
  · rw [byteLength_append, Nat.add_assoc]
  · simp [Nat.add_assoc]

end Text.Reported

namespace Cursor

/-- What has been passed over before the cursor is blank or reported. -/
def Reported (c : Cursor) : Prop := Text.Reported c.faults c.skipped c.offset

theorem Reported.pass {c : Cursor} (h : c.Reported) {count : Nat}
    (hnext : Text.Reported c.faults (c.rest.take count)
      (c.offset + Text.byteLength (c.rest.take count))) : (c.pass count).Reported :=
  h.append hnext

theorem Reported.note {c : Cursor} (h : c.Reported) (fault : SyntaxFault) (range : Range) :
    (c.note fault range).Reported :=
  h.mono (List.subset_cons_self _ _)

/-- Whatever a run skips before its tokens, and leaves skipped at its end, is reported. -/
theorem Run.reported {a b : Cursor} {entries : List Entry} (h : a.Run entries b)
    (ha : a.Reported) : b.Reported ∧ ∀ t ∈ Entry.tokens entries,
      Text.Reported b.faults t.skipped.toList t.range.start := by
  induction h with
  | stay => exact ⟨ha, by simp⟩
  | blanks c =>
    refine ⟨ha.pass (.blanks fun x hx => ?_), by simp⟩
    rw [Cursor.blanks, Text.take_takeWhile_length] at hx
    exact List.all_eq_true.mp List.all_takeWhile x hx
  | garbage c fault count =>
    exact ⟨(ha.note fault (c.ahead count)).pass (.garbage List.mem_cons_self), by simp⟩
  | report c fault range => exact ⟨ha.note fault range, by simp⟩
  | element => exact ⟨ha, by simp⟩
  | token c kind count =>
    refine ⟨.nil _ _, fun t ht => ?_⟩
    obtain rfl : t = _ := by simpa using ht
    simpa [Parser.take, ahead, pass, Reported] using ha
  | missing c kind reported =>
    refine ⟨.nil _ _, fun t ht => ?_⟩
    obtain rfl : t = _ := by simpa using ht
    simpa [Parser.missing_apply, Parser.take, ahead, pass, Reported] using ha
  | append left right ihl ihr =>
    obtain ⟨hb, hfirst⟩ := ihl ha
    obtain ⟨hc, hsecond⟩ := ihr hb
    refine ⟨hc, fun t ht => ?_⟩
    rw [Entry.tokens_append, List.mem_append] at ht
    rcases ht with ht | ht
    · exact (hfirst t ht).mono right.faults_suffix.subset
    · exact hsecond t ht

/-- A run that hands out a token without text has reported something. -/
theorem Run.faults_ne_nil {a b : Cursor} {entries : List Entry} (h : a.Run entries b) {t : Token}
    (ht : t ∈ Entry.tokens entries) (hmissing : t.missing = true) : b.faults ≠ [] := by
  induction h with
  | stay | blanks | garbage | report | element => simp at ht
  | token c kind count =>
    obtain rfl : t = _ := by simpa using ht
    cases hmissing
  | missing c kind reported => exact reported
  | append left right ihl ihr =>
    rw [Entry.tokens_append, List.mem_append] at ht
    rcases ht with ht | ht
    · exact fun hnil => ihl ht (List.suffix_nil.mp (hnil ▸ right.faults_suffix))
    · exact ihr ht

end Cursor

/-- Nothing is missing in the element, whatever its tokens are. -/
def Element.WellFormed : Element → Prop
  | .query q => q.path.WellFormed
  | .path p => p.WellFormed
  | .segment s => s.WellFormed
  | .selector s => s.WellFormed
  | .expression e => e.WellFormed
  | .token _ => True

/-- All elements of the tree are well formed. -/
abbrev Tree.WellFormed (t : Tree) : Prop := t.All Element.WellFormed

theorem Token.wellFormed_leaf (t : Token) : (Tree.leaf t).WellFormed := .leaf trivial

theorem Bound.wellFormed_leaf? (b : Option Bound) : ∀ c ∈ Bound.leaf? b, c.WellFormed :=
  .leaf? fun _ => trivial

theorem StepPart.wellFormed_leaves (part : Option StepPart) :
    ∀ c ∈ StepPart.leaves part, c.WellFormed := by
  cases part with
  | none => exact List.forall_mem_nil _
  | some part =>
    exact List.forall_mem_cons.mpr ⟨part.colon.wellFormed_leaf, Bound.wellFormed_leaf? part.bound⟩

mutual

theorem Path.parts_wellFormed : (p : Path) → p.WellFormed → ∀ c ∈ p.parts, c.WellFormed
  | .root _ identifier, _ => List.forall_mem_singleton.mpr identifier.wellFormed_leaf
  | .step before segment, ⟨hbefore, hsegment⟩ =>
    List.forall_mem_append.mpr ⟨before.parts_wellFormed hbefore,
      List.forall_mem_singleton.mpr (segment.tree_wellFormed hsegment)⟩

theorem Segment.tree_wellFormed : (s : Segment) → s.WellFormed → s.tree.WellFormed
  | .shorthand _ dots selector, h =>
    .node h (List.forall_mem_cons.mpr
      ⟨dots.wellFormed_leaf, List.forall_mem_singleton.mpr (selector.tree_wellFormed h)⟩)
  | .bracketed _ _ opening selectors closing, h =>
    .node h (List.forall_mem_append.mpr ⟨List.forall_mem_append.mpr
      ⟨.leaf? fun _ => trivial, List.forall_mem_cons.mpr
        ⟨opening.wellFormed_leaf, selectors.trees_wellFormed h⟩⟩,
      List.forall_mem_singleton.mpr closing.wellFormed_leaf⟩)

theorem Selectors.trees_wellFormed : (ss : Selectors) → ss.WellFormed →
    ∀ c ∈ ss.trees, c.WellFormed
  | .last selector, h => List.forall_mem_singleton.mpr (selector.tree_wellFormed h)
  | .more selector comma rest, ⟨hselector, hrest⟩ =>
    List.forall_mem_cons.mpr ⟨selector.tree_wellFormed hselector, List.forall_mem_cons.mpr
      ⟨comma.wellFormed_leaf, rest.trees_wellFormed hrest⟩⟩

theorem Selector.tree_wellFormed : (s : Selector) → s.WellFormed → s.tree.WellFormed
  | .name _ token _, h | .index _ token _, h | .wildcard _ token, h =>
    .node h (List.forall_mem_singleton.mpr token.wellFormed_leaf)
  | .slice _ start colon stop step, h =>
    .node h (List.forall_mem_append.mpr ⟨List.forall_mem_append.mpr
      ⟨Bound.wellFormed_leaf? start, List.forall_mem_cons.mpr
        ⟨colon.wellFormed_leaf, Bound.wellFormed_leaf? stop⟩⟩, StepPart.wellFormed_leaves step⟩)
  | .filter _ question test, h =>
    .node h (List.forall_mem_cons.mpr
      ⟨question.wellFormed_leaf, List.forall_mem_singleton.mpr (test.tree_wellFormed h)⟩)
  | .missing _ _, h => h.elim

theorem Expr.tree_wellFormed : (e : Expr) → e.WellFormed → e.tree.WellFormed
  | .or _ first operator rest, h | .and _ first operator rest, h =>
    have ⟨hfirst, hrest⟩ := h
    .node h (List.forall_mem_cons.mpr ⟨first.tree_wellFormed hfirst, List.forall_mem_cons.mpr
      ⟨operator.wellFormed_leaf, rest.trees_wellFormed hrest⟩⟩)
  | .not _ bang inner, h =>
    .node h (List.forall_mem_cons.mpr
      ⟨bang.wellFormed_leaf, List.forall_mem_singleton.mpr (inner.tree_wellFormed h)⟩)
  | .comparison _ left operator _ right, h =>
    have ⟨_, _, hleft, hright⟩ := h
    .node h (List.forall_mem_cons.mpr ⟨left.tree_wellFormed hleft, List.forall_mem_cons.mpr
      ⟨operator.wellFormed_leaf, List.forall_mem_singleton.mpr (right.tree_wellFormed hright)⟩⟩)
  | .path _ p, h => .node h (List.forall_mem_singleton.mpr (.node h (p.parts_wellFormed h)))
  | .call _ name opening arguments closing, h =>
    .node h (List.forall_mem_append.mpr
      ⟨List.forall_mem_cons.mpr ⟨name.wellFormed_leaf,
        List.forall_mem_cons.mpr ⟨opening.wellFormed_leaf, arguments.trees_wellFormed h.2⟩⟩,
      List.forall_mem_singleton.mpr closing.wellFormed_leaf⟩)
  | .literal _ token _, h => .node h (List.forall_mem_singleton.mpr token.wellFormed_leaf)
  | .parens _ opening inner closing, h =>
    .node h (List.forall_mem_cons.mpr ⟨opening.wellFormed_leaf, List.forall_mem_cons.mpr
      ⟨inner.tree_wellFormed h, List.forall_mem_singleton.mpr closing.wellFormed_leaf⟩⟩)
  | .missing _ _, h => h.elim

theorem Operands.trees_wellFormed : (os : Operands) → os.WellFormed →
    ∀ c ∈ os.trees, c.WellFormed
  | .last operand, h => List.forall_mem_singleton.mpr (operand.tree_wellFormed h)
  | .more operand separator rest, ⟨hoperand, hrest⟩ =>
    List.forall_mem_cons.mpr ⟨operand.tree_wellFormed hoperand, List.forall_mem_cons.mpr
      ⟨separator.wellFormed_leaf, rest.trees_wellFormed hrest⟩⟩

theorem Arguments.trees_wellFormed : (as : Arguments) → as.WellFormed →
    ∀ c ∈ as.trees, c.WellFormed
  | .none, _ => List.forall_mem_nil _
  | .some operands, h => operands.trees_wellFormed h

end

/-- A selector or an expression that stands for one that is missing. -/
def Element.IsPlaceholder : Element → Prop
  | .selector (.missing _ _) | .expression (.missing _ _) => True
  | _ => False

theorem Element.WellFormed.not_isPlaceholder {e : Element} (h : e.WellFormed) :
    ¬ e.IsPlaceholder := by
  intro hplaceholder
  unfold IsPlaceholder at hplaceholder
  split at hplaceholder
  · exact h
  · exact h
  · exact hplaceholder

namespace Query

/-- The run that reads a query notes its faults. -/
theorem parse_faults_run (source : String) : ∃ last : Cursor,
    (Cursor.ofChars source.toList).Run (parse source).entries last ∧
      (parse source).faults = last.faults.reverse := by
  obtain ⟨entries, hrun, hentries⟩ :=
    body_yields (filterParser_tells source) (.ofChars source.toList)
  refine ⟨(Parser.take .endOfQuery 0
    (body (filterParser source) (.ofChars source.toList)).2).2, ?_, ?_⟩
  · have hall : (parse source).entries = entries ++ [.token (Parser.take .endOfQuery 0
        (body (filterParser source) (.ofChars source.toList)).2).1] := by
      simp only [Query.entries, parse_eq, hentries]
    rw [hall]
    exact hrun.append (.token _ .endOfQuery 0)
  · simp only [parse_faults, Parser.take, Cursor.pass]

/-- Where the path is well formed, nothing in the query stands for something missing. -/
theorem not_isPlaceholder {q : Query} (h : q.path.WellFormed) :
    ∀ e ∈ q.tree.elements, ¬ e.IsPlaceholder := by
  have htree : q.tree.WellFormed :=
    .node h (List.forall_mem_cons.mpr ⟨.node h (q.path.parts_wellFormed h),
      List.forall_mem_singleton.mpr q.ending.wellFormed_leaf⟩)
  exact fun e he => (htree e he).not_isPlaceholder

/-- Nothing is dropped silently: every skipped character that is not blank stands in the range of
a fault, and where a token, a selector or an expression is missing there is a fault. -/
structure Reported (q : Query) : Prop where
  skipped : ∀ t ∈ q.tree.tokens, Text.Reported q.faults t.skipped.toList t.range.start
  missing : (∃ t ∈ q.tree.tokens, t.missing = true) → q.faults ≠ []
  placeholder : (∃ e ∈ q.tree.elements, e.IsPlaceholder) → q.faults ≠ []

variable {q : Query}

/-- A query is reported if a run notes its faults and it is well formed without them. -/
theorem Reported.of_run {chars : List Char} {last : Cursor}
    (hrun : (Cursor.ofChars chars).Run q.entries last) (hfaults : q.faults = last.faults.reverse)
    (hsound : q.faults = [] → q.path.WellFormed) : q.Reported where
  skipped := by
    rw [tokens_entries, hfaults]
    intro t ht
    exact ((hrun.reported (.nil _ _)).2 t ht).mono fun _ => List.mem_reverse.mpr
  missing := by
    rw [tokens_entries, hfaults]
    rintro ⟨t, ht, hm⟩ hnil
    exact hrun.faults_ne_nil ht hm (List.reverse_eq_nil_iff.mp hnil)
  placeholder := by
    rintro ⟨e, he, hp⟩ hnil
    exact not_isPlaceholder (hsound hnil) e he hp

/-- Without a fault nothing is missing, and only blanks are skipped. -/
theorem Reported.of_faults_eq_nil (h : q.Reported) (hnil : q.faults = []) :
    (∀ t ∈ q.tree.tokens, t.missing = false ∧ ∀ x ∈ t.skipped.toList, Cursor.isBlank x = true) ∧
      ∀ e ∈ q.tree.elements, ¬ e.IsPlaceholder := by
  refine ⟨fun t ht => ⟨?_, fun x hx => ?_⟩, fun e he hp => h.placeholder ⟨e, he, hp⟩ hnil⟩
  · exact Bool.eq_false_iff.mpr fun hm => h.missing ⟨t, ht, hm⟩ hnil
  · obtain ⟨before, after, htext⟩ := List.append_of_mem hx
    cases hblank : Cursor.isBlank x with
    | true => rfl
    | false =>
      obtain ⟨fault, hfault, -⟩ := h.skipped t ht before x after htext hblank
      rw [hnil] at hfault
      cases hfault

/-- Nothing of a source is dropped silently, and without a fault nothing of it is missing and only
blanks are skipped. -/
theorem parse_reported (source : String) :
    (parse source).Reported ∧
      ((parse source).faults = [] →
        (∀ t ∈ (parse source).tree.tokens,
          t.missing = false ∧ ∀ x ∈ t.skipped.toList, Cursor.isBlank x = true) ∧
        ∀ e ∈ (parse source).tree.elements, ¬ e.IsPlaceholder) := by
  obtain ⟨last, hrun, hfaults⟩ := parse_faults_run source
  have hsound := @parse_sound source
  generalize parse source = q at hrun hfaults hsound ⊢
  have hreported : q.Reported := .of_run hrun hfaults fun hnil => (hsound hnil).2
  exact ⟨hreported, hreported.of_faults_eq_nil⟩

end Query

end JsonPath
