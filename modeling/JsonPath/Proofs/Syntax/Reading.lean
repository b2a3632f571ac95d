import JsonPath.Proofs.Syntax.Acceptance
import JsonPath.Proofs.Syntax.Lossless
import JsonPath.Proofs.Syntax.WellFormed

/-!
What a step of the parser reads. Every step only adds to the faults, and where it adds none it
has read a text of a certain form and made something of a certain kind of it. Of the blanks that
it may pass over at either end nothing is said.
-/

namespace JsonPath

namespace Parser

open Grammar

variable {α β : Type}

theorem blanks_take (c : Cursor) : Blanks (c.rest.take c.blanks) := by
  intro x hx
  rw [Cursor.blanks, ← List.prefix_iff_eq_take.mp (List.takeWhile_prefix _)] at hx
  exact isBlank_iff.mp (List.all_eq_true.mp List.all_takeWhile x hx)

/-- Run from `c`, the parser has only added to the faults at `start`, and where it has added none
it has read a text from there on, of which something holds together with the result. -/
structure ReadsFrom (start : Cursor) (p : Parser α) (c : Cursor) (P : α → List Char → Prop) :
    Prop where
  grows : start.faults.length ≤ (p c).2.faults.length
  reads : (p c).2.faults.length = start.faults.length →
    ∃ w, start.rest = w ++ (p c).2.rest ∧ P (p c).1 w

/-- What the parser reads from the cursor at which it is run. -/
abbrev Reads (p : Parser α) (c : Cursor) (P : α → List Char → Prop) : Prop := ReadsFrom c p c P

namespace Reads

variable {p : Parser α} {f : α → Parser β} {c : Cursor} {P : α → List Char → Prop}
  {Q : β → List Char → Prop}

theorem pure {a : α} (h : P a []) : Reads (Pure.pure a) c P :=
  ⟨Nat.le_refl _, fun _ => ⟨[], rfl, h⟩⟩

theorem bind_of_eq {a : α} {d : Cursor} (heq : p c = (a, d)) (hp : Reads p c P)
    (hf : Reads (f a) d fun b v => ∀ w, P a w → Q b (w ++ v)) : Reads (p >>= f) c Q := by
  have hgrows := hp.grows
  have hreads := hp.reads
  rw [heq] at hgrows hreads
  dsimp only at hgrows hreads
  have hresult : (p >>= f) c = f a d := by rw [bind_apply, heq]
  refine ⟨?_, fun hclean => ?_⟩
  · rw [hresult]
    exact Nat.le_trans hgrows hf.grows
  · rw [hresult] at hclean ⊢
    have hmiddle := hf.grows
    obtain ⟨w, hw, hP⟩ := hreads (by omega)
    obtain ⟨v, hv, hQ⟩ := hf.reads (by omega)
    exact ⟨w ++ v, by rw [hw, hv, List.append_assoc], hQ w hP⟩

theorem bind_at (hp : Reads p c P)
    (hf : ∀ a, Reads (f a) (p c).2 fun b v => ∀ w, P a w → Q b (w ++ v)) : Reads (p >>= f) c Q :=
  bind_of_eq rfl hp (hf _)

theorem bind (hp : Reads p c P)
    (hf : ∀ a d, Reads (f a) d fun b v => ∀ w, P a w → Q b (w ++ v)) : Reads (p >>= f) c Q :=
  bind_at hp fun a => hf a _

theorem mono {P' : α → List Char → Prop} (hp : Reads p c P) (h : ∀ a w, P a w → P' a w) :
    Reads p c P' := by
  refine ⟨hp.grows, fun hclean => ?_⟩
  obtain ⟨w, hw, hP⟩ := hp.reads hclean
  exact ⟨w, hw, h _ _ hP⟩

theorem map {g : α → β} (hp : Reads p c fun a w => Q (g a) w) : Reads (g <$> p) c Q :=
  ⟨hp.grows, hp.reads⟩

theorem get {f : Cursor → Parser β} (h : Reads (f c) c Q) : Reads (MonadState.get >>= f) c Q :=
  ⟨h.grows, h.reads⟩

theorem isAt {f : Bool → Parser β} {chars : List Char} (h : Reads (f (c.isAt chars)) c Q) :
    Reads (Parser.isAt chars >>= f) c Q := ⟨h.grows, h.reads⟩

theorem peek {f : Option Char → Parser β} (h : Reads (f c.rest.head?) c Q) :
    Reads (Parser.peek >>= f) c Q := ⟨h.grows, h.reads⟩

theorem element {f : Nat → Parser β}
    (h : ∀ id, Reads (f id) { c with nextId := c.nextId + 1 } Q) : Reads (freshId >>= f) c Q :=
  ⟨(h c.nextId).grows, (h c.nextId).reads⟩

/-- After a fault nothing more is said of what is read. -/
theorem report {f : Unit → Parser β} {fault : SyntaxFault} {range : Range}
    (h : Reads (f ()) (c.note fault range) fun _ _ => True) :
    Reads (Parser.report fault range >>= f) c Q := by
  have hgrows : c.faults.length + 1 ≤
      ((Parser.report fault range >>= f) c).2.faults.length := h.grows
  exact ⟨by omega, fun hclean => by omega⟩

theorem reportFound {f : Unit → Parser β} {wanted : Wanted}
    (h : Reads (f ()) (c.note (.expected wanted c.found) (c.ahead 1)) fun _ _ => True) :
    Reads (Parser.reportFound wanted >>= f) c Q := by
  have hreport := report (Q := Q) h
  exact ⟨hreport.grows, hreport.reads⟩

theorem passBlanks {f : Range → Parser β}
    (h : Reads (f (c.ahead c.blanks)) (c.pass c.blanks)
      fun b v => Q b (c.rest.take c.blanks ++ v)) :
    Reads (Parser.skipBlanks >>= f) c Q := by
  refine ⟨h.grows, fun hclean => ?_⟩
  obtain ⟨v, hv, hQ⟩ := h.reads hclean
  refine ⟨c.rest.take c.blanks ++ v, ?_, hQ⟩
  rw [List.append_assoc]
  exact (List.take_append_drop c.blanks c.rest).symm.trans (congrArg _ hv)

theorem skipBlanks {f : Range → Parser β}
    (h : Reads (f (c.ahead c.blanks)) (c.pass c.blanks) fun b v => ∀ w, Blanks w → Q b (w ++ v)) :
    Reads (Parser.skipBlanks >>= f) c Q :=
  passBlanks (h.mono fun _ _ hQ => hQ _ (blanks_take c))

theorem take {f : Token → Parser β} {kind : TokenKind} {count : Nat}
    (h : Reads (f (Parser.take kind count c).1) (Parser.take kind count c).2
      fun b v => Q b (c.rest.take count ++ v)) :
    Reads (Parser.take kind count >>= f) c Q := by
  refine ⟨h.grows, fun hclean => ?_⟩
  obtain ⟨v, hv, hQ⟩ := h.reads hclean
  refine ⟨c.rest.take count ++ v, ?_, hQ⟩
  rw [List.append_assoc]
  exact (List.take_append_drop count c.rest).symm.trans (congrArg _ hv)

/-- As `take`, where the characters are known to come next. -/
theorem takeNext {f : Token → Parser β} {kind : TokenKind} {count : Nat} {chars : List Char}
    (hchars : c.isAt chars = true) (hcount : count = chars.length)
    (h : Reads (f (Parser.take kind count c).1) (Parser.take kind count c).2
      fun b v => Q b (chars ++ v)) :
    Reads (Parser.take kind count >>= f) c Q := by
  refine take (h.mono fun b v hb => ?_)
  rwa [hcount, ← List.prefix_iff_eq_take.mp (List.isPrefixOf_iff_prefix.mp hchars)]

/-- Where the cursor moves, some text is read. -/
theorem progress (h : Reads p c P) (hlt : (p c).2.rest.length < c.rest.length) :
    Reads p c fun a w => P a w ∧ w ≠ [] := by
  refine ⟨h.grows, fun hclean => ?_⟩
  obtain ⟨w, hw, hP⟩ := h.reads hclean
  refine ⟨w, hw, hP, ?_⟩
  rintro rfl
  rw [hw, List.nil_append] at hlt
  exact Nat.lt_irrefl _ hlt

/-- What holds of every result and every text is that the faults grow. -/
theorem any (h : Reads p c P) : Reads p c fun _ _ => True := h.mono fun _ _ _ => trivial

theorem pass {q : Parser β} {count : Nat} (h : Reads q (c.pass count) fun _ _ => True) :
    Reads (do modify (·.pass count); q) c fun _ _ => True := by
  refine ⟨h.grows, fun hclean => ?_⟩
  obtain ⟨w, hw, -⟩ := h.reads hclean
  refine ⟨c.rest.take count ++ w, ?_, trivial⟩
  rw [List.append_assoc]
  exact (List.take_append_drop count c.rest).symm.trans (congrArg _ hw)

/-- Looking beyond the blanks that come next. -/
theorem lookAhead {f : Cursor → Range → Parser β}
    (h : ReadsFrom c (f c (c.ahead c.blanks)) (c.pass c.blanks) Q) :
    Reads (do let d ← MonadState.get; let range ← Parser.skipBlanks; f d range) c Q :=
  ⟨h.grows, h.reads⟩

end Reads

namespace ReadsFrom

variable {p : Parser α} {start c : Cursor} {P : α → List Char → Prop}

theorem isAt {f : Bool → Parser α} {chars : List Char}
    (h : ReadsFrom start (f (c.isAt chars)) c P) :
    ReadsFrom start (Parser.isAt chars >>= f) c P := ⟨h.grows, h.reads⟩

theorem goOn (h : Reads p (start.pass start.blanks) fun a v => ∀ w, Blanks w → P a (w ++ v)) :
    ReadsFrom start p (start.pass start.blanks) P := by
  refine ⟨h.grows, fun hclean => ?_⟩
  obtain ⟨v, hv, hP⟩ := h.reads hclean
  refine ⟨start.rest.take start.blanks ++ v, ?_, hP _ (blanks_take start)⟩
  rw [List.append_assoc]
  exact (List.take_append_drop start.blanks start.rest).symm.trans (congrArg _ hv)

theorem goBack {f : PUnit → Parser α} (h : Reads (f ⟨⟩) start P) :
    ReadsFrom start (set start >>= f) c P := ⟨h.grows, h.reads⟩

end ReadsFrom

theorem isAt_of_head {c : Cursor} {x : Char} (h : c.rest.head? = some x) : c.isAt [x] = true := by
  obtain ⟨rest, hrest⟩ := List.head?_eq_some_iff.mp h
  simp [Cursor.isAt, hrest]

theorem isAt_of_rest {c d : Cursor} {chars : List Char} (h : d.isAt chars = true)
    (hrest : c.rest = d.rest) : c.isAt chars = true := by
  rwa [Cursor.isAt, hrest]

/-- After blanks there are no more blanks. -/
theorem pass_blanks_twice (c : Cursor) :
    ((c.pass c.blanks).pass (c.pass c.blanks).blanks).rest = (c.pass c.blanks).rest := by
  rw [pass_blanks, pass_blanks, trim_trim]

theorem take_isEmpty {c : Cursor} {count : Nat} (h : (c.ahead count).isEmpty = true) :
    c.rest.take count = [] := by
  have hlength : Text.byteLength (c.rest.take count) = 0 := by
    simpa [Cursor.ahead, Range.isEmpty] using h
  cases htake : c.rest.take count with
  | nil => rfl
  | cons x rest =>
    have hx := x.utf8Size_pos
    rw [htake, Text.byteLength_cons] at hlength
    omega

theorem rejectBlanks_reads (fault : SyntaxFault) (c : Cursor) :
    Reads (rejectBlanks fault) c fun _ w => w = [] := by
  by_cases hempty : (c.ahead c.blanks).isEmpty = true
  · refine ⟨?_, fun _ => ⟨[], ?_, rfl⟩⟩
    · simp [rejectBlanks, skipBlanks_bind, hempty, pure_apply, Cursor.pass]
    · have hsplit := List.take_append_drop c.blanks c.rest
      rw [take_isEmpty hempty] at hsplit
      simpa [rejectBlanks, skipBlanks_bind, hempty, pure_apply, Cursor.pass] using hsplit.symm
  · refine .skipBlanks ?_
    rw [if_pos (by simpa using hempty)]
    exact .report (.pure trivial)

theorem rejectBlanks_rest (fault : SyntaxFault) (c : Cursor) :
    (rejectBlanks fault c).2.rest = (c.pass c.blanks).rest := by
  rw [rejectBlanks, skipBlanks_bind]
  split <;> rfl

/-- Garbage is not passed over without a report. -/
theorem skipGarbage_reads (wanted : Wanted) (stops : List Char) (c : Cursor) :
    Reads (skipGarbage wanted stops) c fun _ w =>
      w = [] ∧ ∀ x, c.rest.head? = some x → x ∈ stops := by
  by_cases hempty : (c.rest.takeWhile fun x => !stops.contains x).isEmpty = true
  · have heq : skipGarbage wanted stops c = ((), c) := by simp only [skipGarbage, hempty, if_true]
    refine ⟨Nat.le_of_eq (by rw [heq]), fun _ => ⟨[], by rw [heq]; rfl, rfl, ?_⟩⟩
    intro x hx
    obtain ⟨rest, hrest⟩ := List.head?_eq_some_iff.mp hx
    rw [hrest, List.isEmpty_iff, List.takeWhile_cons] at hempty
    split at hempty
    · cases hempty
    · rename_i hstop
      simpa using hstop
  · have hmore : (skipGarbage wanted stops c).2.faults.length = c.faults.length + 1 := by
      simp only [skipGarbage, hempty]
      rfl
    exact ⟨by omega, fun hclean => by omega⟩

/-- A missing token is noticed elsewhere. -/
theorem missing_any (kind : TokenKind) (c : Cursor) : Reads (missing kind) c fun _ _ => True :=
  .take (.pure trivial)

end Parser
end JsonPath
