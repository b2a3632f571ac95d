import JsonPath.Proofs.Syntax.Numbers
import JsonPath.Proofs.Syntax.Reading
import JsonPath.Proofs.Syntax.Strings

/-!
What is read without fault is derivable from the grammar, and its tree is well-formed. The proofs
follow the productions step by step; blanks that a production passes over at either end are left
to the production around it.
-/

namespace JsonPath

namespace Parser

open Grammar

/-! ### Literals and names -/

/-- A whole number is read as one token, of all that is in order about it. -/
theorem integer_token (c : Cursor) : Reads integer c fun b w =>
    (IntegerText.ofChars c.rest).InOrder ∧
      w = c.rest.take (IntegerText.ofChars c.rest).wholeLength ∧
      b.token.text = String.ofList w ∧ b.token.missing = false ∧
      b.value = (IntegerText.ofChars c.rest).value := by
  refine .get ?_
  extract_lets t whole length final tail
  have hfinal (d : Cursor) : Reads (final ()) d fun _ _ => True := .take (.pure trivial)
  have htail (d : Cursor) : Reads (tail ()) d fun _ _ => True := by
    unfold tail
    split
    · exact .report (hfinal _)
    · exact hfinal _
  split
  · exact .report (htail _)
  · rename_i hempty
    split
    · exact .report (htail _)
    · rename_i hzeros
      split
      · exact .report (htail _)
      · rename_i hnegative
        unfold tail
        split
        · exact .report (hfinal _)
        · rename_i htail
          have horder : t.InOrder :=
            ⟨by simpa using hempty, by simpa [LeadingZero] using hzeros, by simpa using hnegative,
              by simpa using htail⟩
          have hlength : length = t.wholeLength := by simp [length, horder.tail_eq]
          refine .take (.pure ⟨horder, ?_, ?_, rfl, rfl⟩)
          · rw [List.append_nil, hlength]
          · rw [List.append_nil]
            rfl

theorem integer_reads (c : Cursor) : Reads integer c fun _ w => Index w :=
  (integer_token c).mono fun _ _ h => h.2.1 ▸ h.1.index

theorem bound?_reads (c : Cursor) :
    Reads bound? c fun b w => (b = none ∧ w = []) ∨ (b.isSome = true ∧ Index w) := by
  refine .peek ?_
  split
  · split
    · exact .map ((integer_reads c).mono fun _ _ h => .inr ⟨rfl, h⟩)
    · exact .pure (.inl ⟨rfl, rfl⟩)
  · exact .pure (.inl ⟨rfl, rfl⟩)

theorem numberValue_isScalar (text : String) : (numberValue text).IsScalar := by
  unfold numberValue
  split <;> trivial

/-- A number literal is read as one token, of whose text its value is made. -/
theorem numberLiteral_token (c : Cursor) : Reads numberLiteral c fun e w =>
    Grammar.Number w ∧ ∃ id token, e = .literal id token (numberValue token.text) ∧
      token.kind = .number ∧ token.text = String.ofList w := by
  refine .element fun id => .get ?_
  extract_lets t final exponent fraction
  have hfinal (d : Cursor) : Reads (final ()) d fun _ _ => True := .take (.pure trivial)
  have hexponent (d : Cursor) : Reads (exponent ()) d fun _ _ => True := by
    unfold exponent
    split
    · exact .report (hfinal _)
    · exact hfinal _
  have hfraction (d : Cursor) : Reads (fraction ()) d fun _ _ => True := by
    unfold fraction
    split
    · exact .report (hexponent _)
    · exact hexponent _
  split
  · exact .report (hfraction _)
  · rename_i hempty
    split
    · exact .report (hfraction _)
    · rename_i hzeros
      unfold fraction
      split
      · exact .report (hexponent _)
      · rename_i hmissing
        unfold exponent
        split
        · exact .report (hfinal _)
        · rename_i hexponent
          have horder : t.InOrder := by
            refine ⟨by simpa using hempty, by simpa [LeadingZero] using hzeros, hmissing, ?_⟩
            intro sign hsign
            exact hexponent (by simp [hsign])
          refine .take (.pure ⟨?_, id, _, rfl, rfl, ?_⟩)
          · rw [List.append_nil]
            exact horder.number
          · rw [List.append_nil]
            rfl

theorem numberLiteral_reads (c : Cursor) : Reads numberLiteral c fun e w =>
    Grammar.Number w ∧ e.WellFormed ∧ e.IsComparable := by
  refine (numberLiteral_token c).mono fun e w => ?_
  rintro ⟨hw, id, token, rfl, -, -⟩
  exact ⟨hw, numberValue_isScalar _, trivial⟩

theorem reportAll_any (quote : Nat) (faults : List (Located EscapeFault)) (c : Cursor) :
    Reads (forIn faults PUnit.unit fun fault _ => do
      report (.escape fault.what) ⟨quote + fault.range.start, quote + fault.range.stop⟩
      return .yield PUnit.unit) c fun _ _ => True := by
  induction faults generalizing c with
  | nil => exact .pure trivial
  | cons fault rest ih =>
    simp only [List.forIn_cons, bind_assoc, pure_bind]
    exact .report (ih _)

theorem stringLiteral_reads {quote : Char} (hmark : quote = '\'' ∨ quote = '"') {c : Cursor}
    (hc : c.rest.head? = some quote) :
    Reads (stringLiteral quote) c fun _ w => StringLiteral w := by
  obtain ⟨more, hmore⟩ := List.head?_eq_some_iff.mp hc
  have hescaped := StringLiteral.body_escaped quote more
  have hprefix := StringLiteral.body_take quote more
  refine .get ?_
  rcases hbody : StringLiteral.body quote more with ⟨body, closed⟩
  rcases hdecode : StringLiteral.decode quote body with ⟨value, faults⟩
  have htail (faults : List (Located EscapeFault)) (start length : Nat) (d : Cursor) : Reads (do
      for fault in faults do
        report (.escape fault.what) ⟨start + fault.range.start, start + fault.range.stop⟩
      return (← take .string length, String.ofList value)) d fun (_ : Token × String) _ => True :=
    .bind (reportAll_any ..) fun _ _ => .take (.pure fun _ _ => trivial)
  rw [hbody] at hescaped hprefix
  rw [hmore, List.drop_one, List.tail_cons, hbody]
  dsimp only
  rw [hdecode]
  dsimp only
  cases closed with
  | false => exact .report (htail _ _ _ _)
  | true =>
    cases faults with
    | cons fault rest =>
      simp only [Bool.not_true, Bool.false_eq_true, if_false, List.forIn_cons, bind_assoc,
        pure_bind]
      exact .report (htail rest _ _ _)
    | nil =>
      simp only [Bool.not_true, Bool.false_eq_true, if_false, if_true, List.forIn_nil, pure_bind]
      refine .take (.pure ?_)
      obtain ⟨after, hafter⟩ := hprefix rfl
      have hquoted := StringLiteral.quoted_of_decodeFrom _ (Nat.le_refl _) hescaped
        (congrArg Prod.snd hdecode)
      have hsplit : c.rest = (quote :: body ++ [quote]) ++ after := by
        rw [hmore, ← hafter]
        simp
      rw [List.append_nil, hsplit, List.take_left' (by simp; omega)]
      exact .mk hmark hquoted

theorem isLowerLetter_iff {c : Char} : Text.isLowerLetter c = true ↔ IsLower c := by
  simp [Text.isLowerLetter, IsLower]

theorem isNameFirst_iff {c : Char} : isNameFirst c = true ↔ IsNameFirst c := by
  simp [isNameFirst, Text.isLetter, Text.isLowerLetter, IsNameFirst, IsLower, IsUpper, or_assoc]

theorem isNameChar_iff {c : Char} : isNameChar c = true ↔ IsNameChar c := by
  simp [isNameChar, IsNameChar, isNameFirst_iff, isDigit_iff]

theorem missingToken_any (wanted : Wanted) (id : Nat) (c : Cursor) {α : Type}
    (f : Nat → Token → α) {Q : α → List Char → Prop} :
    Reads (do reportFound wanted; return f id (← missing .name)) c Q :=
  .reportFound (.bind (missing_any _ _) fun _ _ => .pure fun _ _ => trivial)

theorem shorthandSelector_reads (after : TokenKind) (c : Cursor) :
    Reads (shorthandSelector after) c fun s w =>
      s.WellFormed ∧ Shorthand w ∧ (s.isSingular = true → Name w) := by
  refine .element fun id => .get ?_
  split
  · rename_i hrest
    refine .take (.pure ⟨trivial, ?_, by simp [Selector.isSingular]⟩)
    rw [hrest]
    exact .wildcard
  · rename_i x more hx hrest
    split
    · rename_i hfirst
      have htake : c.rest.take (1 + (more.takeWhile isNameChar).length) =
          x :: more.takeWhile isNameChar := by
        rw [show c.rest = _ from hrest, Nat.add_comm, List.take_succ_cons,
          ← List.prefix_iff_eq_take.mp (List.takeWhile_prefix _)]
      have hname : Name (x :: more.takeWhile isNameChar) :=
        .mk (isNameFirst_iff.mp hfirst) fun d hd =>
          isNameChar_iff.mp (List.all_eq_true.mp List.all_takeWhile d hd)
      refine .take (.pure ⟨trivial, ?_⟩)
      rw [List.append_nil, htake]
      exact ⟨.name hname, fun _ => hname⟩
    · exact missingToken_any ..
  · exact missingToken_any ..

/-! ### Selectors and segments -/

theorem stepPart?_reads (c : Cursor) : Reads stepPart? c fun _ w => Padded SliceStep w := by
  refine .lookAhead (.isAt ?_)
  split
  · rename_i hcolon
    refine .goOn (.takeNext hcolon rfl (.skipBlanks (.bind (bound?_reads _) fun b _ => .pure ?_)))
    rintro w (⟨-, rfl⟩ | ⟨-, hw⟩) b' hb' b hb
    · exact .before hb (by simpa using Padded.after (.of SliceStep.colon) hb')
    · exact .before hb (.of (by simpa using SliceStep.some hb' hw))
  · exact .goBack (.pure (.of .none))

/-- What is read for an index or a slice. -/
def IndexOrSlice (s : JsonPath.Selector) : Language := fun v =>
  (s.isSingular = true ∧ Index v) ∨ (s.isSingular = false ∧ Slice v)

/-- Blanks after a bound belong to it; where there is none, they come before. -/
theorem sliceBound_of {bound : Option Bound} {w b : List Char} (hb : Blanks b)
    (hw : (bound = none ∧ w = []) ∨ (bound.isSome = true ∧ Index w)) :
    ∃ b' v, w ++ b = b' ++ v ∧ Blanks b' ∧ SliceBound v := by
  rcases hw with ⟨-, rfl⟩ | ⟨-, hw⟩
  · exact ⟨b, [], by simp, hb, .none⟩
  · exact ⟨[], w ++ b, rfl, .nil, .some hw hb⟩

theorem indexOrSlice_reads {c : Cursor} {x : Char} (hx : c.rest.head? = some x)
    (hfirst : (x = '-' || x = ':' || Text.isDigit x) = true) :
    Reads indexOrSlice c fun s w => s.WellFormed ∧ Padded (IndexOrSlice s) w := by
  refine .element fun id => ?_
  rcases hbound : bound? { c with nextId := c.nextId + 1 } with ⟨start, d⟩
  refine .bind_of_eq hbound (bound?_reads _) (.lookAhead (.isAt ?_))
  split
  · rename_i hcolon
    refine .goOn (.takeNext hcolon rfl (.skipBlanks (.bind (bound?_reads _) fun stop _ => ?_)))
    refine .bind (stepPart?_reads _) fun step _ => .pure ?_
    rintro _ ⟨b₃, t, b₄, rfl, hb₃, ht, hb₄⟩ w hw b₂ hb₂ b₁ hb₁ u hu
    obtain ⟨b, u', hu', hb, hstart⟩ := sliceBound_of hb₁ hu
    obtain ⟨b', w', hw', hb', hstop⟩ := sliceBound_of hb₃ hw
    have hslice := Slice.mk hstart (hb₂.append hb') hstop ht
    refine ⟨trivial, b, _, b₄, ?_, hb, .inr ⟨rfl, hslice⟩, hb₄⟩
    calc u ++ (b₁ ++ ([':'] ++ (b₂ ++ (w ++ (b₃ ++ t ++ b₄ ++ [])))))
      _ = (u ++ b₁) ++ ':' :: b₂ ++ (w ++ b₃) ++ t ++ b₄ := by simp
      _ = b ++ (u' ++ ':' :: (b₂ ++ b') ++ w' ++ t) ++ b₄ := by rw [hu', hw']; simp
  · cases start with
    | some b =>
      refine .goBack (.pure ?_)
      rintro w (⟨h, -⟩ | ⟨-, hw⟩)
      · cases h
      · exact ⟨trivial, .of (.inl ⟨rfl, by simpa using hw⟩)⟩
    | none =>
      rename_i hcolon
      obtain ⟨rfl, hnone⟩ := bound?_of_none hbound
      obtain ⟨rest, hrest⟩ : ∃ rest, c.rest = ':' :: rest := by
        have hcolon : x = ':' := by
          have := hnone x hx
          simp_all
        subst hcolon
        exact List.head?_eq_some_iff.mp hx
      exact absurd (by simp [Cursor.isAt, Cursor.pass, Cursor.blanks, Cursor.isBlank, hrest]) hcolon

theorem missingSelector_reads (c : Cursor) {Q : JsonPath.Selector → List Char → Prop} :
    Reads missingSelector c Q :=
  .element fun _ => missingToken_any ..

/-- What the parser reads is of the language, with blanks around it, and the tree is
well-formed. -/
def Derives (p : Parser Expr) (L : Language) : Prop :=
  ∀ c, Reads p c fun e w => e.WellFormed ∧ Padded L w

/-- What is read for a selector. -/
def SelectorText (s : JsonPath.Selector) : Language := fun v =>
  Grammar.Selector v ∧ (s.isSingular = true → StringLiteral v ∨ Index v)

theorem selector_reads {filter : Parser Expr} (hfilter : filter.Derives Disjunction)
    (c : Cursor) :
    Reads (selector filter) c fun s w => s.WellFormed ∧ Padded (SelectorText s) w := by
  have hquoted {quote : Char} (hmark : quote = '\'' ∨ quote = '"')
      (hquote : c.rest.head? = some quote) : Reads (do
      let id ← freshId
      let found ← stringLiteral quote
      return .name id found.1 found.2) c fun s w => s.WellFormed ∧ Padded (SelectorText s) w := by
    refine .element fun id => .bind (stringLiteral_reads hmark hquote) fun t _ => .pure ?_
    intro w hw
    rw [List.append_nil]
    exact ⟨trivial, .of ⟨.name hw, fun _ => .inl hw⟩⟩
  refine .peek ?_
  split
  · rename_i hx
    exact hquoted (.inl rfl) hx
  · rename_i hx
    exact hquoted (.inr rfl) hx
  · rename_i hx
    refine .element fun id => .takeNext (isAt_of_head (x := '*') (by exact hx)) rfl
      (.pure ⟨trivial, .of ⟨.wildcard, ?_⟩⟩)
    simp [Selector.isSingular]
  · rename_i hx
    refine .element fun id => .takeNext (isAt_of_head (x := '?') (by exact hx)) rfl
      (.bind (hfilter _) fun e _ => .pure ?_)
    rintro _ ⟨hwf, b, v, b', rfl, hb, hv, hb'⟩
    refine ⟨hwf, [], '?' :: b ++ v, b', by simp, .nil, ⟨.filter hb hv, ?_⟩, hb'⟩
    simp [Selector.isSingular]
  · rename_i x _ _ _ _ hx
    split
    · rename_i hfirst
      refine (indexOrSlice_reads hx hfirst).mono ?_
      rintro s w ⟨hwf, hw⟩
      refine ⟨hwf, hw.mono ?_⟩
      rintro v (⟨hsingular, hv⟩ | ⟨hsingular, hv⟩)
      · exact ⟨.index hv, fun _ => .inr hv⟩
      · exact ⟨.slice hv, by simp [hsingular]⟩
    · split
      · exact missingSelector_reads c
      · rename_i hstop
        refine .element fun id => .bind (skipGarbage_reads _ _ _) fun _ _ => ?_
        refine (missing_any _ _).bind fun _ _ => .pure fun _ _ w hw => ?_
        exact absurd (hw.2 x hx) (by simpa using hstop)
  · exact missingSelector_reads c

theorem closeBracket_reads (opening : Token) (c : Cursor) :
    Reads (closeBracket opening) c fun _ w => w = [']'] := by
  refine .isAt ?_
  split
  · rename_i hat
    exact .takeNext hat rfl (.pure rfl)
  · exact .report (missing_any _ _)

/-- What is read for selectors between brackets. -/
def SelectorsText (found : Selectors) : Language := fun v =>
  Separated [','] Grammar.Selector v ∧
    ∀ s, found.toList = [s] → s.isSingular = true → StringLiteral v ∨ Index v

theorem selectors_reads {filter : Parser Expr} (hfilter : filter.Derives Disjunction)
    (opening : Token) (rounds : Nat) (c : Cursor) :
    Reads (selectors filter opening rounds) c fun found w =>
      found.1.WellFormed ∧ ∃ v, w = v ++ [']'] ∧ Padded (SelectorsText found.1) v := by
  induction rounds generalizing c with
  | zero =>
    exact (missingSelector_reads c (Q := fun _ _ => False)).bind fun _ _ =>
      (closeBracket_reads _ _).bind fun _ _ => .pure fun _ _ _ h => h.elim
  | succ rounds ih =>
    refine .skipBlanks (.bind (selector_reads hfilter _) fun s _ => .skipBlanks ?_)
    refine .bind (skipGarbage_reads _ _ _) fun _ _ => .isAt ?_
    split
    · rename_i hcomma
      refine .takeNext hcomma rfl (.bind (ih _) fun found _ => .pure ?_)
      rintro _ ⟨hrest, v, rfl, hv⟩ _ ⟨rfl, -⟩ b' hb' w ⟨hs, hw⟩ b hb
      refine ⟨⟨hs, hrest⟩, b ++ w ++ b' ++ ([','] ++ v), by simp, ?_⟩
      have hmore : Padded (Separated [','] Grammar.Selector) (b ++ w ++ b' ++ ([','] ++ v)) :=
        (((hw.mono fun _ h => h.1).before hb).after hb').more (hv.mono fun _ h => h.1)
      refine hmore.mono fun _ h => ⟨h, fun s' hs' => ?_⟩
      exact absurd (List.cons.inj hs').2 found.1.toList_ne_nil
    · refine .bind (closeBracket_reads _ _) fun closing _ => .pure ?_
      rintro _ rfl _ ⟨rfl, -⟩ b' hb' w ⟨hs, hw⟩ b hb
      refine ⟨hs, b ++ w ++ b', by simp, ?_⟩
      refine ((hw.before hb).after hb').mono fun v hv => ⟨.one hv.1, fun s' hs' hsingular => ?_⟩
      obtain rfl : s = s' := by simpa [Selectors.toList] using hs'
      exact hv.2 hsingular

/-- What is read for a segment. -/
def SegmentText (s : JsonPath.Segment) : Language := fun v =>
  Grammar.Segment v ∧ (s.isSingular = true → SingularSegment v)

/-- With two dots before it, a segment in brackets is no longer one that gives one value. -/
theorem bracketed_reads {filter : Parser Expr} (hfilter : filter.Derives Disjunction) (id : Nat)
    (dots : Option Token) {c : Cursor} (hc : c.isAt ['['] = true) :
    Reads (bracketed filter id dots) c fun s w => s.WellFormed ∧ Bracketed w ∧
      (s.isSingular = true → dots = none ∧ SingularSegment w) := by
  refine .takeNext hc rfl (.get (.bind (selectors_reads hfilter _ _ _) fun found _ => .pure ?_))
  rintro _ ⟨hwf, _, rfl, b, v, b', rfl, hb, hv, hb'⟩
  have htext : ['['] ++ (b ++ v ++ b' ++ [']'] ++ []) = '[' :: b ++ v ++ b' ++ [']'] := by simp
  rw [htext]
  refine ⟨hwf, .mk hb hv.1 hb', fun hsingular => ?_⟩
  cases dots with
  | some dots =>
    exact absurd ((Segment.isSingular_iff _).mp hsingular).1 (by simp [Segment.isDescendant])
  | none =>
    obtain ⟨-, s, hs, hname⟩ := (Segment.isSingular_iff _).mp hsingular
    rcases hv.2 s hs hname with h | h
    · exact ⟨rfl, .name hb h hb'⟩
    · exact ⟨rfl, .index hb h hb'⟩

theorem segment?_reads {filter : Parser Expr} (hfilter : filter.Derives Disjunction)
    (c : Cursor) :
    Reads (segment? filter) c fun found w =>
      (found = none ∧ w = []) ∨
        ∃ s b v, found = some s ∧ w = b ++ v ∧ Blanks b ∧ s.WellFormed ∧ SegmentText s v := by
  refine .lookAhead (.isAt ?_)
  split
  · rename_i hat
    refine .goOn (.element fun id => .takeNext (isAt_of_rest hat (by rfl)) rfl ?_)
    refine .bind (rejectBlanks_reads _ _) fun _ _ => .isAt ?_
    split
    · rename_i hbracket
      refine .map ((bracketed_reads hfilter id _ hbracket).mono fun s w h => ?_)
      rintro _ rfl b hb
      refine .inr ⟨s, b, '.' :: '.' :: w, rfl, rfl, hb, h.1, .descendantBrackets h.2.1, ?_⟩
      intro hsingular
      exact absurd (h.2.2 hsingular).1 (Option.some_ne_none _)
    · refine .bind (shorthandSelector_reads _ _) fun s _ => .pure ?_
      rintro w ⟨hwf, hw, -⟩ _ rfl b hb
      refine .inr ⟨_, b, '.' :: '.' :: w, rfl, by simp, hb, hwf, .descendant hw, ?_⟩
      intro hsingular
      exact absurd ((Segment.isSingular_iff _).mp hsingular).1
        (by simp [Segment.isDescendant, take])
  · refine .isAt ?_
    split
    · rename_i hat
      refine .goOn (.element fun id => .takeNext (isAt_of_rest hat (by rfl)) rfl ?_)
      refine .bind (rejectBlanks_reads _ _) fun _ _ => ?_
      refine .bind (shorthandSelector_reads _ _) fun s _ => .pure ?_
      rintro w ⟨hwf, hw, hname⟩ _ rfl b hb
      refine .inr ⟨_, b, '.' :: w, rfl, by simp, hb, hwf, .child hw, fun hsingular => ?_⟩
      obtain ⟨-, t, ht, hsingular⟩ := (Segment.isSingular_iff _).mp hsingular
      obtain rfl : s = t := (List.cons.inj ht).1
      exact .shorthand (hname hsingular)
    · refine .isAt ?_
      split
      · rename_i hbracket
        refine .goOn (.element fun id => .map ?_)
        refine (bracketed_reads hfilter id none (by exact hbracket)).mono fun s w h b hb => ?_
        exact .inr ⟨s, b, w, rfl, rfl, hb, h.1, .brackets h.2.1, fun hs => (h.2.2 hs).2⟩
      · exact .goBack (.pure (.inl ⟨rfl, rfl⟩))

theorem segments_reads {filter : Parser Expr} (hfilter : filter.Derives Disjunction)
    (rounds : Nat) (path : Path) (c : Cursor) :
    Reads (segments filter rounds path) c fun p w =>
      (path.WellFormed → p.WellFormed) ∧ Segments w ∧
        (p.isSingular = true → path.isSingular = true ∧ SingularSegments w) := by
  induction rounds generalizing c path with
  | zero => exact .pure ⟨id, .nil, fun h => ⟨h, .nil⟩⟩
  | succ rounds ih =>
    refine .bind (segment?_reads hfilter c) fun found _ => ?_
    cases found with
    | none =>
      refine .pure ?_
      rintro w (⟨-, rfl⟩ | ⟨s, b, v, hs, -⟩)
      · exact ⟨id, .nil, fun h => ⟨h, .nil⟩⟩
      · cases hs
    | some segment =>
      refine (ih _ _).mono fun p v ⟨hwf, hv, hsingular⟩ => ?_
      rintro w (⟨hs, -⟩ | ⟨s, b, u, hs, rfl, hb, hsegment, hu⟩)
      · cases hs
      · obtain rfl : segment = s := Option.some.inj hs
        refine ⟨fun hpath => hwf ⟨hpath, hsegment⟩, .cons hb hu.1 hv, fun hp => ?_⟩
        obtain ⟨hboth, hrest⟩ := hsingular hp
        rw [Path.isSingular, Bool.and_eq_true] at hboth
        exact ⟨hboth.1, .cons hb (hu.2 hboth.2) hrest⟩

theorem pathExpression_reads {filter : Parser Expr} (hfilter : filter.Derives Disjunction)
    (kind : TokenKind) {x : Char} {c : Cursor} (hx : c.rest.head? = some x) :
    Reads (pathExpression filter kind) c fun e w =>
      e.WellFormed ∧ ∃ p v, e = .path e.id p ∧ w = x :: v ∧ Segments v ∧
        (p.isSingular = true → SingularSegments v) := by
  refine .element fun id => .element fun pathId => ?_
  refine .takeNext (isAt_of_head (x := x) (by exact hx)) rfl ?_
  refine .get (.bind (segments_reads hfilter _ _ _) fun p _ => .pure ?_)
  rintro w ⟨hwf, hw, hsingular⟩
  exact ⟨hwf trivial, p, w, rfl, by simp, hw, fun hp => (hsingular hp).2⟩

/-! ### Expressions -/

theorem missingExpression_reads (c : Cursor) {Q : Expr → List Char → Prop} :
    Reads missingExpression c Q :=
  .element fun _ => missingToken_any ..

theorem operands_reads {operand : Parser Expr} {L : Language} (hoperand : operand.Derives L)
    (kind : TokenKind) (mark : List Char) (rounds : Nat) (c : Cursor) :
    Reads (operands kind mark operand rounds) c fun os w =>
      os.WellFormed ∧ Padded (Separated mark L) w := by
  induction rounds generalizing c with
  | zero =>
    exact (missingExpression_reads c (Q := fun _ _ => False)).bind fun _ _ =>
      .pure fun _ h => h.elim
  | succ rounds ih =>
    refine .bind (hoperand c) fun first _ => .skipBlanks (.isAt ?_)
    split
    · rename_i hmark
      refine .takeNext hmark rfl (.bind (ih _) fun rest _ => .pure ?_)
      rintro w' ⟨hrest, hw'⟩ b hb w ⟨hfirst, hw⟩
      refine ⟨⟨hfirst, hrest⟩, ?_⟩
      simpa using (hw.after hb).more hw'
    · refine .pure ?_
      rintro b hb w ⟨hfirst, hw⟩
      exact ⟨hfirst, by simpa using (hw.after hb).one⟩

theorem closeParen_reads (opening : Token) (c : Cursor) :
    Reads (closeParen opening) c fun _ w => w = [')'] := by
  refine .isAt ?_
  split
  · rename_i hat
    exact .takeNext hat rfl (.pure rfl)
  · exact .report (missing_any _ _)

theorem arguments_reads {argument : Parser Expr} {L : Language} (hargument : argument.Derives L)
    (opening : Token) (rounds : Nat) (c : Cursor) :
    Reads (arguments argument opening rounds) c fun found w =>
      found.1.WellFormed ∧ ∃ v, w = v ++ [')'] ∧ Padded (Separated [','] L) v := by
  induction rounds generalizing c with
  | zero =>
    exact (missingExpression_reads c (Q := fun _ _ => False)).bind fun _ _ =>
      (closeParen_reads _ _).bind fun _ _ => .pure fun _ _ _ h => h.elim
  | succ rounds ih =>
    refine .bind (hargument c) fun first _ => .skipBlanks ?_
    refine .bind (skipGarbage_reads _ _ _) fun _ _ => .isAt ?_
    split
    · rename_i hcomma
      refine .takeNext hcomma rfl (.bind (ih _) fun found _ => .pure ?_)
      rintro _ ⟨hrest, v, rfl, hv⟩ _ ⟨rfl, -⟩ b hb w ⟨hfirst, hw⟩
      exact ⟨⟨hfirst, hrest⟩, w ++ b ++ ([','] ++ v), by simp, (hw.after hb).more hv⟩
    · refine .bind (closeParen_reads _ _) fun closing _ => .pure ?_
      rintro _ rfl _ ⟨rfl, -⟩ b hb w ⟨hfirst, hw⟩
      exact ⟨hfirst, w ++ b, by simp, (hw.after hb).one⟩

theorem call_reads {argument : Parser Expr} (hargument : argument.Derives Disjunction) (id : Nat)
    {name : Token} (hname : name.missing = false) {c : Cursor} (hc : c.isAt ['('] = true) :
    Reads (call argument id name) c fun e w =>
      e.WellFormed ∧ e.IsComparable ∧ ∀ f, FunctionName f → Call (f ++ w) := by
  refine .takeNext hc rfl (.skipBlanks (.isAt ?_))
  split
  · rename_i hclose
    refine .takeNext hclose rfl (.pure fun b hb => ⟨⟨hname, trivial⟩, trivial, fun f hf => ?_⟩)
    simpa using Call.empty hf hb
  · refine .get (.bind (arguments_reads hargument _ _ _) fun found _ => .pure ?_)
    rintro _ ⟨hwf, _, rfl, b', v, b'', rfl, hb', hv, hb''⟩ b hb
    refine ⟨⟨hname, hwf⟩, trivial, fun f hf => ?_⟩
    simpa using Call.some hf (hb.append hb') hv hb''

/-- What is read for an expression that no operator takes apart. -/
def PrimaryText (e : Expr) : Language := fun v => Primary v ∧ (e.IsComparable → Comparable v)

theorem functionName_takeWhile {x : Char} {more : List Char} (hx : Text.isLowerLetter x = true) :
    FunctionName ((x :: more).takeWhile isFunctionChar) := by
  rw [List.takeWhile_cons_of_pos (by simp [isFunctionChar, hx])]
  refine .mk (isLowerLetter_iff.mp hx) fun d hd => ?_
  have hall := List.all_eq_true.mp List.all_takeWhile d hd
  simpa [isFunctionChar, isLowerLetter_iff, isDigit_iff, or_assoc] using hall

theorem callOrWord_reads {argument : Parser Expr} (hargument : argument.Derives Disjunction)
    {c : Cursor} {x : Char} (hx : c.rest.head? = some x) (hlower : Text.isLowerLetter x = true) :
    Reads (callOrWord argument) c fun e w =>
      e.WellFormed ∧ e.IsComparable ∧ PrimaryText e w := by
  obtain ⟨more, hmore⟩ := List.head?_eq_some_iff.mp hx
  refine .element fun id => .get ?_
  extract_lets word after
  have hword : c.rest.take word.length = word :=
    (List.prefix_iff_eq_take.mp (List.takeWhile_prefix _)).symm
  have hliteral (kind : TokenKind) (value : Json) (hvalue : value.IsScalar)
      (h : Literal word) :
      Reads (do return .literal id (← take kind word.length) value)
        { c with nextId := c.nextId + 1 } fun (e : Expr) w =>
          e.WellFormed ∧ e.IsComparable ∧ PrimaryText e w := by
    refine .take (.pure ⟨hvalue, trivial, ?_⟩)
    rw [List.append_nil, hword]
    exact ⟨.literal h, fun _ => .literal h⟩
  split
  · rename_i hparen
    refine .take (.bind_at (rejectBlanks_reads _ _) fun _ => ?_)
    refine (call_reads hargument id rfl ?_).mono fun e w h v hv => ?_
    · refine isAt_of_rest hparen ?_
      rw [rejectBlanks_rest]
      rfl
    · subst hv
      have hname : FunctionName word := by
        unfold word
        rw [show ({ c with nextId := c.nextId + 1 } : Cursor).rest = x :: more from hmore]
        exact functionName_takeWhile hlower
      have hcall := h.2.2 word hname
      rw [List.nil_append, hword]
      exact ⟨h.1, h.2.1, .call hcall, fun _ => .call hcall⟩
  · split
    · rename_i hw
      exact hliteral _ _ trivial (hw ▸ .true)
    · split
      · rename_i hw
        exact hliteral _ _ trivial (hw ▸ .false)
      · split
        · rename_i hw
          exact hliteral _ _ trivial (hw ▸ .null)
        · exact .report (.pass ((missing_any _ _).bind fun _ _ => .pure fun _ _ => trivial))

/-- No exclamation mark stands at the cursor, or one that belongs to a comparison. -/
def NotNegated (c : Cursor) : Prop := c.isAt ['!'] = true → c.isAt ['!', '='] = true

/-- Of the parsers of a depth, what they read is of the languages of their ranks. What is read
after a single exclamation mark is negated, and comes up only where that is reported. -/
structure Expressions.Derive (inner : Expressions) : Prop where
  disjunction : inner.disjunction.Derives Disjunction
  negation : inner.negation.Derives Basic
  primary : ∀ c, Reads inner.primary c fun e _ => e.WellFormed

theorem primary_reads {inner : Expressions} (h : inner.Derive) (c : Cursor) :
    Reads (primary inner) c fun e w => e.WellFormed ∧ e.IsPrimary ∧
      (NotNegated (c.pass c.blanks) ∨ e.IsComparable → Padded (PrimaryText e) w) := by
  refine .skipBlanks (.get ?_)
  generalize hd : c.pass c.blanks = d
  have hmissing {Q : Expr → List Char → Prop} : Reads missingExpression d Q :=
    missingExpression_reads d
  have hplain {p : Parser Expr}
      (hp : Reads p d fun e w => e.WellFormed ∧ e.IsPrimary ∧ PrimaryText e w) :
      Reads p d fun e v => ∀ w, Blanks w → e.WellFormed ∧ e.IsPrimary ∧
        (NotNegated d ∨ e.IsComparable → Padded (PrimaryText e) (w ++ v)) :=
    hp.mono fun e v h w hw => ⟨h.1, h.2.1, fun _ => .before hw (.of h.2.2)⟩
  have hquoted {quote : Char} {more : List Char} (hmark : quote = '\'' ∨ quote = '"')
      (hquote : d.rest = quote :: more) : Reads (do
      let id ← freshId
      let found ← stringLiteral quote
      return .literal id found.1 (.string found.2)) d fun e w =>
        e.WellFormed ∧ e.IsPrimary ∧ PrimaryText e w := by
    refine .element fun id => .bind (stringLiteral_reads hmark ?_) fun t _ => .pure fun w hw => ?_
    · rw [show ({ d with nextId := d.nextId + 1 } : Cursor).rest = quote :: more from hquote]
      rfl
    · rw [List.append_nil]
      exact ⟨trivial, trivial, .literal (.string hw), fun _ => .literal (.string hw)⟩
  have hpath {kind : TokenKind} {x : Char} {more : List Char} (hx : x = '$' ∨ x = '@')
      (hrest : d.rest = x :: more) : Reads (pathExpression inner.disjunction kind) d fun e w =>
        e.WellFormed ∧ e.IsPrimary ∧ PrimaryText e w := by
    refine (pathExpression_reads h.disjunction kind (x := x) (by rw [hrest]; rfl)).mono ?_
    rintro e w ⟨hwf, p, v, he, rfl, hv, hsingular⟩
    refine ⟨hwf, ?_⟩
    rw [he]
    exact ⟨trivial, .path hx hv, fun hp => .path hx (hsingular hp)⟩
  split
  · rename_i more hrest
    refine hplain (.element fun id => .takeNext (isAt_of_head (x := '(') ?_) rfl ?_)
    · rw [show ({ d with nextId := d.nextId + 1 } : Cursor).rest = _ from hrest]
      rfl
    · refine .bind (h.disjunction _) fun e _ => .skipBlanks ?_
      refine .bind (closeParen_reads _ _) fun _ _ => .pure ?_
      rintro _ rfl b'' hb'' _ ⟨hwf, b, v, b', rfl, hb, hv, hb'⟩
      refine ⟨hwf, trivial, ?_, False.elim⟩
      simpa using Primary.parens hb hv (hb'.append hb'')
  · rename_i more hrest
    split
    · exact hmissing
    · rename_i hequal
      refine .element fun id => .take (.bind (h.primary _) fun e _ => .pure ?_)
      intro v hwf w hw
      refine ⟨hwf, trivial, ?_⟩
      rintro (hnegated | hcomparable)
      · have hat := hnegated (isAt_of_head (by rw [hrest]; rfl))
        rw [Cursor.isAt, hrest] at hat
        cases more with
        | nil => simp at hat
        | cons y more => exact absurd (by simpa using hat : '=' = y).symm (by simpa using hequal)
      · exact hcomparable.elim
  · rename_i hrest
    exact hplain (hpath (.inl rfl) hrest)
  · rename_i hrest
    exact hplain (hpath (.inr rfl) hrest)
  · rename_i hrest
    exact hplain (hquoted (.inl rfl) hrest)
  · rename_i hrest
    exact hplain (hquoted (.inr rfl) hrest)
  · rename_i x more _ _ _ _ _ _ hrest
    split
    · refine hplain ((numberLiteral_reads d).mono ?_)
      rintro e w ⟨hw, hwf, hcomparable⟩
      exact ⟨hwf, hcomparable.isPrimary, .literal (.number hw), fun _ => .literal (.number hw)⟩
    · split
      · rename_i hlower
        refine hplain ((callOrWord_reads h.disjunction (x := x) ?_ hlower).mono fun e w hw => ?_)
        · rw [hrest]
          rfl
        · exact ⟨hw.1, hw.2.1.isPrimary, hw.2.2⟩
      · exact hmissing
  · exact hmissing

theorem checkComparable_reads (e : Expr) (c : Cursor) :
    Reads (checkComparable e) c fun _ w =>
      w = [] ∧ (e.WellFormed → e.IsPrimary → e.IsComparable) := by
  cases e with
  | parens | not => exact .report (.pure trivial)
  | path id p =>
    unfold checkComparable
    dsimp only
    split
    · rename_i hsingular
      exact .pure ⟨rfl, fun _ _ => hsingular⟩
    · exact .report (.pure trivial)
  | call | literal => exact .pure ⟨rfl, fun _ _ => trivial⟩
  | or | and | comparison => exact .pure ⟨rfl, fun _ hprimary => hprimary.elim⟩
  | missing => exact .pure ⟨rfl, fun hwf _ => hwf.elim⟩

/-- A comparison operator that is not a single equals sign. -/
theorem operator_of_comparison {c : Cursor} {op : Comparison} {length : Nat}
    (h : comparison? c = some (op, length)) (hne : c.rest.take length ≠ ['=']) :
    Operator (c.rest.take length) := by
  have htake {chars : List Char} (hat : c.isAt chars = true) : c.rest.take chars.length = chars :=
    (List.prefix_iff_eq_take.mp (List.isPrefixOf_iff_prefix.mp hat)).symm
  unfold comparison? at h
  repeat' split at h
  any_goals
    cases h
    done
  all_goals
    rename_i hat
    obtain ⟨rfl, rfl⟩ := Prod.mk.inj (Option.some.inj h)
    have htext := htake hat
    simp_all [Operator]

theorem comparison_reads {inner : Expressions} (h : inner.Derive) {c : Cursor}
    (hc : NotNegated (c.pass c.blanks)) :
    Reads (comparison inner) c fun e w => e.WellFormed ∧ Padded Basic w := by
  refine .bind (primary_reads h c) fun left _ => .skipBlanks (.get ?_)
  split
  · refine .pure fun b hb w ⟨hwf, _, hw⟩ => ⟨hwf, ?_⟩
    rw [List.append_nil]
    exact ((hw (.inl hc)).mono fun _ hv => .primary hv.1).after hb
  · rename_i op length hop
    refine .element fun id => .take ?_
    extract_lets final
    have hfinal (d : Cursor) : Reads (final ()) d fun e w =>
        left.WellFormed → left.IsPrimary →
          e.WellFormed ∧ left.IsComparable ∧ Padded Comparable w := by
      refine .bind (primary_reads h d) fun right _ => ?_
      refine .bind (checkComparable_reads left _) fun _ _ => ?_
      refine .bind (checkComparable_reads right _) fun _ _ => .pure ?_
      rintro _ ⟨rfl, hright⟩ _ ⟨rfl, hleft⟩ w ⟨hwf, hprimary, hw⟩ hlwf hlprimary
      have hcomparable := hright hwf hprimary
      refine ⟨⟨hleft hlwf hlprimary, hcomparable, hlwf, hwf⟩, hleft hlwf hlprimary, ?_⟩
      simpa using (hw (.inr hcomparable)).mono fun _ hv => hv.2 hcomparable
    split
    · exact .report (hfinal _).any
    · rename_i hsingle
      refine (hfinal _).mono fun e v hv b hb w ⟨hwf, hprimary, hw⟩ => ?_
      obtain ⟨hewf, hcomparable, b', v', b'', rfl, hb', hv', hb''⟩ := hv hwf hprimary
      obtain ⟨b₁, u, b₂, rfl, hb₁, hu, hb₂⟩ := hw (.inl hc)
      have hoperator := operator_of_comparison hop fun h => hsingle (by simp [take, h])
      have hbasic := Basic.comparison (hu.2 hcomparable) (hb₂.append hb) hoperator hb' hv'
      exact ⟨hewf, b₁, _, b'', by simp, hb₁, hbasic, hb''⟩

theorem negation_reads {inner : Expressions} (h : inner.Derive) :
    (negation inner).Derives Basic := by
  intro c
  refine .skipBlanks (.isAt (.isAt ?_))
  split
  · rename_i hbang
    rw [Bool.and_eq_true] at hbang
    refine .element fun id => .takeNext (isAt_of_rest hbang.1 (by rfl)) rfl ?_
    refine .bind (h.negation _) fun e _ => .pure ?_
    rintro _ ⟨hwf, b', v, b'', rfl, hb', hv, hb''⟩ b hb
    exact ⟨hwf, b, '!' :: b' ++ v, b'', by simp, hb, .not hb' hv, hb''⟩
  · rename_i hbang
    refine (comparison_reads h ?_).mono fun e w ⟨hwf, hw⟩ b hb => ⟨hwf, .before hb hw⟩
    intro hnot
    have hrest := pass_blanks_twice c
    have hnot := isAt_of_rest hnot hrest.symm
    cases hequal : (c.pass c.blanks).isAt ['!', '='] with
    | true => exact isAt_of_rest hequal hrest
    | false => exact absurd (by simp [hnot, hequal]) hbang

theorem joined_reads {operand : Parser Expr} {L M : Language} (hoperand : operand.Derives L)
    (kind : TokenKind) (mark : List Char) {make : Nat → Expr → Token → Operands → Expr}
    (hmake : ∀ id first operator rest, first.WellFormed → rest.WellFormed →
      (make id first operator rest).WellFormed)
    (hjoined : ∀ w, Separated mark L w → M w) : (joined kind mark make operand).Derives M := by
  intro c
  refine .bind (hoperand c) fun first _ => .skipBlanks (.isAt ?_)
  split
  · rename_i hmark
    refine .element fun id => .takeNext (isAt_of_rest hmark (by rfl)) rfl (.get ?_)
    refine .bind (operands_reads hoperand _ _ _ _) fun rest _ => .pure ?_
    rintro w' ⟨hrest, hw'⟩ b hb w ⟨hfirst, hw⟩
    refine ⟨hmake _ _ _ _ hfirst hrest, ?_⟩
    simpa using ((hw.after hb).more hw').mono hjoined
  · refine .pure fun b hb w ⟨hwf, hw⟩ => ⟨hwf, ?_⟩
    simpa using ((hw.after hb).one).mono hjoined

theorem conjunction_reads {inner : Expressions} (h : inner.Derive) :
    (conjunction inner).Derives Conjunction :=
  joined_reads (negation_reads h) _ _ (fun _ _ _ _ => And.intro) fun _ => .mk

theorem disjunction_reads {inner : Expressions} (h : inner.Derive) :
    (disjunction inner).Derives Disjunction :=
  joined_reads (conjunction_reads h) _ _ (fun _ _ _ _ => And.intro) fun _ => .mk

theorem expressions_derive (depth : Nat) : (expressions depth).Derive := by
  induction depth with
  | zero =>
    exact ⟨fun c => missingExpression_reads c, fun c => missingExpression_reads c,
      fun c => missingExpression_reads c⟩
  | succ depth ih =>
    refine ⟨disjunction_reads ih, negation_reads ih, fun c => ?_⟩
    exact (primary_reads ih c).mono fun _ _ => And.left

/-! ### Queries -/

theorem identifier_reads (c : Cursor) : Reads identifier c fun _ w => w = ['$'] := by
  refine .peek ?_
  split
  · rename_i hx
    exact .takeNext (isAt_of_head hx) rfl (.pure rfl)
  · exact .take (.report (.pure trivial))
  · exact .reportFound (missing_any _ _)

theorem remainder_reads {filter : Parser Expr} (htells : filter.Tells)
    (hfilter : filter.Derives Disjunction) (rounds : Nat) (path : Path) (c : Cursor) :
    Reads (remainder filter rounds path) c fun p w =>
      (path.WellFormed → p.WellFormed) ∧ Segments w := by
  induction rounds generalizing c path with
  | zero => exact .pure ⟨id, .nil⟩
  | succ rounds ih =>
    refine .passBlanks (.peek ?_)
    split
    · by_cases hempty : (c.ahead c.blanks).isEmpty = true
      · rw [take_isEmpty hempty]
        simp only [hempty, Bool.not_true, Bool.false_eq_true, if_false]
        exact .pure ⟨id, .nil⟩
      · simp only [hempty, Bool.not_false, if_true]
        exact .report (.pure trivial)
    · rename_i hsome
      obtain ⟨x, rest, hrest⟩ : ∃ x rest, (c.pass c.blanks).rest = x :: rest := by
        cases hrest : (c.pass c.blanks).rest with
        | nil => exact absurd (by rw [hrest]; rfl) hsome
        | cons x rest => exact ⟨x, rest, rfl⟩
      have hb := blanks_take c
      generalize c.pass c.blanks = d at hrest ⊢
      by_cases hx : x ∈ ['.', '[']
      · refine .bind_of_eq (skipGarbage_of_stop hrest hx) (skipGarbage_reads _ _ _) (.get ?_)
        have hprogress := segments_progress htells path hrest hx
          (Nat.lt_of_lt_of_eq (Nat.succ_pos _) (congrArg List.length hrest).symm)
        refine .bind ((segments_reads hfilter _ _ _).progress hprogress) fun further _ => ?_
        refine (ih further _).mono ?_
        rintro p w ⟨hp, hw⟩ v ⟨⟨hfurther, hv, -⟩, hne⟩ _ ⟨rfl, -⟩
        exact ⟨hp ∘ hfurther, by simpa using (hv.before hb hne).append hw⟩
      · refine .bind (skipGarbage_reads _ _ _) fun _ _ => .get ?_
        refine .bind (segments_reads hfilter _ _ _) fun further _ => (ih further _).mono ?_
        rintro p w _ v _ u ⟨-, hu⟩
        exact absurd (hu x (by rw [hrest]; rfl)) hx

end Parser

namespace Query

open Grammar

/-- What is read for a whole query. -/
theorem body_reads {filter : Parser Expr} (htells : filter.Tells)
    (hfilter : filter.Derives Disjunction) (c : Cursor) :
    Parser.Reads (body filter) c fun found w => found.2.WellFormed ∧ Grammar.Query w := by
  refine .element fun id => .element fun pathId => ?_
  refine .bind (Parser.rejectBlanks_reads _ _) fun _ _ => ?_
  refine .bind (Parser.identifier_reads _) fun identifier _ => .get ?_
  refine .bind (Parser.segments_reads hfilter _ _ _) fun path _ => .get ?_
  refine .bind (Parser.remainder_reads htells hfilter _ _ _) fun path' _ => .pure ?_
  rintro w ⟨hpath', hw⟩ v ⟨hpath, hv, -⟩ _ rfl _ rfl
  exact ⟨hpath' (hpath trivial), by simpa using Grammar.Query.mk (hv.append hw)⟩

theorem filterParser_derives (source : String) : (filterParser source).Derives Disjunction :=
  (Parser.expressions_derive _).disjunction

/-- A text without fault is a query, and its tree is well-formed. -/
theorem parse_sound {source : String} (h : (parse source).faults = []) :
    Grammar.Query source.toList ∧ (parse source).path.WellFormed := by
  have hreads := (body_reads (filterParser_tells source) (filterParser_derives source)
    (.ofChars source.toList)).reads
  have hrest := body_rest (filterParser_tells source) (.ofChars source.toList)
  rw [parse_faults, List.reverse_eq_nil_iff] at h
  rw [parse_path]
  generalize body (filterParser source) (.ofChars source.toList) = result at h hrest hreads ⊢
  obtain ⟨w, hw, hwf, hquery⟩ := hreads (by rw [h]; rfl)
  rw [hrest, List.append_nil] at hw
  exact ⟨by rwa [show source.toList = w from hw], hwf⟩

end Query

end JsonPath
