import JsonPath.Proofs.Syntax.Entries

/-!
Runs of the parser. A run is a sequence of steps of the cursor: blanks and reported garbage are
passed over, faults are noted, and numbers and tokens are handed out. Every production is a run
that hands out the entries of the element it gives, in their order.
-/

namespace JsonPath

namespace Cursor

/-- The cursor with one more fault. -/
def note (c : Cursor) (fault : SyntaxFault) (range : Range) : Cursor :=
  { c with faults := ⟨fault, range⟩ :: c.faults }

/-- Getting from one cursor to another, with what is handed out on the way. A token without
text is made only after something has been reported. -/
inductive Run : Cursor → List Entry → Cursor → Prop
  | stay (c : Cursor) : Run c [] c
  | blanks (c : Cursor) : Run c [] (c.pass c.blanks)
  | garbage (c : Cursor) (fault : SyntaxFault) (count : Nat) :
      Run c [] ((c.pass count).note fault (c.ahead count))
  | report (c : Cursor) (fault : SyntaxFault) (range : Range) : Run c [] (c.note fault range)
  | element (c : Cursor) : Run c [.element c.nextId] { c with nextId := c.nextId + 1 }
  | token (c : Cursor) (kind : TokenKind) (count : Nat) :
      Run c [.token (Parser.take kind count c).1] (Parser.take kind count c).2
  | missing (c : Cursor) (kind : TokenKind) (reported : c.faults ≠ []) :
      Run c [.token (Parser.missing kind c).1] (Parser.missing kind c).2
  | append {a b c : Cursor} {first second : List Entry} (left : Run a first b)
      (right : Run b second c) : Run a (first ++ second) c

/-- A run only adds to the faults. -/
theorem Run.faults_suffix {a b : Cursor} {entries : List Entry} (h : a.Run entries b) :
    a.faults <:+ b.faults := by
  induction h with
  | stay | blanks | element | token | missing => exact List.suffix_refl _
  | garbage | report => exact List.suffix_cons _ _
  | append _ _ ihl ihr => exact ihl.trans ihr

end Cursor

namespace Parser

variable {α β : Type}

theorem bind_apply (p : Parser α) (f : α → Parser β) (c : Cursor) :
    (p >>= f) c = f (p c).1 (p c).2 := rfl

theorem pure_apply (a : α) (c : Cursor) : (pure a : Parser α) c = (a, c) := rfl

theorem map_apply (f : α → β) (p : Parser α) (c : Cursor) :
    (f <$> p) c = (f (p c).1, (p c).2) := rfl

theorem get_bind (f : Cursor → Parser β) (c : Cursor) : (get >>= f) c = f c c := rfl

theorem peek_bind (f : Option Char → Parser β) (c : Cursor) : (peek >>= f) c = f c.rest.head? c :=
  rfl

theorem isAt_bind (chars : List Char) (f : Bool → Parser β) (c : Cursor) :
    (isAt chars >>= f) c = f (c.isAt chars) c := rfl

theorem skipBlanks_bind (f : Range → Parser β) (c : Cursor) :
    (skipBlanks >>= f) c = f (c.ahead c.blanks) (c.pass c.blanks) := rfl

theorem missing_apply (kind : TokenKind) (c : Cursor) :
    missing kind c = ({ (take kind 0 c).1 with missing := true }, (take kind 0 c).2) := rfl

/-- From a cursor the parser makes a run, of whose result and entries something holds. -/
def Yields (p : Parser α) (c : Cursor) (P : α → List Entry → Prop) : Prop :=
  ∃ entries, c.Run entries (p c).2 ∧ P (p c).1 entries

/-- As `Yields`, for a parser that goes on from a cursor further on or goes back to `start`. -/
def YieldsFrom (start : Cursor) (p : Parser α) (c : Cursor) (P : α → List Entry → Prop) : Prop :=
  ∃ entries, start.Run entries (p c).2 ∧ P (p c).1 entries

theorem take_text_ne {c : Cursor} {chars : List Char} {kind : TokenKind} {count : Nat}
    (hchars : c.isAt chars = true) (hne : chars ≠ []) (hcount : 0 < count) :
    (take kind count c).1.text ≠ "" := by
  obtain ⟨rest, hrest⟩ := List.isPrefixOf_iff_prefix.mp hchars
  obtain ⟨x, tail, rfl⟩ := List.exists_cons_of_ne_nil hne
  obtain ⟨n, rfl⟩ := Nat.exists_eq_add_of_lt hcount
  simp [take, ← hrest]

namespace Yields

variable {p : Parser α} {f : α → Parser β} {c : Cursor} {P : α → List Entry → Prop}
  {Q : β → List Entry → Prop}

theorem pure {a : α} (h : P a []) : Yields (Pure.pure a) c P := ⟨[], .stay c, h⟩

theorem bind_of_eq {a : α} {d : Cursor} (heq : p c = (a, d)) (hp : Yields p c P)
    (hf : ∀ entries, P a entries → Yields (f a) d fun b more => Q b (entries ++ more)) :
    Yields (p >>= f) c Q := by
  obtain ⟨entries, hrun, ha⟩ := hp
  rw [heq] at hrun ha
  obtain ⟨more, hmore, hb⟩ := hf entries ha
  refine ⟨entries ++ more, hrun.append ?_, ?_⟩
  · simpa only [bind_apply, heq] using hmore
  · simpa only [bind_apply, heq] using hb

theorem bind (hp : Yields p c P)
    (hf : ∀ a entries, P a entries → Yields (f a) (p c).2 fun b more => Q b (entries ++ more)) :
    Yields (p >>= f) c Q :=
  bind_of_eq rfl hp (hf _)

theorem mono {P' : α → List Entry → Prop} (hp : Yields p c P)
    (h : ∀ a entries, P a entries → P' a entries) : Yields p c P' := by
  obtain ⟨entries, hrun, ha⟩ := hp
  exact ⟨entries, hrun, h _ _ ha⟩

theorem map {g : α → β} (hp : Yields p c fun a entries => Q (g a) entries) :
    Yields (g <$> p) c Q := hp

theorem get {f : Cursor → Parser β} (h : Yields (f c) c Q) : Yields (MonadState.get >>= f) c Q := h

theorem isAt {f : Bool → Parser β} {chars : List Char} (h : Yields (f (c.isAt chars)) c Q) :
    Yields (Parser.isAt chars >>= f) c Q := h

theorem peek {f : Option Char → Parser β} (h : Yields (f c.rest.head?) c Q) :
    Yields (Parser.peek >>= f) c Q := h

theorem report {f : Unit → Parser β} {fault : SyntaxFault} {range : Range}
    (h : Yields (f ()) (c.note fault range) Q) : Yields (Parser.report fault range >>= f) c Q := by
  obtain ⟨entries, hrun, hb⟩ := h
  exact ⟨_, Cursor.Run.append (.report c fault range) hrun, hb⟩

theorem reportFound {f : Unit → Parser β} {wanted : Wanted}
    (h : Yields (f ()) (c.note (.expected wanted c.found) (c.ahead 1)) Q) :
    Yields (Parser.reportFound wanted >>= f) c Q :=
  report h

theorem skipBlanks {f : Range → Parser β}
    (h : Yields (f (c.ahead c.blanks)) (c.pass c.blanks) Q) :
    Yields (Parser.skipBlanks >>= f) c Q := by
  obtain ⟨entries, hrun, hb⟩ := h
  exact ⟨_, Cursor.Run.append (.blanks c) hrun, hb⟩

/-- Looking beyond the blanks that come next. -/
theorem lookAhead {f : Cursor → Range → Parser β}
    (h : YieldsFrom c (f c (c.ahead c.blanks)) (c.pass c.blanks) Q) :
    Yields (do let d ← MonadState.get; let range ← Parser.skipBlanks; f d range) c Q := h

theorem take {f : Token → Parser β} {kind : TokenKind} {count : Nat}
    (h : ∀ t, Yields (f t) (Parser.take kind count c).2 fun b more => Q b (.token t :: more)) :
    Yields (Parser.take kind count >>= f) c Q := by
  obtain ⟨entries, hrun, hb⟩ := h (Parser.take kind count c).1
  exact ⟨_, Cursor.Run.append (.token c kind count) hrun, hb⟩

/-- As `take`, where characters are known to come next. -/
theorem takeNext {f : Token → Parser β} {kind : TokenKind} {count : Nat} {chars : List Char}
    (hchars : c.isAt chars = true) (hne : chars ≠ []) (hcount : 0 < count)
    (h : ∀ t : Token, t.text ≠ "" →
      Yields (f t) (Parser.take kind count c).2 fun b more => Q b (.token t :: more)) :
    Yields (Parser.take kind count >>= f) c Q := by
  obtain ⟨entries, hrun, hb⟩ := h (Parser.take kind count c).1 (take_text_ne hchars hne hcount)
  exact ⟨_, Cursor.Run.append (.token c kind count) hrun, hb⟩

theorem missing {f : Token → Parser β} {kind : TokenKind} (hc : c.faults ≠ [])
    (h : ∀ t, Yields (f t) (Parser.missing kind c).2 fun b more => Q b (.token t :: more)) :
    Yields (Parser.missing kind >>= f) c Q := by
  obtain ⟨entries, hrun, hb⟩ := h (Parser.missing kind c).1
  exact ⟨_, Cursor.Run.append (.missing c kind hc) hrun, hb⟩

theorem garbage {q : Parser β} {fault : SyntaxFault} {count : Nat}
    (h : Yields q ((c.pass count).note fault (c.ahead count)) Q) :
    Yields (do Parser.report fault (c.ahead count); modify (·.pass count); q) c Q := by
  obtain ⟨entries, hrun, hb⟩ := h
  exact ⟨_, Cursor.Run.append (.garbage c fault count) hrun, hb⟩

/-- A parser that hands out nothing may come first. -/
theorem silent {γ : Type} {p : Parser γ} {f : γ → Parser β}
    (hp : Yields p c fun _ entries => entries = []) (h : ∀ a d, Yields (f a) d Q) :
    Yields (p >>= f) c Q := by
  obtain ⟨_, hrun, rfl⟩ := hp
  obtain ⟨entries, hmore, hb⟩ := h (p c).1 (p c).2
  exact ⟨_, hrun.append hmore, hb⟩

/-- A number is handed out before all other entries. -/
theorem element {f : Nat → Parser β}
    (h : ∀ id, Yields (f id) { c with nextId := c.nextId + 1 }
      fun b more => Q b (.element id :: more)) :
    Yields (freshId >>= f) c Q := by
  obtain ⟨entries, hrun, hb⟩ := h c.nextId
  exact ⟨_, Cursor.Run.append (.element c) hrun, hb⟩

end Yields

namespace YieldsFrom

variable {p : Parser α} {start c : Cursor} {P : α → List Entry → Prop}

theorem isAt {f : Bool → Parser α} {chars : List Char}
    (h : YieldsFrom start (f (c.isAt chars)) c P) :
    YieldsFrom start (Parser.isAt chars >>= f) c P := h

theorem goOn (h : Yields p (start.pass start.blanks) P) :
    YieldsFrom start p (start.pass start.blanks) P := by
  obtain ⟨entries, hrun, ha⟩ := h
  exact ⟨entries, Cursor.Run.append (.blanks start) hrun, ha⟩

theorem goBack {f : PUnit → Parser α} (h : Yields (f ⟨⟩) start P) :
    YieldsFrom start (set start >>= f) c P := h

end YieldsFrom

theorem take_yields (kind : TokenKind) (count : Nat) (c : Cursor) :
    Yields (take kind count) c fun t entries => entries = [.token t] :=
  ⟨_, .token c kind count, rfl⟩

theorem missing_yields (kind : TokenKind) {c : Cursor} (h : c.faults ≠ []) :
    Yields (missing kind) c fun t entries => entries = [.token t] :=
  ⟨_, .missing c kind h, rfl⟩

theorem rejectBlanks_yields (fault : SyntaxFault) (c : Cursor) :
    Yields (rejectBlanks fault) c fun _ entries => entries = [] := by
  refine .skipBlanks ?_
  split
  · exact .report (.pure rfl)
  · exact .pure rfl

theorem skipGarbage_of_stop {wanted : Wanted} {stops : List Char} {c : Cursor} {x : Char}
    {rest : List Char} (h : c.rest = x :: rest) (hx : x ∈ stops) :
    skipGarbage wanted stops c = ((), c) := by
  unfold skipGarbage
  rw [h, List.takeWhile_cons_of_neg (by simp [hx])]
  rfl

theorem skipGarbage_yields (wanted : Wanted) (stops : List Char) (c : Cursor) :
    Yields (skipGarbage wanted stops) c fun _ entries => entries = [] := by
  unfold Yields skipGarbage
  dsimp only
  split
  · exact ⟨_, .stay c, rfl⟩
  · exact ⟨_, .garbage c _ _, rfl⟩

end Parser

end JsonPath
