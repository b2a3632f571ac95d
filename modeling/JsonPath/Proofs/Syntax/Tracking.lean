import JsonPath.Proofs.Syntax.Lossless
import JsonPath.Syntax.Scan

/-!
Reading by positions against reading by characters. A cursor stands at a place of its source: the
position is the length of what has been read, and the last token ended before what was skipped
since. At the places of cursors no check fails, and the steps by positions lead from the place of
one cursor to that of the next.
-/

namespace JsonPath

namespace Text

theorem dropBytes_append (before rest : List Char) :
    dropBytes (before ++ rest) (byteLength before) = some rest := by
  induction before with
  | nil => cases rest <;> rfl
  | cons c before ih =>
    have hpos := c.utf8Size_pos
    obtain ⟨count, hcount⟩ := Nat.exists_eq_add_of_lt hpos
    have hlength : byteLength (c :: before) = count + byteLength before + 1 := by
      rw [byteLength_cons]
      omega
    rw [hlength, List.cons_append, dropBytes, if_pos (by omega)]
    have hleft : count + byteLength before + 1 - c.utf8Size = byteLength before := by omega
    rw [hleft, ih]

theorem takeBytes_append (part rest : List Char) :
    takeBytes (part ++ rest) (byteLength part) = some part := by
  induction part with
  | nil => cases rest <;> rfl
  | cons c part ih =>
    have hpos := c.utf8Size_pos
    obtain ⟨count, hcount⟩ := Nat.exists_eq_add_of_lt hpos
    have hlength : byteLength (c :: part) = count + byteLength part + 1 := by
      rw [byteLength_cons]
      omega
    rw [hlength, List.cons_append, takeBytes, if_pos (by omega)]
    have hleft : count + byteLength part + 1 - c.utf8Size = byteLength part := by omega
    rw [hleft, ih, Option.map_some]

/-- There is a slice wherever a range starts and stops between characters. -/
theorem slice?_eq_some {chars part : List Char} {r : Range} (h : r.Spans chars part) :
    slice? chars r.start r.stop = some part := by
  obtain ⟨before, after, rfl, hstart, hstop⟩ := h
  rw [byteLength_append] at hstop
  have hlength : r.stop - r.start = byteLength part := by omega
  rw [slice?, if_pos (by omega), hlength, hstart, List.append_assoc, dropBytes_append,
    Option.bind_some, takeBytes_append]

end Text

namespace Cursor

/-- The place at which the cursor stands. -/
def place (c : Cursor) : Place :=
  ⟨c.offset, c.offset - Text.byteLength c.skipped, c.nextId, c.faults⟩

/-- The cursor is on its way through the source, and every fault has been found at a stretch of
it. -/
structure On (c : Cursor) (source : List Char) : Prop where
  within : ∃ before, c.Within source before
  faults : ∀ fault ∈ c.faults, ∃ part, fault.range.Spans source part

namespace On

variable {c d : Cursor} {source : List Char}

theorem ofChars (source : List Char) : (Cursor.ofChars source).On source :=
  ⟨⟨[], .ofChars source⟩, List.forall_mem_nil _⟩

theorem pass (h : c.On source) (count : Nat) : (c.pass count).On source := by
  obtain ⟨⟨before, hwithin⟩, hfaults⟩ := h
  exact ⟨⟨before, hwithin.pass count⟩, hfaults⟩

theorem ahead_spans (h : c.On source) (count : Nat) :
    (c.ahead count).Spans source (c.rest.take count) := by
  obtain ⟨before, hwithin⟩ := h.within
  exact hwithin.ahead_spans count

theorem skipped_spans (h : c.On source) :
    (⟨c.place.lastEnd, c.offset⟩ : Range).Spans source c.skipped := by
  obtain ⟨before, hwithin⟩ := h.within
  have hlast : c.place.lastEnd = Text.byteLength before := by
    rw [place, hwithin.offset_eq, Text.byteLength_append, Nat.add_sub_cancel]
  rw [hlast]
  exact hwithin.skipped_spans

theorem rest_spans (h : c.On source) :
    (⟨c.offset, Text.byteLength source⟩ : Range).Spans source c.rest := by
  obtain ⟨before, htext, hoffset⟩ := h.within
  exact ⟨before ++ c.skipped, [], by rw [List.append_nil, ← htext], hoffset, by rw [← htext]⟩

theorem note (h : c.On source) (fault : SyntaxFault) {range : Range} {part : List Char}
    (hrange : range.Spans source part) : (c.note fault range).On source := by
  obtain ⟨⟨before, htext, hoffset⟩, hfaults⟩ := h
  exact ⟨⟨before, htext, hoffset⟩, List.forall_mem_cons.mpr ⟨⟨part, hrange⟩, hfaults⟩⟩

theorem take (h : c.On source) (kind : TokenKind) (count : Nat) :
    (Parser.take kind count c).2.On source := by
  obtain ⟨⟨before, hwithin⟩, hfaults⟩ := h
  exact ⟨⟨_, hwithin.take kind count⟩, hfaults⟩

theorem element (h : c.On source) : { c with nextId := c.nextId + 1 : Cursor }.On source := by
  obtain ⟨⟨before, htext, hoffset⟩, hfaults⟩ := h
  exact ⟨⟨before, htext, hoffset⟩, hfaults⟩

theorem length_le (h : c.On source) : c.rest.length ≤ source.length := by
  obtain ⟨before, htext, -⟩ := h.within
  rw [htext, List.length_append]
  exact Nat.le_add_left _ _

/-- The less is left to read, the further on is the position. -/
theorem offset_lt (hc : c.On source) (hd : d.On source) (h : d.rest.length < c.rest.length) :
    c.offset < d.offset := by
  obtain ⟨before, hctext, hcoffset⟩ := hc.within
  obtain ⟨before', hdtext, hdoffset⟩ := hd.within
  rw [hcoffset, hdoffset]
  have hlength := congrArg List.length (hctext.symm.trans hdtext)
  simp only [List.length_append] at hlength
  rcases List.append_eq_append_iff.mp (hctext.symm.trans hdtext) with
    ⟨between, hbefore, hrest⟩ | ⟨between, hbefore, hrest⟩
  · rw [hbefore, Text.byteLength_append _ between]
    cases between with
    | nil =>
      rw [hrest, List.nil_append] at h
      omega
    | cons x between =>
      rw [Text.byteLength_cons]
      have := x.utf8Size_pos
      omega
  · rw [hrest, List.length_append] at h
    omega

end On

theorem place_pass (c : Cursor) (count : Nat) :
    (c.pass count).place = { c.place with position := (c.pass count).offset } := by
  rw [place, place, pass]
  dsimp only
  rw [Text.byteLength_append, Nat.add_sub_add_right]

theorem pass_pass (c : Cursor) (a b : Nat) : (c.pass a).pass b = c.pass (a + b) := by
  simp only [pass, List.drop_drop, List.take_add, Text.byteLength_append, List.append_assoc,
    Nat.add_assoc]

theorem pass_of_rest_nil {c : Cursor} (h : c.rest = []) (count : Nat) : c.pass count = c := by
  cases c
  obtain rfl := h
  simp [pass]

theorem byteLength_take_one {c : Cursor} {x : Char} (h : c.rest.head? = some x) :
    Text.byteLength (c.rest.take 1) = x.utf8Size := by
  obtain ⟨rest, hrest⟩ := List.head?_eq_some_iff.mp h
  simp [hrest]

theorem byteLength_take_mark {c : Cursor} {mark : List Char} (h : c.isAt mark = true) :
    Text.byteLength (c.rest.take mark.length) = Text.byteLength mark := by
  rw [← List.prefix_iff_eq_take.mp (List.isPrefixOf_iff_prefix.mp h)]

@[simp] theorem pass_zero (c : Cursor) : c.pass 0 = c := by
  simp [pass]

end Cursor

namespace Scan

variable {α β : Type} {source : List Char} {c : Cursor}

/-! ### What each step gives at the place of a cursor -/

theorem bind_apply {s : Scan α} {f : α → Scan β} {place place' : Place} {a : α}
    (h : s source place = .ok (a, place')) : (s >>= f) source place = f a source place' := by
  change (s source place >>= fun r => f r.1 source r.2) = _
  rw [h]
  rfl

theorem slice_apply {r : Range} {part : List Char} (h : r.Spans source part) (place : Place) :
    slice r.start r.stop source place = .ok (part, place) := by
  rw [slice, Text.slice?_eq_some h]

theorem range_apply {r : Range} {part : List Char} (h : r.Spans source part) (place : Place) :
    range r.start r.stop source place = .ok (r, place) :=
  bind_apply (slice_apply h place)

theorem rest_apply (hc : c.On source) : rest source c.place = .ok (c.rest, c.place) :=
  slice_apply hc.rest_spans c.place

theorem peek_apply (hc : c.On source) : peek source c.place = .ok (c.rest.head?, c.place) :=
  bind_apply (rest_apply hc)

theorem isAt_apply (hc : c.On source) (chars : List Char) :
    isAt chars source c.place = .ok (c.isAt chars, c.place) :=
  bind_apply (rest_apply hc)

theorem move_apply (c : Cursor) (count : Nat) :
    move (c.pass count).offset source c.place = .ok ((), (c.pass count).place) := by
  rw [Cursor.place_pass]
  rfl

theorem bump_apply (hc : c.On source) :
    bump source c.place = .ok (c.rest.head?, (c.pass 1).place) := by
  refine (bind_apply (peek_apply hc)).trans ?_
  cases hrest : c.rest with
  | nil => rw [Cursor.pass_of_rest_nil hrest]; rfl
  | cons x rest =>
    have hoffset : (c.pass 1).offset = c.offset + x.utf8Size := by simp [Cursor.pass, hrest]
    have hmove : move (c.offset + x.utf8Size) source c.place = .ok ((), (c.pass 1).place) := by
      rw [← hoffset, move_apply]
    exact (bind_apply (a := c.offset) rfl).trans (bind_apply hmove)

/-- Where something has been read, the reading goes on. -/
theorem advanced_apply {d : Cursor} (hc : c.On source) (hd : d.On source)
    (h : d.rest.length < c.rest.length) :
    advanced c.offset source d.place = .ok ((), d.place) :=
  if_pos (hc.offset_lt hd h)

theorem reset_apply (c : Cursor) (count : Nat) :
    reset c.offset source (c.pass count).place = .ok ((), c.place) := by
  rw [Cursor.place_pass]
  exact if_pos (Nat.sub_le _ _)

theorem bumpEach_apply (test : Char → Bool) {rounds : Nat} (hc : c.On source)
    (hrounds : c.rest.length < rounds) :
    bumpEach test rounds source c.place =
      .ok ((), (c.pass (c.rest.takeWhile test).length).place) := by
  induction rounds generalizing c with
  | zero => omega
  | succ rounds ih =>
    refine (bind_apply (a := c.offset) rfl).trans ((bind_apply (peek_apply hc)).trans ?_)
    cases hrest : c.rest with
    | nil => rw [List.takeWhile_nil, List.length_nil, Cursor.pass_zero]; rfl
    | cons x rest =>
      have hnext : (c.pass 1).rest = rest := by simp [Cursor.pass, hrest]
      rw [hrest] at hrounds
      cases htest : test x with
      | true =>
        rw [List.takeWhile_cons_of_pos htest]
        dsimp only [List.head?_cons]
        rw [if_pos htest]
        refine (bind_apply (bump_apply hc)).trans ?_
        refine (bind_apply (advanced_apply hc (hc.pass 1) ?_)).trans ?_
        · simp [hnext, hrest]
        · rw [ih (hc.pass 1) (by simpa [hnext] using hrounds), Cursor.pass_pass, hnext,
            List.length_cons, Nat.add_comm]
      | false =>
        rw [List.takeWhile_cons_of_neg (by simp [htest])]
        dsimp only [List.head?_cons]
        rw [if_neg (by simp [htest]), List.length_nil, Cursor.pass_zero]
        rfl

theorem bumpWhile_apply (test : Char → Bool) (hc : c.On source) :
    bumpWhile test source c.place =
      .ok (Text.byteLength (c.rest.takeWhile test),
        (c.pass (c.rest.takeWhile test).length).place) := by
  refine (bind_apply (a := c.offset) rfl).trans ((bind_apply (a := source.length + 1) rfl).trans ?_)
  refine (bind_apply (bumpEach_apply test hc (Nat.lt_succ_of_le hc.length_le))).trans ?_
  refine (bind_apply (a := (c.pass (c.rest.takeWhile test).length).offset) rfl).trans ?_
  have hlength : (c.pass (c.rest.takeWhile test).length).offset - c.offset =
      Text.byteLength (c.rest.takeWhile test) := by
    rw [Cursor.pass, Text.take_takeWhile_length, Nat.add_sub_cancel_left]
  rw [hlength]
  rfl

theorem skipBlanks_apply (hc : c.On source) :
    skipBlanks source c.place = .ok (c.ahead c.blanks, (c.pass c.blanks).place) := by
  refine (bind_apply (a := c.offset) rfl).trans ((bind_apply (bumpWhile_apply _ hc)).trans ?_)
  exact range_apply (hc.ahead_spans c.blanks) _

/-- The characters since the cursor become a token. -/
theorem token_apply (kind : TokenKind) (count : Nat) (hc : c.On source) :
    token kind c.offset source (c.pass count).place =
      .ok ((Parser.take kind count c).1, (Parser.take kind count c).2.place) := by
  have htext := hc.ahead_spans count
  rw [Cursor.place_pass]
  refine (bind_apply (a := c.nextId) rfl).trans ?_
  refine (bind_apply (a := (c.pass count).offset) rfl).trans ?_
  refine (bind_apply (slice_apply htext _)).trans ?_
  refine (bind_apply (a := c.place.lastEnd) rfl).trans ?_
  refine (bind_apply (slice_apply hc.skipped_spans _)).trans ?_
  exact (bind_apply (range_apply htext _)).trans rfl

/-- So many bytes become a token as characters have that length. -/
theorem eat_apply (kind : TokenKind) {count length : Nat}
    (hlength : Text.byteLength (c.rest.take count) = length) (hc : c.On source) :
    eat kind length source c.place =
      .ok ((Parser.take kind count c).1, (Parser.take kind count c).2.place) := by
  have hmove : move (c.offset + length) source c.place = .ok ((), (c.pass count).place) := by
    rw [← hlength]
    exact move_apply c count
  refine (bind_apply (a := c.offset) rfl).trans ((bind_apply hmove).trans ?_)
  exact token_apply kind count hc

theorem missing_apply (kind : TokenKind) (hc : c.On source) :
    missing kind source c.place =
      .ok ((Parser.missing kind c).1, (Parser.missing kind c).2.place) := by
  have htoken := token_apply kind 0 hc
  rw [Cursor.pass_zero] at htoken
  exact (bind_apply (a := c.offset) rfl).trans (bind_apply htoken)

theorem error_apply (fault : SyntaxFault) {r : Range} {part : List Char}
    (h : r.Spans source part) : error fault r source c.place = .ok ((), (c.note fault r).place) :=
  bind_apply (slice_apply h _)

theorem found_apply (hc : c.On source) : found source c.place = .ok (c.found, c.place) := by
  refine (bind_apply (peek_apply hc)).trans ?_
  rw [Cursor.found]
  cases c.rest <;> rfl

theorem nextRange_apply (hc : c.On source) :
    nextRange source c.place = .ok (c.ahead 1, c.place) := by
  refine (bind_apply (a := c.offset) rfl).trans ((bind_apply (peek_apply hc)).trans ?_)
  have hahead := range_apply (hc.ahead_spans 1) c.place
  cases hrest : c.rest with
  | nil =>
    have hstop : (c.ahead 1).stop = c.offset := by simp [Cursor.ahead, hrest]
    rwa [hstop] at hahead
  | cons x rest =>
    have hstop : (c.ahead 1).stop = c.offset + x.utf8Size := by simp [Cursor.ahead, hrest]
    rwa [hstop] at hahead

/-! ### Reading by positions follows reading by characters -/

/-- What the steps by positions come to is what the parser gives, at the place of the cursor that
it leaves. That cursor is no further from the end than `start`. -/
structure Agrees (source : List Char) (start : Cursor) (result : Except Mishap (α × Place))
    (given : α × Cursor) : Prop where
  eq_ok : result = .ok (given.1, given.2.place)
  on : given.2.On source
  length_le : given.2.rest.length ≤ start.rest.length

/-- At the place of `d`, which may be ahead of the parser, the steps by positions do as the parser
does at `c`. -/
def FollowsAt (source : List Char) (d : Cursor) (s : Scan α) (p : Parser α) (c : Cursor) : Prop :=
  c.On source → d.On source → Agrees source c (s source d.place) (p c)

/-- As `FollowsAt`, at the same place. -/
abbrev Follows (source : List Char) (s : Scan α) (p : Parser α) (c : Cursor) : Prop :=
  FollowsAt source c s p c

/-- As `FollowsAt`, where both have looked beyond the blanks at `c` and may go back. -/
def FollowsFrom (source : List Char) (s : Scan α) (p : Parser α) (c : Cursor) : Prop :=
  c.On source → Agrees source c (s source (c.pass c.blanks).place) (p (c.pass c.blanks))

namespace FollowsAt

variable {d : Cursor} {p : Parser α} {s : Scan α} {f : α → Scan β} {g : α → Parser β}

theorem bind (hp : FollowsAt source d s p c)
    (h : ∀ a e, p c = (a, e) → e.rest.length ≤ c.rest.length → Follows source (f a) (g a) e) :
    FollowsAt source d (s >>= f) (p >>= g) c := by
  intro hc hd
  obtain ⟨heq, hon, hle⟩ := hp hc hd
  obtain ⟨heq', hon', hle'⟩ := h (p c).1 (p c).2 rfl hle hon hon
  exact ⟨(bind_apply heq).trans heq', hon', Nat.le_trans hle' hle⟩

/-- That the cursor is on its way may be assumed. -/
theorem on (h : c.On source → FollowsAt source d s p c) : FollowsAt source d s p c :=
  fun hc hd => h hc hc hd

theorem congr {q : Parser α} (hp : p c = q c) (h : FollowsAt source d s q c) :
    FollowsAt source d s p c := by
  intro hc hd
  rw [hp]
  exact h hc hd

theorem pure (a : α) : Follows source (Pure.pure a) (Pure.pure a) c :=
  fun hc _ => ⟨rfl, hc, Nat.le_refl _⟩

theorem map {f : α → β} (h : FollowsAt source d s p c) :
    FollowsAt source d (f <$> s) (f <$> p) c := by
  intro hc hd
  obtain ⟨heq, hon, hle⟩ := h hc hd
  refine ⟨?_, hon, hle⟩
  change (s source d.place >>= fun r => .ok (f r.1, r.2)) = _
  rw [heq]
  rfl

/-- A step by positions that leads from the place of one cursor to that of another. -/
theorem step {x : Scan β} {f : β → Scan α} {b : β} {e : Cursor}
    (hx : d.On source → x source d.place = .ok (b, e.place)) (he : d.On source → e.On source)
    (h : FollowsAt source e (f b) p c) : FollowsAt source d (x >>= f) p c := by
  intro hc hd
  obtain ⟨heq, hon, hle⟩ := h hc (he hd)
  exact ⟨(bind_apply (hx hd)).trans heq, hon, hle⟩

/-! #### Steps by positions alone -/

theorem position {f : Nat → Scan α} (h : FollowsAt source d (f d.offset) p c) :
    FollowsAt source d (Scan.position >>= f) p c :=
  step (fun _ => rfl) id h

theorem budget {f : Nat → Scan α} (h : FollowsAt source d (f (source.length + 1)) p c) :
    FollowsAt source d (Scan.budget >>= f) p c :=
  step (fun _ => rfl) id h

theorem length {f : Nat → Scan α}
    (h : FollowsAt source d (f (Text.byteLength source)) p c) :
    FollowsAt source d (Scan.length >>= f) p c :=
  step (fun _ => rfl) id h

theorem peek {f : Option Char → Scan α} (h : FollowsAt source d (f d.rest.head?) p c) :
    FollowsAt source d (Scan.peek >>= f) p c :=
  step peek_apply id h

theorem isAt {f : Bool → Scan α} {chars : List Char}
    (h : FollowsAt source d (f (d.isAt chars)) p c) :
    FollowsAt source d (Scan.isAt chars >>= f) p c :=
  step (isAt_apply · chars) id h

theorem bump {f : Option Char → Scan α} (h : FollowsAt source (d.pass 1) (f d.rest.head?) p c) :
    FollowsAt source d (Scan.bump >>= f) p c :=
  step bump_apply (·.pass 1) h

theorem bumpWhile {f : Nat → Scan α} {test : Char → Bool}
    (h : FollowsAt source (d.pass (d.rest.takeWhile test).length)
      (f (Text.byteLength (d.rest.takeWhile test))) p c) :
    FollowsAt source d (Scan.bumpWhile test >>= f) p c :=
  step (bumpWhile_apply test) (·.pass _) h

theorem skipBlanks {f : Range → Scan α}
    (h : FollowsAt source (d.pass d.blanks) (f (d.ahead d.blanks)) p c) :
    FollowsAt source d (Scan.skipBlanks >>= f) p c :=
  step skipBlanks_apply (·.pass _) h

theorem slice {f : List Char → Scan α} {r : Range} {part : List Char}
    (hr : c.On source → r.Spans source part) (h : FollowsAt source d (f part) p c) :
    FollowsAt source d (Scan.slice r.start r.stop >>= f) p c := by
  intro hc hd
  exact step (fun _ => slice_apply (hr hc) _) id h hc hd

theorem range {f : Range → Scan α} {r : Range} {part : List Char}
    (hr : c.On source → r.Spans source part) (h : FollowsAt source d (f r) p c) :
    FollowsAt source d (Scan.range r.start r.stop >>= f) p c := by
  intro hc hd
  exact step (fun _ => range_apply (hr hc) _) id h hc hd

/-- Going back to where the steps by positions have been before. -/
theorem reset {f : Unit → Scan α} {count : Nat} (hd : c.On source → d.On source)
    (h : FollowsAt source d (f ()) p c) :
    FollowsAt source (d.pass count) (Scan.reset d.offset >>= f) p c := by
  intro hc _
  obtain ⟨heq, hon, hle⟩ := h hc (hd hc)
  exact ⟨(bind_apply (reset_apply d count)).trans heq, hon, hle⟩

theorem advanced {f : Unit → Scan α} {e : Cursor} (he : e.On source)
    (hlt : d.rest.length < e.rest.length) (h : FollowsAt source d (f ()) p c) :
    FollowsAt source d (Scan.advanced e.offset >>= f) p c :=
  step (fun hd => advanced_apply he hd hlt) id h

/-! #### Steps of both -/

theorem freshId {f : Nat → Scan α} {g : Nat → Parser α}
    (h : ∀ id, Follows source (f id) (g id) { c with nextId := c.nextId + 1 }) :
    Follows source (Scan.freshId >>= f) (Parser.freshId >>= g) c := by
  intro hc _
  obtain ⟨heq, hon, hle⟩ := h c.nextId hc.element hc.element
  exact ⟨(bind_apply (a := c.nextId) rfl).trans heq, hon, hle⟩

/-- The parser looks at its cursor. -/
theorem get {g : Cursor → Parser α} (h : FollowsAt source d s (g c) c) :
    FollowsAt source d s (MonadState.get >>= g) c :=
  h

/-- The parser looks at what comes next. -/
theorem isAtNext {g : Bool → Parser α} {chars : List Char}
    (h : FollowsAt source d s (g (c.isAt chars)) c) :
    FollowsAt source d s (Parser.isAt chars >>= g) c :=
  h

theorem peekNext {g : Option Char → Parser α} (h : FollowsAt source d s (g c.rest.head?) c) :
    FollowsAt source d s (Parser.peek >>= g) c :=
  h

theorem peekBoth {f : Option Char → Scan α} {g : Option Char → Parser α}
    (h : Follows source (f c.rest.head?) (g c.rest.head?) c) :
    Follows source (Scan.peek >>= f) (Parser.peek >>= g) c :=
  fun hc hd => peek h hc hd

theorem isAtBoth {f : Bool → Scan α} {g : Bool → Parser α} {chars : List Char}
    (h : Follows source (f (c.isAt chars)) (g (c.isAt chars)) c) :
    Follows source (Scan.isAt chars >>= f) (Parser.isAt chars >>= g) c :=
  fun hc hd => isAt h hc hd

theorem skipBoth {f : Range → Scan α} {g : Range → Parser α}
    (h : Follows source (f (c.ahead c.blanks)) (g (c.ahead c.blanks)) (c.pass c.blanks)) :
    Follows source (Scan.skipBlanks >>= f) (Parser.skipBlanks >>= g) c := by
  intro hc _
  obtain ⟨heq, hon, hle⟩ := h (hc.pass _) (hc.pass _)
  refine ⟨(bind_apply (skipBlanks_apply hc)).trans heq, hon, Nat.le_trans hle ?_⟩
  exact (Cursor.Run.blanks c).length_le

theorem token (kind : TokenKind) (count : Nat) :
    FollowsAt source (c.pass count) (Scan.token kind c.offset) (Parser.take kind count) c :=
  fun hc _ => ⟨token_apply kind count hc, hc.take kind count,
    (Cursor.Run.token c kind count).length_le⟩

theorem eat (kind : TokenKind) {count length : Nat}
    (hlength : Text.byteLength (c.rest.take count) = length) :
    Follows source (Scan.eat kind length) (Parser.take kind count) c :=
  fun hc _ => ⟨eat_apply kind hlength hc, hc.take kind count,
    (Cursor.Run.token c kind count).length_le⟩

theorem missing (kind : TokenKind) :
    Follows source (Scan.missing kind) (Parser.missing kind) c :=
  fun hc _ => ⟨missing_apply kind hc, hc.take kind 0, (Cursor.Run.token c kind 0).length_le⟩

theorem error (fault : SyntaxFault) {r : Range} (hr : c.On source → ∃ part, r.Spans source part) :
    Follows source (Scan.error fault r) (Parser.report fault r) c := by
  intro hc _
  obtain ⟨part, hspans⟩ := hr hc
  exact ⟨error_apply fault hspans, hc.note fault hspans, Nat.le_refl _⟩

/-- Reporting while the steps by positions are ahead of the parser. -/
theorem report {f : Unit → Scan α} {g : Unit → Parser α} {fault : SyntaxFault} {r : Range}
    {count : Nat} (hr : c.On source → ∃ part, r.Spans source part)
    (h : FollowsAt source ((c.note fault r).pass count) (f ()) (g ()) (c.note fault r)) :
    FollowsAt source (c.pass count) (Scan.error fault r >>= f) (Parser.report fault r >>= g) c := by
  intro hc _
  obtain ⟨part, hspans⟩ := hr hc
  have hnote := hc.note fault hspans
  obtain ⟨heq, hon, hle⟩ := h hnote (hnote.pass count)
  exact ⟨(bind_apply (error_apply fault hspans)).trans heq, hon, hle⟩

/-- The parser passes over what the steps by positions have passed over. -/
theorem catchUp {g : PUnit → Parser α} {count : Nat} (h : Follows source s (g ⟨⟩) (c.pass count)) :
    FollowsAt source (c.pass count) s (modify (·.pass count) >>= g) c := by
  intro _ hd
  obtain ⟨heq, hon, hle⟩ := h hd hd
  exact ⟨heq, hon, Nat.le_trans hle (List.drop_suffix _ _).length_le⟩

end FollowsAt

/-- What is known of a token of the next `count` characters and the cursor after it. -/
structure Taken (source : List Char) (c : Cursor) (count : Nat) (t : Token) (e : Cursor) :
    Prop where
  rest : e.rest = c.rest.drop count
  spans : ∃ part, t.range.Spans source part

/-- A token of at least one character brings the cursor closer to the end. -/
theorem Taken.length_lt {count : Nat} {t : Token} {e : Cursor} {x : Char}
    (h : Taken source c count t e) (hcount : 0 < count) (hnext : c.rest.head? = some x) :
    e.rest.length < c.rest.length := by
  obtain ⟨rest, hrest⟩ := List.head?_eq_some_iff.mp hnext
  rw [h.rest, hrest, List.length_drop, List.length_cons]
  omega

theorem Taken.mark_lt (mark : List Char) {t : Token} {e : Cursor}
    (h : Taken source c mark.length t e) (hat : c.isAt mark = true) (hne : mark ≠ []) :
    e.rest.length < c.rest.length := by
  obtain ⟨rest, hrest⟩ := List.isPrefixOf_iff_prefix.mp hat
  have hpos := List.length_pos_iff.mpr hne
  rw [h.rest, ← hrest, List.drop_left, List.length_append]
  omega

namespace FollowsAt

variable {p : Parser α}

theorem token_bind {f : Token → Scan α} {g : Token → Parser α} {kind : TokenKind} {count : Nat}
    (h : ∀ t e, Taken source c count t e → Follows source (f t) (g t) e) :
    FollowsAt source (c.pass count) (Scan.token kind c.offset >>= f)
      (Parser.take kind count >>= g) c := by
  intro hc hd
  refine bind (token kind count) (fun t e hte _ => h t e ?_) hc hd
  cases hte
  exact ⟨rfl, _, hc.ahead_spans count⟩

theorem eat_bind {f : Token → Scan α} {g : Token → Parser α} {kind : TokenKind}
    {count length : Nat} (hlength : Text.byteLength (c.rest.take count) = length)
    (h : ∀ t e, Taken source c count t e → Follows source (f t) (g t) e) :
    Follows source (Scan.eat kind length >>= f) (Parser.take kind count >>= g) c := by
  intro hc hd
  refine bind (eat kind hlength) (fun t e hte _ => h t e ?_) hc hd
  cases hte
  exact ⟨rfl, _, hc.ahead_spans count⟩

/-- A production that is entered again after something has been read. -/
theorem after {s : Scan α} {e : Cursor} (he : e.On source)
    (hlt : c.rest.length < e.rest.length) (h : Follows source s p c) :
    Follows source (Scan.after e.offset s) p c :=
  advanced he hlt h

end FollowsAt

namespace FollowsFrom

variable {p : Parser α} {s : Scan α}

/-- Looking beyond the blanks that come next. -/
theorem lookAhead {f : Nat → Range → Scan α} {g : Cursor → Range → Parser α}
    (h : FollowsFrom source (f c.offset (c.ahead c.blanks)) (g c (c.ahead c.blanks)) c) :
    Follows source (do let saved ← position; let range ← Scan.skipBlanks; f saved range)
      (do let d ← get; let range ← Parser.skipBlanks; g d range) c := by
  intro hc _
  obtain ⟨heq, hon, hle⟩ := h hc
  refine ⟨(bind_apply (a := c.offset) rfl).trans ?_, hon, hle⟩
  exact (bind_apply (skipBlanks_apply hc)).trans heq

theorem isAt {f : Bool → Scan α} {g : Bool → Parser α} {chars : List Char}
    (h : FollowsFrom source (f ((c.pass c.blanks).isAt chars))
      (g ((c.pass c.blanks).isAt chars)) c) :
    FollowsFrom source (Scan.isAt chars >>= f) (Parser.isAt chars >>= g) c := by
  intro hc
  obtain ⟨heq, hon, hle⟩ := h hc
  exact ⟨(bind_apply (isAt_apply (hc.pass _) chars)).trans heq, hon, hle⟩

theorem goOn (h : Follows source s p (c.pass c.blanks)) : FollowsFrom source s p c := by
  intro hc
  obtain ⟨heq, hon, hle⟩ := h (hc.pass _) (hc.pass _)
  exact ⟨heq, hon, Nat.le_trans hle (Cursor.Run.blanks c).length_le⟩

theorem goBack {f : Unit → Scan α} {g : PUnit → Parser α} (h : Follows source (f ()) (g ⟨⟩) c) :
    FollowsFrom source (reset c.offset >>= f) (set c >>= g) c := by
  intro hc
  obtain ⟨heq, hon, hle⟩ := h hc hc
  exact ⟨(bind_apply (reset_apply c _)).trans heq, hon, hle⟩

end FollowsFrom

end Scan

end JsonPath
