import JsonPath.Proofs.Syntax.Productions

/-!
The tokens of a query spell out its source. Every token stands where its range says, what was
skipped before it stands between the token before and it, and the last token is at the end.
This follows from the order in which a run cuts the source into tokens, which is the order of
the tree's leaves.
-/

namespace JsonPath

theorem Text.byteLength_eq_utf8ByteSize (chars : List Char) :
    byteLength chars = (String.ofList chars).utf8ByteSize := by
  induction chars with
  | nil => rfl
  | cons c rest ih =>
    have hcons : String.ofList (c :: rest) = String.singleton c ++ String.ofList rest := by simp
    rw [hcons, String.utf8ByteSize_append, String.utf8ByteSize_singleton, byteLength_cons, ih]

theorem Text.take_takeWhile_length (test : Char → Bool) (chars : List Char) :
    chars.take (chars.takeWhile test).length = chars.takeWhile test :=
  (List.prefix_iff_eq_take.mp (List.takeWhile_prefix _)).symm

/-- What stands in a text at a range, whose ends lie between characters. -/
def Range.Spans (r : Range) (chars part : List Char) : Prop :=
  ∃ before after, chars = before ++ part ++ after ∧ r.start = Text.byteLength before ∧
    r.stop = Text.byteLength (before ++ part)

/-- Tokens that follow each other without gaps in a text, with what is skipped before each. A
missing token has an empty range. -/
inductive Token.Tile (chars : List Char) : (start : Nat) → List Token → (stop : Nat) → Prop
  | nil (position : Nat) : Token.Tile chars position [] position
  | cons {start stop : Nat} {t : Token} {rest : List Token}
      (skipped : (⟨start, t.range.start⟩ : Range).Spans chars t.skipped.toList)
      (text : t.range.Spans chars t.text.toList)
      (missing : t.missing = true → t.range.isEmpty = true)
      (others : Token.Tile chars t.range.stop rest stop) :
      Token.Tile chars start (t :: rest) stop

theorem Token.Tile.append {chars : List Char} {start middle stop : Nat} {a b : List Token}
    (ha : Token.Tile chars start a middle) (hb : Token.Tile chars middle b stop) :
    Token.Tile chars start (a ++ b) stop := by
  induction ha with
  | nil => exact hb
  | cons skipped text missing _ ih => exact .cons skipped text missing (ih hb)

namespace Cursor

/-- The cursor is on its way through a text, of which `before` has become tokens. -/
structure Within (c : Cursor) (chars before : List Char) : Prop where
  text : chars = before ++ c.skipped ++ c.rest
  offset_eq : c.offset = Text.byteLength (before ++ c.skipped)

namespace Within

variable {c : Cursor} {chars before : List Char}

theorem ofChars (chars : List Char) : (Cursor.ofChars chars).Within chars [] := ⟨rfl, rfl⟩

theorem pass (h : c.Within chars before) (count : Nat) : (c.pass count).Within chars before where
  text := by simp [h.text, Cursor.pass]
  offset_eq := by simp [h.offset_eq, Cursor.pass, Nat.add_assoc]

/-- After a token, all that comes before the cursor has become tokens. -/
theorem take (h : c.Within chars before) (kind : TokenKind) (count : Nat) :
    (Parser.take kind count c).2.Within chars (before ++ c.skipped ++ c.rest.take count) where
  text := by simp [h.text, Parser.take, Cursor.pass]
  offset_eq := by simp [h.offset_eq, Parser.take, Cursor.pass, Nat.add_assoc]

theorem skipped_spans (h : c.Within chars before) :
    (⟨Text.byteLength before, c.offset⟩ : Range).Spans chars c.skipped :=
  ⟨before, c.rest, h.text, rfl, h.offset_eq⟩

theorem ahead_spans (h : c.Within chars before) (count : Nat) :
    (c.ahead count).Spans chars (c.rest.take count) := by
  refine ⟨before ++ c.skipped, c.rest.drop count, ?_, h.offset_eq, ?_⟩
  · simp [h.text]
  · simp [Cursor.ahead, h.offset_eq, Nat.add_assoc]

/-- A token of the next characters, missing only if there are none, tiles what it covers. -/
theorem take_tile (h : c.Within chars before) (kind : TokenKind) (count : Nat) (missing : Bool)
    (hmissing : missing = true → count = 0) :
    Token.Tile chars (Text.byteLength before)
      [{ (Parser.take kind count c).1 with missing := missing }]
      (Text.byteLength (before ++ c.skipped ++ c.rest.take count)) := by
  have hskipped := h.skipped_spans
  have hahead := h.ahead_spans count
  have hstop : (c.ahead count).stop =
      Text.byteLength (before ++ c.skipped ++ c.rest.take count) := by
    simp [Cursor.ahead, h.offset_eq, Nat.add_assoc]
  rw [← hstop]
  refine .cons ?_ ?_ ?_ (.nil _)
  · simpa [Parser.take, Cursor.ahead] using hskipped
  · simpa [Parser.take] using hahead
  · intro hm
    simp [Parser.take, Cursor.ahead, Range.isEmpty, hmissing hm]

end Within

/-- What a run cuts from the text are tokens without gaps, from the end of the last token before
the run to the end of the last one in it. -/
theorem Run.tile {a b : Cursor} {entries : List Entry} {chars before : List Char}
    (h : a.Run entries b) (ha : a.Within chars before) :
    ∃ before', b.Within chars before' ∧
      Token.Tile chars (Text.byteLength before) (Entry.tokens entries)
        (Text.byteLength before') := by
  induction h generalizing before with
  | stay => exact ⟨before, ha, .nil _⟩
  | blanks c => exact ⟨before, ha.pass _, .nil _⟩
  | garbage c fault count =>
    exact ⟨before, ⟨(ha.pass count).text, (ha.pass count).offset_eq⟩, .nil _⟩
  | report | element => exact ⟨before, ⟨ha.text, ha.offset_eq⟩, .nil _⟩
  | token c kind count =>
    exact ⟨_, ha.take kind count, ha.take_tile kind count false (by simp)⟩
  | missing c kind reported =>
    exact ⟨_, ha.take kind 0, ha.take_tile kind 0 true (by simp)⟩
  | append left right ihl ihr =>
    obtain ⟨before₁, hb, htile₁⟩ := ihl ha
    obtain ⟨before₂, hc, htile₂⟩ := ihr hb
    exact ⟨before₂, hc, by simpa using htile₁.append htile₂⟩

/-- A run loses nothing of the text. -/
theorem Run.text {a b : Cursor} {entries : List Entry} (h : a.Run entries b) :
    (Entry.tokens entries).flatMap (fun t => t.source.toList) ++ b.skipped ++ b.rest =
      a.skipped ++ a.rest := by
  induction h with
  | stay | report | element => simp [note]
  | blanks | garbage => simp [Cursor.pass, note]
  | token | missing => simp [Parser.missing_apply, Parser.take, Cursor.pass, Token.source]
  | append left right ihl ihr =>
    rw [← ihl, Entry.tokens_append, List.flatMap_append, List.append_assoc, List.append_assoc,
      ← List.append_assoc _ _ (Cursor.rest _), ihr, List.append_assoc]

theorem Run.length_le {a b : Cursor} {entries : List Entry} (h : a.Run entries b) :
    b.rest.length ≤ a.rest.length := by
  induction h with
  | stay | report | element => exact Nat.le_refl _
  | append _ _ ihl ihr => exact Nat.le_trans ihr ihl
  | blanks | garbage | token | missing =>
    simp only [Cursor.pass, note, Parser.take, Parser.missing_apply, List.length_drop]
    omega

/-- A run that hands out a token with a text comes closer to the end. -/
theorem Run.length_lt {a b : Cursor} {entries : List Entry} (h : a.Run entries b) {t : Token}
    (ht : t ∈ Entry.tokens entries) (hne : t.text ≠ "") : b.rest.length < a.rest.length := by
  induction h with
  | stay | blanks | garbage | report | element => simp at ht
  | token c kind count =>
    obtain rfl : t = _ := by simpa using ht
    cases hrest : c.rest with
    | nil => simp [Parser.take, hrest] at hne
    | cons x rest =>
      cases count with
      | zero => simp [Parser.take] at hne
      | succ count =>
        simp only [Parser.take, Cursor.pass, hrest, List.length_drop, List.length_cons]
        omega
  | missing c kind reported =>
    obtain rfl : t = _ := by simpa using ht
    simp [Parser.missing_apply, Parser.take] at hne
  | append left right ihl ihr =>
    rw [Entry.tokens_append, List.mem_append] at ht
    rcases ht with ht | ht
    · exact Nat.lt_of_le_of_lt right.length_le (ihl ht)
    · exact Nat.lt_of_lt_of_le (ihr ht) left.length_le

end Cursor

namespace Parser

theorem firstToken_mem (s : Segment) : s.firstToken ∈ Entry.tokens s.entries := by
  cases s with
  | shorthand id dots selector => simp [Segment.firstToken, Segment.entries]
  | bracketed id dots opening selectors closing =>
    cases dots <;> simp [Segment.firstToken, Segment.entries]

/-- A segment brings the cursor closer to the end. -/
theorem segment?_progress {filter : Parser Expr} (hfilter : filter.Tells) {c : Cursor}
    {segment : Segment} (h : (segment? filter c).1 = some segment) :
    (segment? filter c).2.rest.length < c.rest.length := by
  obtain ⟨entries, hrun, hfound⟩ := segment?_yields hfilter c
  refine hrun.length_lt (t := segment.firstToken) ?_ (hfound.text_ne segment h)
  simpa [hfound.entries_eq, h] using firstToken_mem segment

/-- Where a segment begins, the segments that follow bring the cursor closer to the end. -/
theorem segments_progress {filter : Parser Expr} (hfilter : filter.Tells) (path : Path)
    {c : Cursor} {x : Char} {rest : List Char} (hrest : c.rest = x :: rest) (hx : x ∈ ['.', '['])
    {rounds : Nat} (hrounds : 0 < rounds) :
    (segments filter rounds path c).2.rest.length < c.rest.length := by
  have hat : (c.pass c.blanks).isAt ['.'] = true ∨ (c.pass c.blanks).isAt ['['] = true := by
    have hx : x = '.' ∨ x = '[' := by simpa using hx
    rcases hx with rfl | rfl <;>
      simp [Cursor.isAt, Cursor.pass, Cursor.blanks, Cursor.isBlank, hrest]
  obtain ⟨rounds, rfl⟩ := Nat.exists_eq_add_of_lt hrounds
  rw [Nat.zero_add]
  obtain ⟨entries, hrun, hfound⟩ := segment?_yields hfilter c
  cases hs : (segment? filter c).1 with
  | none =>
    have hnone := hfound.of_none hs
    simp_all
  | some segment =>
    obtain ⟨more, hmore, -⟩ :=
      segments_yields hfilter rounds (.step path segment) (segment? filter c).2
    refine Nat.lt_of_le_of_lt ?_ (segment?_progress hfilter hs)
    simpa [segments, bind_apply, hs] using hmore.length_le

/-- Passing over garbage leads to one of the characters at which it stops, or to the end. -/
theorem skipGarbage_rest (wanted : Wanted) (stops : List Char) (c : Cursor) :
    (skipGarbage wanted stops c).2.rest = c.rest.dropWhile fun x => !stops.contains x := by
  unfold skipGarbage
  dsimp only
  have hsplit := List.takeWhile_append_dropWhile (p := fun x => !stops.contains x) (l := c.rest)
  split
  · rename_i hnil
    rw [List.isEmpty_iff] at hnil
    rw [hnil] at hsplit
    exact hsplit.symm
  · change c.rest.drop (c.rest.takeWhile _).length = _
    exact List.append_cancel_left
      ((List.prefix_iff_eq_append.mp (List.takeWhile_prefix _)).trans hsplit.symm)

/-- What comes after a path, garbage or a segment, is passed over. -/
theorem garbage_progress {filter : Parser Expr} (hfilter : filter.Tells) (path : Path)
    {c d : Cursor} {x : Char} {rest : List Char} (hrest : c.rest = x :: rest)
    (hd : d = (skipGarbage .endOfQuery ['.', '['] c).2) :
    (segments filter d.rest.length path d).2.rest.length < c.rest.length := by
  have hgarbage := skipGarbage_rest .endOfQuery ['.', '['] c
  rw [← hd] at hgarbage
  by_cases hx : x ∈ ['.', '[']
  · rw [skipGarbage_of_stop hrest hx] at hd
    subst hd
    exact segments_progress hfilter path hrest hx (by simp [hrest])
  · obtain ⟨more, hmore, -⟩ := segments_yields hfilter d.rest.length path d
    refine Nat.lt_of_le_of_lt hmore.length_le ?_
    rw [hgarbage, hrest, List.dropWhile_cons_of_pos (by simpa using hx)]
    exact Nat.lt_succ_of_le (List.dropWhile_suffix _).length_le

/-- What follows a path ends only at the end of the query. -/
theorem remainder_rest {filter : Parser Expr} (hfilter : filter.Tells) (rounds : Nat)
    (path : Path) {c : Cursor} (h : c.rest.length < rounds) :
    (remainder filter rounds path c).2.rest = [] := by
  induction rounds generalizing c path with
  | zero => omega
  | succ rounds ih =>
    have hblanks : (c.pass c.blanks).rest.length ≤ c.rest.length :=
      (Cursor.Run.blanks c).length_le
    rw [remainder, skipBlanks_bind, peek_bind]
    by_cases hnil : (c.pass c.blanks).rest = []
    · rw [hnil, List.head?_nil, Option.isNone_none, if_pos rfl]
      by_cases htrailing : (!(c.ahead c.blanks).isEmpty) = true
      · rw [if_pos htrailing]
        exact hnil
      · rw [if_neg htrailing]
        exact hnil
    · obtain ⟨x, rest, hrest⟩ := List.exists_cons_of_ne_nil hnil
      rw [hrest, List.head?_cons, Option.isNone_some, if_neg (by simp), bind_apply, get_bind,
        bind_apply]
      refine ih _ (Nat.lt_of_lt_of_le ?_ (Nat.le_of_lt_succ (Nat.lt_of_le_of_lt hblanks h)))
      exact garbage_progress hfilter path hrest rfl

end Parser

namespace Query

theorem body_rest {filter : Parser Expr} (hfilter : filter.Tells) (c : Cursor) :
    (body filter c).2.rest = [] :=
  Parser.remainder_rest hfilter _ _ (Nat.lt_succ_self _)

/-- How the filters of a source are read. -/
def filterParser (source : String) : Parser Expr :=
  (Parser.expressions (source.toList.length + 1)).disjunction

theorem filterParser_tells (source : String) : (filterParser source).Tells :=
  (Parser.expressions_tell _).disjunction

/-- A query is made of what its body gives and of the cursor after that. -/
theorem parse_eq (source : String) :
    parse source =
      let found := body (filterParser source) (.ofChars source.toList)
      { id := found.1.1
        path := found.1.2
        ending := (Parser.take .endOfQuery 0 found.2).1
        faults := found.2.faults.reverse
        elementCount := found.2.nextId + 1
        length := Text.byteLength source.toList } := by
  unfold parse
  simp only [StateT.run, parser_apply]
  rw [filterParser]
  simp only [Parser.take, Cursor.pass]

theorem parse_path (source : String) :
    (parse source).path = (body (filterParser source) (.ofChars source.toList)).1.2 := by
  simp only [parse_eq]

theorem parse_faults (source : String) :
    (parse source).faults =
      (body (filterParser source) (.ofChars source.toList)).2.faults.reverse := by
  simp only [parse_eq]

/-- The run that reads a query, up to the token at its end. -/
theorem parse_run (source : String) : ∃ last : Cursor,
    (Cursor.ofChars source.toList).Run
      (.element (parse source).id :: (parse source).path.entries) last ∧
    last.rest = [] ∧ (parse source).ending = (Parser.take .endOfQuery 0 last).1 ∧
    (parse source).elementCount = last.nextId + 1 := by
  obtain ⟨entries, hrun, hentries⟩ :=
    body_yields (filterParser_tells source) (.ofChars source.toList)
  refine ⟨(body (filterParser source) (.ofChars source.toList)).2, ?_,
    body_rest (filterParser_tells source) _, ?_, ?_⟩
  · rw [hentries] at hrun
    simpa only [parse_eq] using hrun
  · simp only [parse_eq]
  · simp only [parse_eq]

/-- The tokens of a query are its source: put together with what was skipped they spell it out,
each stands where its range says, and the last one is the end of the source. -/
theorem parse_lossless (source : String) :
    (parse source).source = source ∧
      Token.Tile source.toList 0 (parse source).tree.tokens source.utf8ByteSize ∧
      (parse source).tree.tokens.getLast? = some (parse source).ending ∧
      (parse source).ending.kind = .endOfQuery ∧
      (parse source).ending.range = ⟨source.utf8ByteSize, source.utf8ByteSize⟩ := by
  obtain ⟨last, hbody, hrest, hending, -⟩ := parse_run source
  have hrun : (Cursor.ofChars source.toList).Run (parse source).entries
      (Parser.take .endOfQuery 0 last).2 := by
    rw [entries, hending]
    exact hbody.append (.token last .endOfQuery 0)
  have htext := hrun.text
  obtain ⟨before, hwithin, htile⟩ := hrun.tile (.ofChars _)
  have hnil : (Parser.take .endOfQuery 0 last).2.rest = [] := by
    simp [Parser.take, Cursor.pass, hrest]
  have hbefore : before = source.toList := by
    have h := hwithin.text
    rw [hnil] at h
    simpa [Parser.take] using h.symm
  have hsize : Text.byteLength source.toList = source.utf8ByteSize := by
    rw [Text.byteLength_eq_utf8ByteSize, String.ofList_toList]
  rw [tokens_entries]
  refine ⟨?_, ?_, ?_, ?_, ?_⟩
  · rw [hnil] at htext
    rw [Query.source, ← String.toList_inj, tokens_entries]
    simpa [List.flatMap_map, Cursor.ofChars, Parser.take] using htext
  · rw [Text.byteLength_nil, hbefore, hsize] at htile
    exact htile
  · simp [entries]
  · rw [hending]
    rfl
  · have hoffset : last.offset = source.utf8ByteSize := by
      have h := hwithin.offset_eq
      rw [hbefore] at h
      simpa [Parser.take, Cursor.pass, hsize] using h
    rw [hending]
    simp [Parser.take, Cursor.ahead, hoffset]

end Query

end JsonPath
