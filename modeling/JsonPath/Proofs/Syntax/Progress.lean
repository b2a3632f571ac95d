import JsonPath.Proofs.Syntax.Extents
import JsonPath.Proofs.Syntax.Literals
import JsonPath.Proofs.Syntax.Reading

/-!
The productions of the grammar by positions. Every loop reads something in each of its rounds, and
an expression is read again inside itself only after something of it has been read, so rounds and
depths as the length of the source bounds them are enough.
-/

namespace JsonPath

namespace Scan

variable {source : List Char} {c : Cursor}

/-- Readers of expressions agree wherever less than `limit` characters are left. -/
def Below (source : List Char) (limit : Nat) (s : Scan Expr) (p : Parser Expr) : Prop :=
  ∀ c : Cursor, c.rest.length < limit → Follows source s p c

theorem Below.mono {limit limit' : Nat} {s : Scan Expr} {p : Parser Expr}
    (h : Below source limit s p) (hle : limit' ≤ limit) : Below source limit' s p :=
  fun c hc => h c (Nat.lt_of_lt_of_le hc hle)

/-- An expression is entered again only where less is left than at the cursor. -/
theorem Below.after {s : Scan Expr} {p : Parser Expr} (hc : c.On source)
    (h : Below source c.rest.length s p) :
    Below source c.rest.length (Scan.after c.offset s) p :=
  fun d hd => .after hc hd (h d hd)

/-! ### Selectors -/

theorem stepPart?_follows (c : Cursor) : Follows source stepPart? Parser.stepPart? c := by
  refine FollowsFrom.lookAhead (.isAt ?_)
  split
  · rename_i hcolon
    exact .goOn (.eat_bind (Cursor.byteLength_take_mark hcolon) fun _ _ _ =>
      .skipBoth (.bind (bound?_follows _) fun _ _ _ _ => .pure _))
  · exact .goBack (.pure none)

theorem indexOrSlice_follows (c : Cursor) : Follows source indexOrSlice Parser.indexOrSlice c := by
  refine .freshId fun id => .bind (bound?_follows _) fun start d _ _ => ?_
  refine FollowsFrom.lookAhead (.isAt ?_)
  split
  · rename_i hcolon
    refine .goOn (.eat_bind (Cursor.byteLength_take_mark hcolon) fun _ _ _ => .skipBoth ?_)
    exact .bind (bound?_follows _) fun _ _ _ _ => .bind (stepPart?_follows _) fun _ _ _ _ => .pure _
  · refine .goBack ?_
    split
    · exact .pure _
    · exact .bind (.missing _) fun _ _ _ _ => .pure _

theorem missingSelector_follows (c : Cursor) :
    Follows source missingSelector Parser.missingSelector c :=
  .freshId fun _ => .bind (reportFound_follows _ _) fun _ _ _ _ =>
    .bind (.missing _) fun _ _ _ _ => .pure _

theorem selector_follows {filter : Scan Expr} {filter' : Parser Expr} {c : Cursor}
    (hfilter : Below source c.rest.length filter filter') :
    Follows source (selector filter) (Parser.selector filter') c := by
  refine .on fun hc => .position (.peekBoth ?_)
  cases hnext : c.rest.head? with
  | none => exact missingSelector_follows c
  | some x =>
    dsimp only
    by_cases hsingle : x = '\''
    · subst hsingle
      exact quoted_follows Selector.name (.inl rfl) hnext
    by_cases hdouble : x = '"'
    · subst hdouble
      exact quoted_follows Selector.name (.inr rfl) hnext
    by_cases hstar : x = '*'
    · subst hstar
      exact .freshId fun _ => .eat_bind (Cursor.byteLength_take_one (by exact hnext)) fun _ _ _ =>
        .pure _
    by_cases hquestion : x = '?'
    · subst hquestion
      refine .freshId fun _ => .eat_bind (Cursor.byteLength_take_one (by exact hnext))
        fun _ e he => .bind (hfilter.after hc e ?_) fun _ _ _ _ => .pure _
      exact he.length_lt Nat.zero_lt_one (by exact hnext)
    simp only [hsingle, hdouble, hstar, hquestion, decide_false, Bool.or_self, Bool.false_eq_true,
      if_false]
    split
    · exact indexOrSlice_follows c
    split
    · exact missingSelector_follows c
    · exact .freshId fun _ => .bind (skipGarbage_follows _ _ _) fun _ _ _ _ =>
        .bind (.missing _) fun _ _ _ _ => .pure _

/-! ### What separates the items of a list -/

end Scan

namespace Parser

/-- The end of a list, or a placeholder where it is missing. -/
def close (closing : Scan.Closing) (opening : Token) : Parser Token := do
  if ← isAt [closing.char] then take closing.kind 1
  else
    report closing.unclosed opening.range
    missing closing.kind

/-- A comma or the end of a list. -/
def separatorAt (closing : Scan.Closing) (opening : Token) : Parser (Token ⊕ Token) := do
  if ← isAt [','] then return .inl (← take .comma 1) else return .inr (← close closing opening)

/-- What follows an item of a list. Garbage before it is passed over. -/
def separator (closing : Scan.Closing) (opening : Token) : Parser (Token ⊕ Token) := do
  let _ ← skipBlanks
  skipGarbage closing.wanted closing.stops
  separatorAt closing opening

/-- A comma brings the cursor closer to the end. -/
theorem separator_progress {closing : Scan.Closing} {opening comma : Token} {c e : Cursor}
    (h : separator closing opening c = (.inl comma, e)) : e.rest.length < c.rest.length := by
  have hblanks : (c.pass c.blanks).rest.length ≤ c.rest.length := (Cursor.Run.blanks c).length_le
  obtain ⟨_, hrun, -⟩ := skipGarbage_yields closing.wanted closing.stops (c.pass c.blanks)
  have hle := hrun.length_le
  rw [separator, skipBlanks_bind, bind_apply] at h
  generalize (skipGarbage closing.wanted closing.stops (c.pass c.blanks)).2 = d at *
  rw [separatorAt, isAt_bind] at h
  split at h
  · rename_i hcomma
    rw [Cursor.isAt_singleton, decide_eq_true_eq] at hcomma
    obtain ⟨rest, hrest⟩ := List.head?_eq_some_iff.mp hcomma
    obtain rfl : (take .comma 1 d).2 = e := congrArg Prod.snd h
    rw [hrest, List.length_cons] at hle
    simp only [take, Cursor.pass, hrest, List.drop_one, List.tail_cons]
    omega
  · rw [bind_apply] at h
    cases congrArg Prod.fst h

theorem selectors_succ (filter : Parser Expr) (opening : Token) (rounds : Nat) :
    selectors filter opening (rounds + 1) = (do
      let _ ← skipBlanks
      let first ← selector filter
      match ← separator .bracket opening with
      | .inl comma =>
        let (rest, closing) ← selectors filter opening rounds
        return (.more first comma rest, closing)
      | .inr closing => return (.last first, closing)) := by
  simp only [selectors, separator, separatorAt, bind_assoc]
  refine bind_congr fun _ => bind_congr fun _ => bind_congr fun _ => bind_congr fun _ =>
    bind_congr fun isComma => ?_
  cases isComma <;> simp only [Bool.false_eq_true, if_true, if_false, bind_assoc, pure_bind]
  rfl

theorem arguments_succ (argument : Parser Expr) (opening : Token) (rounds : Nat) :
    arguments argument opening (rounds + 1) = (do
      let first ← argument
      match ← separator .paren opening with
      | .inl comma =>
        let (rest, closing) ← arguments argument opening rounds
        return (.more first comma rest, closing)
      | .inr closing => return (.last first, closing)) := by
  simp only [arguments, separator, separatorAt, bind_assoc]
  refine bind_congr fun _ => bind_congr fun _ => bind_congr fun _ => bind_congr fun isComma => ?_
  cases isComma <;> simp only [Bool.false_eq_true, if_true, if_false, bind_assoc, pure_bind]
  rfl

/-- The mark of a comparison comes next. -/
theorem comparison?_mark {c : Cursor} {op : Comparison} {length : Nat}
    (h : comparison? c = some (op, length)) :
    ∃ mark, c.isAt mark = true ∧ mark ≠ [] ∧ mark.length = length ∧
      Text.byteLength mark = length := by
  unfold comparison? at h
  iterate 7
    split at h
    · rename_i hat
      cases h
      exact ⟨_, hat, List.cons_ne_nil _ _, rfl, rfl⟩
  cases h

/-- With nothing left there is no further segment. -/
theorem segment?_of_nil (filter : Parser Expr) {c : Cursor} (h : c.rest = []) :
    segment? filter c = (none, c) := by
  have hat {chars : List Char} (hne : chars ≠ []) : (c.pass c.blanks).isAt chars = false := by
    obtain ⟨x, more, rfl⟩ := List.exists_cons_of_ne_nil hne
    simp [Cursor.isAt, Cursor.pass, h]
  rw [segment?, get_bind, skipBlanks_bind, isAt_bind, hat (by simp)]
  rw [if_neg Bool.false_ne_true, isAt_bind, hat (by simp)]
  rw [if_neg Bool.false_ne_true, isAt_bind, hat (by simp)]
  rfl

end Parser

/-- An expression stands at a stretch of the source. -/
theorem Cursor.On.expression_spans {source : List Char} {c d : Cursor} {p : Parser Expr} {e : Expr}
    (hc : c.On source) (htells : p.Tells) (h : p c = (e, d)) :
    ∃ part, e.range.Spans source part := by
  obtain ⟨before, hwithin⟩ := hc.within
  obtain ⟨entries, hrun, hentries⟩ := htells c
  obtain ⟨_, _, htile⟩ := hrun.tile hwithin
  rw [h] at hentries
  dsimp only at hentries
  rw [hentries, ← Expr.tokens_entries] at htile
  have hspans := e.spanned.self.range_spans htile.ordered.1 htile.spans
  rwa [Tree.range, e.element_tree] at hspans

namespace Scan

/-- The characters at which the items of a list end. -/
structure Closing.Sound (closing : Closing) : Prop where
  comma : ',' ∈ closing.stops
  char : closing.char ∈ closing.stops
  size : closing.char.utf8Size = 1
  blanks : ∀ x ∈ closing.stops, Cursor.isBlank x = false

theorem Closing.bracket_sound : Closing.bracket.Sound where
  comma := List.mem_cons_self
  char := List.mem_cons_of_mem _ List.mem_cons_self
  size := rfl
  blanks := List.forall_mem_cons.mpr ⟨rfl, List.forall_mem_singleton.mpr rfl⟩

theorem Closing.paren_sound : Closing.paren.Sound where
  comma := List.mem_cons_self
  char := List.mem_cons_of_mem _ List.mem_cons_self
  size := rfl
  blanks := List.forall_mem_cons.mpr ⟨rfl, List.forall_mem_cons.mpr ⟨rfl,
    List.forall_mem_singleton.mpr rfl⟩⟩

variable {source : List Char} {closing : Closing} {opening : Token} {c : Cursor}

theorem close_follows (hclosing : closing.Sound) (h : c.rest.head? = some closing.char) :
    Follows source (Scan.eat closing.kind 1) (Parser.close closing opening) c := by
  refine .isAtNext ?_
  rw [Cursor.isAt_singleton, decide_eq_true h, if_pos rfl]
  exact .eat _ ((Cursor.byteLength_take_one h).trans hclosing.size)

theorem unclosed_follows (hopening : ∃ part, opening.range.Spans source part)
    (h : c.rest.head? ≠ some closing.char) :
    Follows source (do Scan.error closing.unclosed opening.range; Scan.missing closing.kind)
      (Parser.close closing opening) c := by
  refine .isAtNext ?_
  rw [Cursor.isAt_singleton, decide_eq_false h, if_neg Bool.false_ne_true]
  exact .bind (.error _ fun _ => hopening) fun _ _ _ _ => .missing _

theorem separatorAt_follows (hclosing : closing.Sound) (beyond : Scan (Token ⊕ Token))
    (hopening : ∃ part, opening.range.Spans source part)
    (hstop : ∀ x, c.rest.head? = some x → x ∈ closing.stops) :
    Follows source (separatorAt closing opening beyond) (Parser.separatorAt closing opening) c := by
  refine .peek (.isAtNext ?_)
  rw [Cursor.isAt_singleton]
  have hunclosed (h : c.rest.head? ≠ some closing.char) : Follows source
      (do
        Scan.error closing.unclosed opening.range
        return Sum.inr (← Scan.missing closing.kind))
      (do return Sum.inr (α := Token) (← Parser.close closing opening)) c := by
    rw [← bind_assoc]
    exact .bind (unclosed_follows hopening h) fun _ _ _ _ => .pure _
  cases hnext : c.rest.head? with
  | none => exact hunclosed (by simp [hnext])
  | some x =>
    have hx := hstop x hnext
    dsimp only
    by_cases hcomma : x = ','
    · subst hcomma
      simp only [decide_true, if_true]
      exact .eat_bind (Cursor.byteLength_take_one hnext) fun _ _ _ => .pure _
    simp only [hcomma, Option.some_inj, decide_false, Bool.false_eq_true, if_false]
    split
    · rename_i hchar
      exact .bind (close_follows hclosing (by rw [hnext, hchar])) fun _ _ _ _ => .pure _
    · rename_i hchar
      rw [if_pos (List.contains_iff_mem.mpr hx)]
      exact hunclosed (by simpa [hnext] using hchar)

/-- At garbage. -/
theorem separatorAt_beyond (hclosing : closing.Sound) {beyond : Scan (Token ⊕ Token)}
    {p : Parser (Token ⊕ Token)} {x : Char} (hnext : c.rest.head? = some x)
    (hx : x ∉ closing.stops) (h : Follows source beyond p c) :
    Follows source (separatorAt closing opening beyond) p c := by
  have hcomma : x ≠ ',' := fun heq => hx (heq ▸ hclosing.comma)
  have hchar : x ≠ closing.char := fun heq => hx (heq ▸ hclosing.char)
  refine .peek ?_
  rw [hnext]
  dsimp only
  rwa [if_neg hcomma, if_neg hchar, if_neg (by simpa using hx)]

/-- Garbage is passed over up to where an item may end, which is not at blanks. -/
theorem garbage_ends (hclosing : closing.Sound) {d e : Cursor} {x : Char} {more : List Char}
    (hrest : d.rest = x :: more) (hx : x ∉ closing.stops) {u : Unit}
    (he : Parser.skipGarbage closing.wanted closing.stops d = (u, e)) :
    e.rest.length < d.rest.length ∧ (∀ y, e.rest.head? = some y → y ∈ closing.stops) ∧
      e.blanks = 0 := by
  have hgarbage := Parser.skipGarbage_rest closing.wanted closing.stops d
  rw [he] at hgarbage
  dsimp only at hgarbage
  have hstop : ∀ y, e.rest.head? = some y → y ∈ closing.stops := by
    intro y hy
    have hnot := List.head?_dropWhile_not (fun x => !closing.stops.contains x) d.rest
    rw [← hgarbage, hy] at hnot
    simpa using hnot
  refine ⟨?_, hstop, ?_⟩
  · rw [hgarbage, hrest, List.dropWhile_cons_of_pos (by simpa using hx), List.length_cons]
    exact Nat.lt_succ_of_le (List.dropWhile_suffix _).length_le
  · rw [Cursor.blanks]
    cases hnext : e.rest with
    | nil => rfl
    | cons y _ =>
      have hblank := hclosing.blanks y (hstop y (by rw [hnext, List.head?_cons]))
      rw [List.takeWhile_cons_of_neg (by simp [hblank]), List.length_nil]

/-- Garbage ends where an item may end, so blanks are passed over and garbage is reported at
most once. -/
theorem separator_follows (hclosing : closing.Sound)
    (hopening : ∃ part, opening.range.Spans source part) {rounds : Nat}
    (hrounds : c.rest.length < rounds) :
    Follows source (separator closing opening rounds) (Parser.separator closing opening) c := by
  obtain ⟨rounds, rfl⟩ := Nat.exists_eq_add_of_lt hrounds
  refine .on fun hc => .position (.skipBoth ?_)
  have hle : (c.pass c.blanks).rest.length ≤ c.rest.length := (Cursor.Run.blanks c).length_le
  generalize c.pass c.blanks = d at hle
  cases hrest : d.rest with
  | nil =>
    have hgarbage : Parser.skipGarbage closing.wanted closing.stops d = ((), d) := by
      rw [Parser.skipGarbage, hrest]
      rfl
    refine .congr ?_ (separatorAt_follows hclosing _ hopening (by simp [hrest]))
    rw [Parser.bind_apply, hgarbage]
  | cons x more =>
    have hnext : d.rest.head? = some x := by rw [hrest, List.head?_cons]
    by_cases hx : x ∈ closing.stops
    · refine .congr ?_ (separatorAt_follows hclosing _ hopening ?_)
      · rw [Parser.bind_apply, Parser.skipGarbage_of_stop hrest hx]
      · rw [hnext]
        rintro _ ⟨⟩
        exact hx
    · refine separatorAt_beyond hclosing hnext hx (.bind (skipGarbage_follows _ _ _) ?_)
      intro _ e he _
      obtain ⟨hshorter, hstop, hblanks⟩ := garbage_ends hclosing hrest hx he
      have hlt : e.rest.length < c.rest.length := Nat.lt_of_lt_of_le hshorter hle
      obtain ⟨length, hlength⟩ := Nat.exists_eq_add_of_lt hlt
      refine .advanced hc hlt ?_
      rw [hlength, Nat.add_right_comm]
      refine .position (.skipBlanks ?_)
      rw [hblanks, Cursor.pass_zero]
      exact separatorAt_follows hclosing _ hopening hstop

/-! ### Segments -/

variable {filter : Scan Expr} {filter' : Parser Expr}

theorem selectors_follow (hopening : ∃ part, opening.range.Spans source part) {rounds : Nat}
    (rounds' : Nat) (hfilter : Below source c.rest.length filter filter')
    (hrounds : c.rest.length < rounds) (hrounds' : c.rest.length < rounds') :
    Follows source (selectors filter opening rounds) (Parser.selectors filter' opening rounds')
      c := by
  induction rounds generalizing c rounds' with
  | zero => omega
  | succ rounds ih =>
    obtain ⟨rounds', rfl⟩ := Nat.exists_eq_add_of_lt hrounds'
    rw [Parser.selectors_succ]
    refine .on fun hc => .position (.skipBoth (.bind ?_ fun first d _ hd => ?_))
    · exact selector_follows (hfilter.mono (Cursor.Run.blanks c).length_le)
    refine .budget (.on fun hdon => .bind (separator_follows Closing.bracket_sound hopening
      (Nat.lt_succ_of_le hdon.length_le)) fun found e hfound _ => ?_)
    cases found with
    | inl comma =>
      have hlt : e.rest.length < c.rest.length :=
        Nat.lt_of_lt_of_le (Parser.separator_progress hfound)
          (Nat.le_trans hd (Cursor.Run.blanks c).length_le)
      refine .advanced hc hlt (.bind (ih _ (hfilter.mono (Nat.le_of_lt hlt)) ?_ ?_) ?_)
      · omega
      · omega
      · exact fun _ _ _ _ => .pure _
    | inr closing => exact .pure _

theorem bracketed_follows (id : Nat) (dots : Option Token) (hc : c.isAt ['['] = true)
    (hfilter : Below source c.rest.length filter filter') :
    Follows source (bracketed filter id dots) (Parser.bracketed filter' id dots) c := by
  rw [Cursor.isAt_singleton, decide_eq_true_eq] at hc
  refine .eat_bind (Cursor.byteLength_take_one hc) fun opening e he => .budget (.get ?_)
  have hlt := he.length_lt Nat.zero_lt_one hc
  refine .on fun hon => .bind (selectors_follow he.spans _ (hfilter.mono (Nat.le_of_lt hlt))
    (Nat.lt_succ_of_le hon.length_le) (Nat.lt_succ_self _)) fun _ _ _ _ => .pure _

theorem segment?_follows (hfilter : Below source c.rest.length filter filter') :
    Follows source (segment? filter) (Parser.segment? filter') c := by
  have hle : (c.pass c.blanks).rest.length ≤ c.rest.length := (Cursor.Run.blanks c).length_le
  refine FollowsFrom.lookAhead (.isAt ?_)
  split
  · rename_i hdots
    have hsize := Cursor.byteLength_take_mark hdots
    refine .goOn (.freshId fun id => .eat_bind hsize fun dots d hd =>
      .bind (rejectBlanks_follows _ _) fun _ e _ he => .isAtBoth ?_)
    split
    · rename_i hbracket
      refine .map (bracketed_follows _ _ hbracket (hfilter.mono (Nat.le_trans he ?_)))
      rw [hd.rest]
      exact Nat.le_trans (List.drop_suffix _ _).length_le hle
    · exact .bind (shorthandSelector_follows _ _) fun _ _ _ _ => .pure _
  · refine .isAt ?_
    split
    · rename_i hdot
      have hsize := Cursor.byteLength_take_mark hdot
      exact .goOn (.freshId fun id => .eat_bind hsize fun _ _ _ =>
        .bind (rejectBlanks_follows _ _) fun _ _ _ _ =>
          .bind (shorthandSelector_follows _ _) fun _ _ _ _ => .pure _)
    refine .isAt ?_
    split
    · rename_i hbracket
      refine .goOn (.freshId fun id => .map (bracketed_follows _ _ (by exact hbracket) ?_))
      exact hfilter.mono hle
    · exact .goBack (.pure none)

theorem segments_follow (htells : filter'.Tells) {rounds : Nat} (rounds' : Nat) (path : Path)
    (hfilter : Below source c.rest.length filter filter') (hrounds : c.rest.length < rounds)
    (hrounds' : c.rest.length ≤ rounds') :
    Follows source (segments filter rounds path) (Parser.segments filter' rounds' path) c := by
  induction rounds generalizing c rounds' path with
  | zero => omega
  | succ rounds ih =>
    have hmore (rounds' : Nat) (hrounds' : c.rest.length ≤ rounds' + 1) :
        Follows source (segments filter (rounds + 1) path)
          (Parser.segments filter' (rounds' + 1) path) c := by
      refine .on fun hc => .position (.bind (segment?_follows hfilter) fun found d hfound _ => ?_)
      cases found with
      | none => exact .pure path
      | some segment =>
        have hsegment : (Parser.segment? filter' c).1 = some segment := by rw [hfound]
        have hlt := Parser.segment?_progress htells hsegment
        rw [hfound] at hlt
        dsimp only at hlt
        refine .advanced hc hlt (ih _ _ (hfilter.mono (Nat.le_of_lt hlt)) ?_ ?_)
        · omega
        · omega
    cases rounds' with
    | zero =>
      refine .congr ?_ (hmore 0 (Nat.le_succ_of_le hrounds'))
      have hnil : c.rest = [] := List.eq_nil_of_length_eq_zero (Nat.le_zero.mp hrounds')
      rw [Parser.segments, Parser.segments, Parser.bind_apply, Parser.segment?_of_nil _ hnil]
    | succ rounds' => exact hmore rounds' hrounds'

theorem pathExpression_follows (htells : filter'.Tells) (kind : TokenKind) {x : Char}
    (hnext : c.rest.head? = some x) (hsize : x.utf8Size = 1)
    (hfilter : Below source c.rest.length filter filter') :
    Follows source (pathExpression filter kind) (Parser.pathExpression filter' kind) c := by
  refine .freshId fun id => .freshId fun pathId => .eat_bind
    ((Cursor.byteLength_take_one (by exact hnext)).trans hsize) fun identifier d hd =>
      .budget (.get (.on fun hon => .bind ?_ fun _ _ _ _ => .pure _))
  have hlt := hd.length_lt Nat.zero_lt_one (by exact hnext)
  exact segments_follow htells _ _ (hfilter.mono (Nat.le_of_lt hlt))
    (Nat.lt_succ_of_le hon.length_le) (Nat.le_refl _)

/-! ### Expressions -/

theorem missingExpression_follows (c : Cursor) :
    Follows source missingExpression Parser.missingExpression c :=
  .freshId fun _ => .bind (reportFound_follows _ _) fun _ _ _ _ =>
    .bind (.missing _) fun _ _ _ _ => .pure _

theorem closeParen_follows (hopening : ∃ part, opening.range.Spans source part) (c : Cursor) :
    Follows source (closeParen opening) (Parser.closeParen opening) c := by
  refine .isAtBoth ?_
  split
  · rename_i hparen
    exact .eat _ (Cursor.byteLength_take_mark hparen)
  · exact .bind (.error _ fun _ => hopening) fun _ _ _ _ => .missing _

variable {operand : Scan Expr} {operand' : Parser Expr}

theorem operands_follow (kind : TokenKind) {mark : List Char} (hmark : mark ≠ [])
    (hsize : Text.byteLength mark = mark.length) {rounds : Nat} (rounds' : Nat)
    (hoperand : Below source (c.rest.length + 1) operand operand')
    (hrounds : c.rest.length < rounds) (hrounds' : c.rest.length < rounds') :
    Follows source (operands kind mark operand rounds)
      (Parser.operands kind mark operand' rounds') c := by
  induction rounds generalizing c rounds' with
  | zero => omega
  | succ rounds ih =>
    obtain ⟨rounds', rfl⟩ := Nat.exists_eq_add_of_lt hrounds'
    refine .on fun hc => .position (.bind (hoperand c (Nat.lt_succ_self _)) fun first d _ hd =>
      .skipBoth (.isAtBoth ?_))
    split
    · rename_i hat
      refine .eat_bind ((Cursor.byteLength_take_mark hat).trans hsize) fun operator e he => ?_
      have hlt : e.rest.length < c.rest.length := Nat.lt_of_lt_of_le (he.mark_lt _ hat hmark)
        (Nat.le_trans (Cursor.Run.blanks d).length_le hd)
      refine .advanced hc hlt (.bind (ih _ (hoperand.mono ?_) ?_ ?_) fun _ _ _ _ => .pure _)
      · omega
      · omega
      · omega
    · exact .pure _

theorem arguments_follow (hopening : ∃ part, opening.range.Spans source part) {rounds : Nat}
    (rounds' : Nat) (hoperand : Below source (c.rest.length + 1) operand operand')
    (hrounds : c.rest.length < rounds) (hrounds' : c.rest.length < rounds') :
    Follows source (arguments operand opening rounds) (Parser.arguments operand' opening rounds')
      c := by
  induction rounds generalizing c rounds' with
  | zero => omega
  | succ rounds ih =>
    obtain ⟨rounds', rfl⟩ := Nat.exists_eq_add_of_lt hrounds'
    rw [Parser.arguments_succ]
    refine .on fun hc => .position (.bind (hoperand c (Nat.lt_succ_self _)) fun first d _ hd => ?_)
    refine .budget (.on fun hdon => .bind (separator_follows Closing.paren_sound hopening
      (Nat.lt_succ_of_le hdon.length_le)) fun found e hfound _ => ?_)
    cases found with
    | inl comma =>
      have hlt : e.rest.length < c.rest.length :=
        Nat.lt_of_lt_of_le (Parser.separator_progress hfound) hd
      refine .advanced hc hlt (.bind (ih _ (hoperand.mono ?_) ?_ ?_) fun _ _ _ _ => .pure _)
      · omega
      · omega
      · omega
    | inr closing => exact .pure _

theorem call_follows (id : Nat) (name : Token) (hc : c.isAt ['('] = true)
    (hoperand : Below source c.rest.length operand operand') :
    Follows source (call operand id name) (Parser.call operand' id name) c := by
  rw [Cursor.isAt_singleton, decide_eq_true_eq] at hc
  refine .eat_bind (Cursor.byteLength_take_one hc) fun opening e he => .skipBoth (.isAtBoth ?_)
  have hlt := he.length_lt Nat.zero_lt_one hc
  have hle : (e.pass e.blanks).rest.length ≤ e.rest.length := (Cursor.Run.blanks e).length_le
  split
  · rename_i hparen
    exact .bind (.eat _ (Cursor.byteLength_take_mark hparen)) fun _ _ _ _ => .pure _
  · refine .budget (.get (.on fun hon => .bind (arguments_follow he.spans _ (hoperand.mono ?_)
      (Nat.lt_succ_of_le hon.length_le) (Nat.lt_succ_self _)) fun _ _ _ _ => .pure _))
    omega

theorem word_follows (id : Nat) {w : List Char}
    (hw : c.rest.takeWhile Parser.isFunctionChar = w) :
    FollowsAt source (c.pass w.length) (word id c.offset (c.pass w.length).offset)
      (if w = ['t', 'r', 'u', 'e'] then do
        return Expr.literal id (← Parser.take .true w.length) (.bool true)
      else if w = ['f', 'a', 'l', 's', 'e'] then do
        return Expr.literal id (← Parser.take .false w.length) (.bool false)
      else if w = ['n', 'u', 'l', 'l'] then do
        return Expr.literal id (← Parser.take .null w.length) .null
      else do
        Parser.report (.expected .expression (.text w)) (c.ahead w.length)
        modify (·.pass w.length)
        return Expr.missing id (← Parser.missing .name)) c := by
  have hspans (hc : c.On source) : (c.ahead w.length).Spans source w := by
    have hahead := hc.ahead_spans w.length
    rwa [← hw, Text.take_takeWhile_length, hw] at hahead
  refine .slice (r := c.ahead w.length) hspans ?_
  split
  · exact .token_bind fun _ _ _ => .pure _
  split
  · exact .token_bind fun _ _ _ => .pure _
  split
  · exact .token_bind fun _ _ _ => .pure _
  · exact .range (r := c.ahead w.length) hspans (.report (fun hc => ⟨_, hspans hc⟩)
      (.catchUp (.bind (.missing _) fun _ _ _ _ => .pure _)))

theorem callOrWord_follows (hoperand : Below source c.rest.length operand operand') :
    Follows source (callOrWord operand) (Parser.callOrWord operand') c := by
  refine .freshId fun id => ?_
  have hrest : { c with nextId := c.nextId + 1 : Cursor }.rest = c.rest := rfl
  generalize { c with nextId := c.nextId + 1 : Cursor } = d at hrest
  rw [← hrest] at hoperand
  refine .get (.position (.bumpWhile (.position (.skipBlanks (.isAt (.reset (·.pass _) ?_))))))
  generalize hw : d.rest.takeWhile Parser.isFunctionChar = w
  dsimp only
  split
  · rename_i hcall
    refine .token_bind fun name e he => .bind (rejectBlanks_follows _ _) fun _ f hf hle => ?_
    have hcalled : f.isAt ['('] = true := by
      have hrest := Parser.rejectBlanks_rest .blanksBeforeArguments e
      rw [hf, Cursor.blanks, Cursor.pass, he.rest] at hrest
      rw [Cursor.isAt, hrest]
      exact hcall
    refine call_follows id name hcalled (hoperand.mono (Nat.le_trans hle ?_))
    rw [he.rest]
    exact (List.drop_suffix _ _).length_le
  · exact word_follows id hw

/-- Readers of every rank agree wherever less than `limit` characters are left. -/
structure Expressions.Below (source : List Char) (limit : Nat) (inner : Expressions)
    (inner' : Parser.Expressions) : Prop where
  disjunction : Scan.Below source limit inner.disjunction inner'.disjunction
  negation : Scan.Below source limit inner.negation inner'.negation
  primary : Scan.Below source limit inner.primary inner'.primary

variable {inner : Expressions} {inner' : Parser.Expressions}

theorem primary_follows (htell : inner'.Tell) (h : inner.Below source c.rest.length inner') :
    Follows source (primary inner) (Parser.primary inner') c := by
  refine .on fun hc => .position (.skipBoth (.peek (.get ?_)))
  have hle : (c.pass c.blanks).rest.length ≤ c.rest.length := (Cursor.Run.blanks c).length_le
  generalize c.pass c.blanks = d at hle
  cases hrest : d.rest with
  | nil => exact missingExpression_follows d
  | cons x more =>
    have hnext : d.rest.head? = some x := by rw [hrest, List.head?_cons]
    have hdisjunction : Scan.Below source d.rest.length (after c.offset inner.disjunction)
        inner'.disjunction := (h.disjunction.after hc).mono hle
    dsimp only [List.head?_cons]
    by_cases hparen : x = '('
    · subst hparen
      refine .freshId fun id => .eat_bind (Cursor.byteLength_take_one (by exact hnext))
        fun opening e he => .bind (hdisjunction e (he.length_lt Nat.zero_lt_one (by exact hnext)))
          fun _ _ _ _ => .skipBoth (.bind (closeParen_follows he.spans _) fun _ _ _ _ => .pure _)
    by_cases hbang : x = '!'
    · subst hbang
      refine .isAt ?_
      rw [Cursor.isAt_pair hrest]
      simp only [decide_eq_true_eq]
      split
      · exact missingExpression_follows d
      · refine .freshId fun id => .eat_bind (Cursor.byteLength_take_one (by exact hnext))
          fun bang e he => .bind (h.primary.after hc e (Nat.lt_of_lt_of_le (he.length_lt
            Nat.zero_lt_one (by exact hnext)) hle)) fun _ _ _ _ => .pure _
    by_cases hroot : x = '$'
    · subst hroot
      exact pathExpression_follows htell.disjunction .root hnext rfl hdisjunction
    by_cases hcurrent : x = '@'
    · subst hcurrent
      exact pathExpression_follows htell.disjunction .current hnext rfl hdisjunction
    by_cases hsingle : x = '\''
    · subst hsingle
      exact quoted_follows (fun id token text => Expr.literal id token (.string text)) (.inl rfl)
        hnext
    by_cases hdouble : x = '"'
    · subst hdouble
      exact quoted_follows (fun id token text => Expr.literal id token (.string text)) (.inr rfl)
        hnext
    simp only [hparen, hbang, hroot, hcurrent, hsingle, hdouble, decide_false, Bool.or_self,
      Bool.false_eq_true, if_false]
    split
    · exact numberLiteral_follows d
    split
    · exact callOrWord_follows hdisjunction
    · exact missingExpression_follows d

theorem comparison?_apply (hc : c.On source) :
    comparison? source c.place = .ok (Parser.comparison? c, c.place) := by
  unfold comparison? Parser.comparison?
  iterate 7
    refine (bind_apply (isAt_apply hc _)).trans ?_
    split
    · rfl
  rfl

theorem checkComparable_follows {e : Expr} (he : c.On source → ∃ part, e.range.Spans source part) :
    Follows source (checkComparable e) (Parser.checkComparable e) c := by
  cases e with
  | parens | not => exact .error _ he
  | path id p =>
    dsimp only [checkComparable, Parser.checkComparable]
    split
    · exact .pure ()
    · exact .error _ he
  | _ => exact .pure ()

theorem Expressions.Below.mono {limit limit' : Nat} (h : inner.Below source limit inner')
    (hle : limit' ≤ limit) : inner.Below source limit' inner' :=
  ⟨h.disjunction.mono hle, h.negation.mono hle, h.primary.mono hle⟩

theorem comparison_follows (htell : inner'.Tell) (h : inner.Below source c.rest.length inner') :
    Follows source (comparison inner) (Parser.comparison inner') c := by
  have hprimary := Parser.primary_yields htell
  refine .on fun hc => .bind (primary_follows htell h) fun left d hleft hd => .skipBoth ?_
  have hlefts := hc.expression_spans hprimary hleft
  have hle : (d.pass d.blanks).rest.length ≤ c.rest.length :=
    Nat.le_trans (Cursor.Run.blanks d).length_le hd
  refine .step comparison?_apply id (.get ?_)
  cases hsome : Parser.comparison? (d.pass d.blanks) with
  | none => exact .pure left
  | some found =>
    obtain ⟨op, length⟩ := found
    obtain ⟨mark, hat, hmark, rfl, hsize⟩ := Parser.comparison?_mark hsome
    refine .freshId fun id => .eat_bind ((Cursor.byteLength_take_mark (by exact hat)).trans hsize)
      fun operator e he => ?_
    have hlt : e.rest.length < c.rest.length :=
      Nat.lt_of_lt_of_le (he.mark_lt _ (by exact hat) hmark) hle
    have hright {f : Cursor} (hf : f.rest.length ≤ e.rest.length) : Follows source
        (do
          let right ← primary inner
          checkComparable left
          checkComparable right
          return Expr.comparison id left operator op right)
        (do
          let right ← Parser.primary inner'
          Parser.checkComparable left
          Parser.checkComparable right
          return Expr.comparison id left operator op right) f := by
      refine .on fun hfon => .bind (primary_follows htell (h.mono (by omega)))
        fun right g hg _ => .bind (checkComparable_follows fun _ => hlefts) fun _ _ _ _ =>
          .bind (checkComparable_follows fun _ => hfon.expression_spans hprimary hg)
            fun _ _ _ _ => .pure _
    unfold checkOperator
    split
    · exact .bind (.error _ fun _ => he.spans) fun _ _ _ hf => hright hf
    · exact hright (Nat.le_refl _)

theorem negation_follows (htell : inner'.Tell) (h : inner.Below source c.rest.length inner') :
    Follows source (negation inner) (Parser.negation inner') c := by
  have hle : (c.pass c.blanks).rest.length ≤ c.rest.length := (Cursor.Run.blanks c).length_le
  refine .on fun hc => .position (.skipBoth (.isAtBoth (.isAtBoth ?_)))
  generalize c.pass c.blanks = d at hle
  split
  · rename_i hbang
    rw [Bool.and_eq_true] at hbang
    have hsize := Cursor.byteLength_take_mark hbang.1
    refine .freshId fun id => .eat_bind hsize fun bang e he => .bind (h.negation.after hc e ?_)
      fun _ _ _ _ => .pure _
    exact Nat.lt_of_lt_of_le
      (Taken.mark_lt ['!'] he (by exact hbang.1) (List.cons_ne_nil _ _)) hle
  · exact comparison_follows htell (h.mono hle)

theorem joined_follows (kind : TokenKind) {mark : List Char} (hmark : mark ≠ [])
    (hsize : Text.byteLength mark = mark.length) (make : Nat → Expr → Token → Operands → Expr)
    (hoperand : Below source (c.rest.length + 1) operand operand') :
    Follows source (joined kind mark make operand) (Parser.joined kind mark make operand') c := by
  refine .bind (hoperand c (Nat.lt_succ_self _)) fun first d _ hd => .skipBoth (.isAtBoth ?_)
  have hle := Nat.le_trans (Cursor.Run.blanks d).length_le hd
  split
  · rename_i hat
    refine .freshId fun id => .eat_bind
      ((Cursor.byteLength_take_mark (by exact hat)).trans hsize) fun operator e he => ?_
    have hlt := he.mark_lt _ (by exact hat) hmark
    refine .budget (.get (.on fun hon => .bind (operands_follow kind hmark hsize _
      (hoperand.mono ?_) (Nat.lt_succ_of_le hon.length_le) (Nat.lt_succ_self _))
        fun _ _ _ _ => .pure _))
    dsimp only at hlt
    omega
  · exact .pure first

theorem conjunction_follows (htell : inner'.Tell) (h : inner.Below source c.rest.length inner') :
    Follows source (conjunction inner) (Parser.conjunction inner') c :=
  joined_follows .and (by simp) rfl .and fun _ hd =>
    negation_follows htell (h.mono (Nat.le_of_lt_succ hd))

theorem disjunction_follows (htell : inner'.Tell) (h : inner.Below source c.rest.length inner') :
    Follows source (disjunction inner) (Parser.disjunction inner') c :=
  joined_follows .or (by simp) rfl .or fun _ hd =>
    conjunction_follows htell (h.mono (Nat.le_of_lt_succ hd))

/-- Where less than `depth` characters are left, expressions are nested less than `depth` deep. -/
theorem expressions_below (source : List Char) (depth : Nat) :
    (expressions depth).Below source depth (Parser.expressions depth) := by
  induction depth with
  | zero =>
    exact ⟨fun _ h => absurd h (Nat.not_lt_zero _), fun _ h => absurd h (Nat.not_lt_zero _),
      fun _ h => absurd h (Nat.not_lt_zero _)⟩
  | succ depth ih =>
    have htell := Parser.expressions_tell depth
    have hbelow {c : Cursor} (hc : c.rest.length < depth + 1) := ih.mono (Nat.le_of_lt_succ hc)
    exact ⟨fun _ hc => disjunction_follows htell (hbelow hc),
      fun _ hc => negation_follows htell (hbelow hc),
      fun _ hc => primary_follows htell (hbelow hc)⟩

end Scan

end JsonPath
