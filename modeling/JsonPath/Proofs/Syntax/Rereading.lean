import JsonPath.Proofs.Syntax.Printable

/-!
Printed trees are read back. Where the text of a printable tree comes next, the parser reports
nothing, passes over this text and gives a tree of the same canonical form. As with the grammar,
what may follow an element decides where its text ends.
-/

namespace JsonPath

namespace Parser

open Grammar

/-! ### Selectors -/

theorem endsDigits_of_follow {rest : List Char} (h : Follow afterBound rest) : EndsDigits rest :=
  (ends_afterBound h).1

theorem follow_afterBound {rest : List Char} (h : Follow afterSelector rest) :
    Follow afterBound rest := h.mono fun _ hx => List.mem_cons_of_mem _ hx

/-- The printed bound of a slice is read back, or found to be missing. -/
theorem bound?_rereads {b : Option Bound} (hb : Bound.Regular b) {c : Cursor} {rest : List Char}
    (hc : c.rest = Bound.chars b ++ rest) (hrest : Follow afterBound rest)
    (htrim : b = none → trim rest = rest) :
    Accepts bound? c fun b' rest' =>
      b'.map Bound.canonical = b.map Bound.canonical ∧ rest' = rest := by
  cases b with
  | none =>
    have hc : c.rest = rest := hc
    refine (bound?_none_of_follow hrest (by rw [htrim rfl, hc])).mono ?_
    rintro _ rest' ⟨rfl, hrest'⟩
    exact ⟨rfl, hrest'.trans hc⟩
  | some bound =>
    have hc : c.rest = (toString bound.value).toList ++ rest := hc
    refine (bound?_some hc (index_toString bound.value) (ends_afterBound hrest)).mono ?_
    rintro _ rest' ⟨⟨found, rfl, hvalue⟩, hrest'⟩
    have heq : found.value = bound.value := by
      rw [hvalue, hc]
      exact value_toString (hb bound rfl) (endsDigits_of_follow hrest)
    exact ⟨by simp [Bound.canonical, heq], hrest'⟩

/-- No blanks come before a printed bound and a colon. -/
theorem trim_bound (b : Option Bound) (rest : List Char) :
    trim (Bound.chars b ++ ':' :: rest) = Bound.chars b ++ ':' :: rest := by
  cases b with
  | none => exact trim_cons rfl rest
  | some bound => exact Index.trim_append (index_toString bound.value) _

theorem follow_colon (rest : List Char) : Follow afterBound (':' :: rest) :=
  .cons (List.mem_cons_self ..) rfl rest

theorem printed_regular {part : Option StepPart} (h : Bound.Regular (part.bind (·.bound))) :
    Bound.Regular (some (StepPart.printed part)) := by
  rintro bound ⟨⟩
  unfold StepPart.printed
  cases hbound : part.bind (·.bound) with
  | none => simp [Bound.one, IsWord]
  | some b => exact h b hbound

theorem stepPart?_rereads {part : Option StepPart} (hpart : Bound.Regular (part.bind (·.bound)))
    {c : Cursor} {rest : List Char}
    (hc : c.rest = ':' :: (Bound.chars (some (StepPart.printed part)) ++ rest))
    (hrest : Follow afterSelector rest) :
    Accepts stepPart? c fun part' rest' =>
      (part'.bind (·.bound)).map Bound.canonical = some (StepPart.printed part) ∧
        rest' = rest := by
  have hc : c.rest = [':'] ++ (Bound.chars (some (StepPart.printed part)) ++ rest) := hc
  refine .goOn fun d range e he => ?_
  rw [hc, List.singleton_append, trim_cons rfl, ← List.singleton_append] at he
  refine .isAt (isAt_append he) (.take he rfl fun colon d₁ _ _ hd₁ => ?_)
  refine .skipBlanks fun _ d₂ hd₂ => ?_
  have htrim := Index.trim_append (index_toString (StepPart.printed part).value) rest
  rw [hd₁] at hd₂
  refine .bind (bound?_rereads (printed_regular hpart) (hd₂.trans htrim)
    (follow_afterBound hrest) (by simp)) ?_
  rintro bound' d₃ ⟨hbound', hd₃⟩
  exact .pure ⟨hbound'.trans (congrArg some (StepPart.canonical_printed part)), hd₃⟩

theorem slice_rereads {id : Nat} {start stop : Option Bound} {colon : Token}
    {part : Option StepPart} (h : (Selector.slice id start colon stop part).Regular) {c : Cursor}
    {rest : List Char}
    (hc : c.rest = (Selector.slice id start colon stop part).text.toList ++ rest)
    (hrest : Follow afterSelector rest) :
    Accepts indexOrSlice c fun s rest' =>
      s.canonical = (Selector.slice id start colon stop part).canonical ∧ rest' = rest := by
  obtain ⟨hstart, hstop, hpart⟩ := h
  rw [Selector.toList_text_slice] at hc
  simp only [List.append_assoc, List.cons_append] at hc
  refine .element fun id' d hd => ?_
  refine .bind (bound?_rereads hstart (hd.trans hc) (follow_colon _) fun _ => trim_cons rfl _) ?_
  rintro start' d₁ ⟨hstart', hd₁⟩
  refine .goOn fun _ _ d₂ hd₂ => ?_
  rw [hd₁, trim_cons rfl, ← List.singleton_append] at hd₂
  refine .isAt (isAt_append hd₂) (.take hd₂ rfl fun colon' d₃ _ _ hd₃ => ?_)
  refine .skipBlanks fun _ d₄ hd₄ => ?_
  rw [hd₃, trim_bound] at hd₄
  refine .bind (bound?_rereads hstop hd₄ (follow_colon _) fun _ => trim_cons rfl _) ?_
  rintro stop' d₅ ⟨hstop', hd₅⟩
  refine .bind (stepPart?_rereads hpart hd₅ hrest) ?_
  rintro part' d₆ ⟨hpart', hd₆⟩
  refine .pure ⟨?_, hd₆⟩
  rw [Selector.canonical, Selector.canonical, hstart', hstop', hpart']
  rfl

/-- The parser reads back printable expressions of at most the rank, with blanks before them, where
one of the characters comes next and fewer than so many characters are ahead. -/
def Rereads (p : Parser Expr) (rank : Nat) (chars : List Char) (bound : Nat) : Prop :=
  ∀ (e : Expr) (c : Cursor) (b rest : List Char), e.Printable → e.rank ≤ rank →
    c.rest = b ++ (e.text.toList ++ rest) → Blanks b → Follow chars rest → c.rest.length < bound →
    Accepts p c fun e' rest' => e'.canonical = e.canonical ∧ trim rest' = trim rest

theorem slice_first (id : Nat) (start stop : Option Bound) (colon : Token)
    (part : Option StepPart) (rest : List Char) :
    ∃ x, ((Selector.slice id start colon stop part).text.toList ++ rest).head? = some x ∧
      (x = '-' || x = ':' || Text.isDigit x) = true := by
  rw [Selector.toList_text_slice]
  cases start with
  | none => exact ⟨':', rfl, rfl⟩
  | some bound =>
    rw [List.append_assoc]
    exact Index.head (index_toString bound.value) _

theorem selector_rereads {filter : Parser Expr} {bound : Nat}
    (hfilter : filter.Rereads 2 afterExpression bound) {s : Selector} (hs : s.Printable)
    {c : Cursor} {rest : List Char} (hc : c.rest = s.text.toList ++ rest)
    (hrest : Follow afterSelector rest) (hbound : c.rest.length ≤ bound) :
    Accepts (selector filter) c fun s' rest' =>
      s'.canonical = s.canonical ∧ trim rest' = trim rest := by
  have hregular := hs.regular
  cases s with
  | name id token value =>
    obtain ⟨body, htext, hbody, hvalue⟩ := Step.quote_literal value
    rw [Selector.text, htext] at hc
    refine .peek ?_
    rw [hc]
    refine .element fun id' d hd => .bind (stringLiteral_accepts (.inl rfl) (hd.trans hc) hbody) ?_
    rintro ⟨token', value'⟩ d₁ ⟨hvalue', hd₁⟩
    have heq : value' = value := by
      rw [show value' = _ from hvalue', hvalue, String.ofList_toList]
    exact .pure ⟨by simp [Selector.canonical, heq], congrArg trim hd₁⟩
  | index id token value =>
    refine (selector_accepts_index hc (index_toString value) hrest).mono ?_
    rintro _ rest' ⟨⟨id', token', rfl⟩, hrest'⟩
    have heq : (IntegerText.ofChars c.rest).value = value := by
      rw [hc]
      exact value_toString hregular (endsDigits_of_follow (follow_afterBound hrest))
    exact ⟨by simp [Selector.canonical, heq], hrest'⟩
  | slice id start colon stop part =>
    obtain ⟨x, hx, hfirst⟩ := slice_first id start stop colon part rest
    rw [← hc] at hx
    refine selector_accepts_first filter hx hfirst ((slice_rereads hregular hc hrest).mono ?_)
    exact fun s' rest' h => ⟨h.1, congrArg trim h.2⟩
  | wildcard id token =>
    rw [Selector.text] at hc
    have hc : c.rest = ['*'] ++ rest := hc
    refine .peek ?_
    rw [hc]
    exact .element fun id' d hd => .take (hd.trans hc) rfl fun _ _ _ _ hd₁ =>
      .pure ⟨rfl, congrArg trim hd₁⟩
  | filter id question test =>
    have hc : c.rest = ['?'] ++ (test.text.toList ++ rest) := by
      rw [hc, Selector.text, String.toList_append, List.append_assoc]
      rfl
    have hfollow : Follow afterExpression rest := hrest.mono fun _ => List.mem_cons_of_mem _
    refine .peek ?_
    rw [hc]
    refine .element fun id' d hd => .take (hd.trans hc) rfl fun question' d₁ _ _ hd₁ => ?_
    refine .bind (hfilter test d₁ [] rest hs.test test.rank_le hd₁ .nil hfollow ?_) ?_
    · rw [hd₁]
      rw [hc] at hbound
      exact hbound
    · rintro test' d₂ ⟨htest', hd₂⟩
      exact .pure ⟨by simp [Selector.canonical, htest'], hd₂⟩
  | missing => exact hs.wellFormed.elim

/-- No blanks come before a selector. -/
theorem trim_selector {s : Selector} (hs : s.Printable) (rest : List Char) :
    trim (s.text.toList ++ rest) = s.text.toList ++ rest := by
  cases s with
  | name id token value =>
    obtain ⟨body, htext, -⟩ := Step.quote_literal value
    rw [Selector.text, htext]
    exact trim_cons rfl _
  | index id token value => exact Index.trim_append (index_toString value) rest
  | slice id start colon stop part =>
    rw [Selector.toList_text_slice, List.append_assoc, List.cons_append]
    exact trim_bound start _
  | wildcard =>
    rw [Selector.text]
    exact trim_cons (x := '*') rfl rest
  | filter id question test =>
    rw [Selector.text, String.toList_append]
    exact trim_cons rfl _
  | missing => exact hs.wellFormed.elim

theorem selector_rereads_blanks {filter : Parser Expr} {bound : Nat}
    (hfilter : filter.Rereads 2 afterExpression bound) {s : Selector} (hs : s.Printable)
    {c d : Cursor} {b rest : List Char} {x : Char} (hx : x = ',' ∨ x = ']')
    (hc : c.rest = b ++ (s.text.toList ++ x :: rest)) (hb : Blanks b)
    (hbound : c.rest.length ≤ bound) (hd : d.rest = trim c.rest) :
    Accepts (selector filter) d fun s' rest' =>
      s'.canonical = s.canonical ∧ trim rest' = x :: rest := by
  have hblank : Cursor.isBlank x = false := by rcases hx with rfl | rfl <;> rfl
  have hfollow : Follow afterSelector (x :: rest) := .cons (by simpa [afterSelector]) hblank rest
  rw [← trim_cons hblank rest]
  apply selector_rereads hfilter hs _ hfollow
  · rw [hd]
    exact Nat.le_trans (length_trim_le c.rest) hbound
  · rw [hd, hc, trim_append hb, trim_selector hs]

theorem selectors_rereads {filter : Parser Expr} {bound : Nat}
    (hfilter : filter.Rereads 2 afterExpression bound) (opening : Token) :
    (ss : Selectors) → ss.Printable → ∀ {rounds : Nat} {c : Cursor} {b rest : List Char},
      c.rest = b ++ (ss.text.toList ++ ']' :: rest) → Blanks b → c.rest.length < rounds →
      c.rest.length ≤ bound → Accepts (selectors filter opening rounds) c fun found rest' =>
        found.1.canonical = ss.canonical ∧ rest' = rest
  | .last s, hss, rounds, c, b, rest, hc, hb, hrounds, hbound => by
    obtain ⟨more, rfl⟩ := Nat.exists_eq_add_of_lt hrounds
    refine (selectors_accepts_last opening fun d hd =>
      selector_rereads_blanks hfilter hss.of_last (.inr rfl) hc hb hbound hd).mono ?_
    rintro ⟨_, closing⟩ rest' ⟨⟨s', rfl, hs'⟩, hrest'⟩
    exact ⟨by simp [Selectors.canonical, hs'], hrest'⟩
  | .more s comma others, hss, rounds, c, b, rest, hc, hb, hrounds, hbound => by
    obtain ⟨more, rfl⟩ := Nat.exists_eq_add_of_lt hrounds
    obtain ⟨hs, hothers⟩ := hss.of_more
    have hc : c.rest = b ++ (s.text.toList ++
        ',' :: ([' '] ++ (others.text.toList ++ ']' :: rest))) := by
      rw [hc, Selectors.text]
      simp
    have hlength := congrArg List.length hc
    simp only [List.length_append, List.length_cons] at hlength
    refine (selectors_accepts_more (Q := fun others' rest' =>
      others'.canonical = others.canonical ∧ rest' = rest) opening
      (fun d hd => selector_rereads_blanks hfilter hs (.inl rfl) hc hb hbound hd)
      fun d hd => selectors_rereads hfilter opening others hothers hd blanks_space ?_ ?_).mono ?_
    · rw [hd]
      simp only [List.length_append, List.length_cons]
      omega
    · rw [hd]
      simp only [List.length_append, List.length_cons]
      omega
    · rintro ⟨_, closing⟩ rest' ⟨s', comma', others', rfl, hs', hothers', hrest'⟩
      exact ⟨by simp [Selectors.canonical, hs', hothers'], hrest'⟩

/-! ### Segments -/

theorem bracketed_rereads {filter : Parser Expr} {bound : Nat}
    (hfilter : filter.Rereads 2 afterExpression bound) (id : Nat) (dots : Option Token)
    {ss : Selectors} (hss : ss.Printable) {c : Cursor} {rest : List Char}
    (hc : c.rest = '[' :: (ss.text.toList ++ ']' :: rest)) (hbound : c.rest.length ≤ bound) :
    Accepts (bracketed filter id dots) c fun s rest' =>
      s.canonical = Segment.bracketedForm dots.isSome ss ∧ rest' = rest := by
  have hc : c.rest = ['['] ++ (ss.text.toList ++ ']' :: rest) := hc
  refine .take hc rfl fun opening d _ _ hd => .get ?_
  refine .bind (selectors_rereads hfilter opening ss hss (b := []) hd .nil (Nat.lt_succ_self _) ?_)
    ?_
  · rw [hd]
    rw [hc, List.length_append] at hbound
    exact Nat.le_trans (Nat.le_add_left ..) hbound
  · rintro ⟨ss', closing⟩ d₁ ⟨hss', hd₁⟩
    exact .pure ⟨by simp [Segment.canonical, Segment.bracketedForm, hss'], hd₁⟩

theorem segment?_rereads {filter : Parser Expr} {bound : Nat}
    (hfilter : filter.Rereads 2 afterExpression bound) {s : Segment} (hs : s.Printable)
    {c : Cursor} {rest : List Char} (hc : c.rest = s.text.toList ++ rest)
    (hbound : c.rest.length ≤ bound) :
    Accepts (segment? filter) c fun found rest' =>
      ∃ s', found = some s' ∧ s'.canonical = s.canonical ∧ rest' = rest := by
  rw [s.canonical_eq]
  have hlength := congrArg List.length hc
  rw [s.toList_text] at hc hlength
  cases hdescendant : s.isDescendant with
  | false =>
    have hc : c.rest = [] ++ '[' :: (s.printed.text.toList ++ ']' :: rest) := by
      simpa [hdescendant] using hc
    refine segment?_accepts_bracket hc .nil fun id d hd => ?_
    apply bracketed_rereads hfilter id none hs.printed hd
    rw [hc] at hbound
    rw [hd]
    exact hbound
  | true =>
    have hc : c.rest = [] ++ '.' :: '.' :: '[' :: (s.printed.text.toList ++ ']' :: rest) := by
      simpa [hdescendant] using hc
    refine segment?_accepts_dots hc .nil fun id dots d hd => ?_
    apply bracketed_rereads hfilter id (some dots) hs.printed hd
    rw [hc] at hbound
    rw [hd]
    exact Nat.le_trans (Nat.le_add_right _ 2) hbound

/-- The segments are read back after any path of the same canonical form as the printed one. -/
theorem segments_rereads {filter : Parser Expr} {bound : Nat}
    (hfilter : filter.Rereads 2 afterExpression bound) {ss : List Segment}
    (hss : ∀ s ∈ ss, s.Printable) {rounds : Nat} {path path' : Path}
    (hpath : path'.canonical = path.canonical) {c : Cursor} {rest : List Char}
    (hc : c.rest = ss.flatMap (fun s => s.text.toList) ++ rest) (hrest : EndsSegments rest)
    (hrounds : (ss.flatMap fun s => s.text.toList).length ≤ rounds)
    (hbound : c.rest.length ≤ bound) :
    Accepts (segments filter rounds path') c fun p rest' =>
      p.canonical = (ss.foldl Path.step path).canonical ∧ rest' = rest := by
  induction ss generalizing rounds path path' c with
  | nil =>
    have hc : c.rest = rest := hc
    refine (segments_none rounds path' (hc ▸ hrest)).mono ?_
    rintro _ rest' ⟨rfl, hrest'⟩
    exact ⟨hpath, hrest'.trans hc⟩
  | cons s others ih =>
    obtain ⟨hs, hothers⟩ := List.forall_mem_cons.mp hss
    rw [List.flatMap_cons, List.append_assoc] at hc
    rw [List.flatMap_cons, List.length_append] at hrounds
    have hpositive : 0 < s.text.toList.length := by
      rw [s.toList_text, List.length_append, List.length_cons]
      omega
    obtain ⟨rounds, rfl⟩ : ∃ n, rounds = n + 1 :=
      Nat.exists_eq_succ_of_ne_zero (Nat.ne_of_gt (by omega))
    refine .bind (segment?_rereads hfilter hs hc hbound) ?_
    rintro _ d ⟨s', rfl, hs', hd⟩
    refine ih hothers ?_ hd (by omega) ?_
    · rw [Path.canonical, Path.canonical, hpath, hs']
    · rw [hc, List.length_append] at hbound
      rw [hd]
      exact Nat.le_trans (Nat.le_add_left ..) hbound

theorem pathExpression_rereads {filter : Parser Expr} {bound : Nat}
    (hfilter : filter.Rereads 2 afterExpression bound) (id : Nat) {p : Path} (hp : p.Printable)
    {c : Cursor} {rest : List Char} (hc : c.rest = p.text.toList ++ rest)
    (hrest : EndsSegments rest) (hbound : c.rest.length ≤ bound) :
    Accepts (pathExpression filter p.identifierKind) c fun e' rest' =>
      e'.canonical = (Expr.path id p).canonical ∧ rest' = rest := by
  rw [p.toList_text, List.cons_append, ← List.singleton_append] at hc
  refine .element fun id' d hd => .element fun pathId d₁ hd₁ => ?_
  refine .take (hd₁.trans (hd.trans hc)) rfl fun identifier d₂ hkind _ hd₂ => .get ?_
  have hroot := Path.canonical_root hkind pathId 0
  refine .bind (segments_rereads hfilter hp.segments hroot hd₂ hrest ?_ ?_) ?_
  · rw [hd₂, List.length_append]
    exact Nat.le_add_right ..
  · rw [hd₂]
    rw [hc, List.length_append] at hbound
    exact Nat.le_trans (Nat.le_add_left ..) hbound
  · rintro path d₃ ⟨hpath, hd₃⟩
    rw [Path.canonical_segments] at hpath
    exact .pure ⟨by simp [Expr.canonical, hpath], hd₃⟩

/-! ### Calls -/

theorem arguments_rereads {argument : Parser Expr} {bound : Nat}
    (hargument : argument.Rereads 2 afterExpression bound) (opening : Token) :
    (os : Operands) → os.Printable 2 → ∀ {rounds : Nat} {c : Cursor} {b rest : List Char},
      c.rest = b ++ ((os.text ", ").toList ++ ')' :: rest) → Blanks b → c.rest.length < rounds →
      c.rest.length < bound → Accepts (arguments argument opening rounds) c fun found rest' =>
        found.1.canonical = os.canonical ∧ rest' = rest
  | .last e, hos, rounds, c, b, rest, hc, hb, hrounds, hbound => by
    obtain ⟨more, rfl⟩ := Nat.exists_eq_add_of_lt hrounds
    obtain ⟨he, hrank⟩ := hos.of_last
    have hfollow : Follow afterExpression (')' :: rest) :=
      .cons (by simp [afterExpression]) rfl rest
    have hitem := hargument e c b (')' :: rest) he hrank hc hb hfollow hbound
    rw [trim_cons rfl] at hitem
    refine (arguments_accepts_last opening hitem).mono ?_
    rintro ⟨_, closing⟩ rest' ⟨⟨e', rfl, he'⟩, hrest'⟩
    exact ⟨by simp [Operands.canonical, he'], hrest'⟩
  | .more e comma others, hos, rounds, c, b, rest, hc, hb, hrounds, hbound => by
    obtain ⟨more, rfl⟩ := Nat.exists_eq_add_of_lt hrounds
    obtain ⟨⟨he, hrank⟩, hothers⟩ := hos.of_more
    have hc : c.rest = b ++ (e.text.toList ++
        ',' :: ([' '] ++ ((others.text ", ").toList ++ ')' :: rest))) := by
      rw [hc, Operands.text]
      simp
    have hlength := congrArg List.length hc
    simp only [List.length_append, List.length_cons] at hlength
    have hfollow (v : List Char) : Follow afterExpression (',' :: v) :=
      .cons (by simp [afterExpression, afterSelector]) rfl v
    have hitem := hargument e c b _ he hrank hc hb (hfollow _) hbound
    rw [trim_cons rfl] at hitem
    refine (arguments_accepts_more (Q := fun others' rest' =>
      others'.canonical = others.canonical ∧ rest' = rest) opening hitem fun d hd =>
        arguments_rereads hargument opening others hothers hd blanks_space ?_ ?_).mono ?_
    · rw [hd]
      simp only [List.length_append, List.length_cons]
      omega
    · rw [hd]
      simp only [List.length_append, List.length_cons]
      omega
    · rintro ⟨_, closing⟩ rest' ⟨e', comma', others', rfl, he', hothers', hrest'⟩
      exact ⟨by simp [Operands.canonical, he', hothers'], hrest'⟩

theorem call_rereads {argument : Parser Expr} {bound : Nat}
    (hargument : argument.Rereads 2 afterExpression bound) {id : Nat}
    {name opening closing : Token} {arguments : Arguments}
    (he : (Expr.call id name opening arguments closing).Printable) (id' : Nat) {name' : Token}
    (hname : name'.text = name.text) {c : Cursor} {rest : List Char}
    (hc : c.rest = '(' :: (arguments.text.toList ++ ')' :: rest))
    (hbound : c.rest.length ≤ bound) :
    Accepts (call argument id' name') c fun e' rest' =>
      e'.canonical = (Expr.call id name opening arguments closing).canonical ∧ rest' = rest := by
  cases arguments with
  | none =>
    have hc : c.rest = '(' :: ')' :: rest := hc
    refine (call_accepts_none argument id' name' hc (trim_cons rfl rest)).mono ?_
    rintro _ rest' ⟨⟨opening', closing', rfl⟩, hrest'⟩
    exact ⟨by simp [Expr.canonical, hname], hrest'⟩
  | some os =>
    have hos := he.call.2 os rfl
    have hc : c.rest = '(' :: ((os.text ", ").toList ++ ')' :: rest) := hc
    have hbegins := (hos.begins ", ").append (')' :: rest)
    have htrim := hbegins.trim_eq rfl
    have hcall := call_accepts_some (Q := fun os' rest' =>
      os'.canonical = os.canonical ∧ rest' = rest) argument id' name' hc (by
        rw [htrim]
        exact hbegins.head_ne rfl)
    rw [htrim] at hcall
    refine (hcall fun opening' d hd => arguments_rereads hargument opening' os hos (b := []) hd .nil
      ?_ ?_).mono ?_
    · rw [hd]
      exact Nat.lt_succ_self _
    · rw [hd]
      rw [hc] at hbound
      exact hbound
    · rintro _ rest' ⟨opening', os', closing', rfl, hos', hrest'⟩
      exact ⟨by simp [Expr.canonical, Arguments.canonical, hname, hos'], hrest'⟩

/-! ### Primary expressions -/

/-- The parsers of a depth read back expressions of their ranks, as far as so many characters
go. -/
structure Expressions.Rereads (inner : Expressions) (bound : Nat) : Prop where
  disjunction : inner.disjunction.Rereads 2 afterExpression bound
  negation : inner.negation.Rereads 0 afterBasic bound

theorem literal_rereads {inner : Expressions} {id : Nat} {token : Token} {value : Json}
    (he : (Expr.literal id token value).Printable) {c : Cursor} {b rest : List Char}
    (hc : c.rest = b ++ (value.text.toList ++ rest)) (hb : Blanks b)
    (hrest : Follow afterPrimary rest) :
    Accepts (primary inner) c fun e' rest' =>
      e'.canonical = (Expr.literal id token value).canonical ∧ rest' = rest := by
  obtain ⟨hscalar, hnumber⟩ := he.literal
  have htrim : trim c.rest = value.text.toList ++ rest := by
    rw [hc, trim_append hb, ((Literal.begins (Expr.literal_text hscalar)).append rest).trim_eq rfl]
  have hvalue {value' : Json} (hvalue : value' = value)
      (h : Accepts (primary inner) c fun e' rest' =>
        (∃ id token, e' = .literal id token value') ∧ rest' = rest) :
      Accepts (primary inner) c fun e' rest' =>
        e'.canonical = (Expr.literal id token value).canonical ∧ rest' = rest := by
    refine h.mono ?_
    rintro _ rest' ⟨⟨id', token', rfl⟩, hrest'⟩
    exact ⟨by rw [Expr.canonical, Expr.canonical, hvalue], hrest'⟩
  cases value with
  | null => exact hvalue rfl (primary_accepts_word (.inr (.inr rfl)) htrim hrest)
  | bool value =>
    cases value with
    | true => exact hvalue rfl (primary_accepts_word (.inl rfl) htrim hrest)
    | false => exact hvalue rfl (primary_accepts_word (.inr (.inl rfl)) htrim hrest)
  | number n =>
    refine hvalue ?_ (primary_accepts_number hc hb (number_text n) hrest)
    rw [String.ofList_toList]
    exact (hnumber n rfl).value
  | string s =>
    obtain ⟨body, htext, hbody, hdecode⟩ := Json.quote_literal s
    rw [Json.text, htext] at htrim
    exact hvalue (by rw [String.ofList_toList])
      (primary_accepts_string (.inr rfl) htrim hbody hdecode)
  | array | object => exact hscalar.elim

theorem primary_rereads {inner : Expressions} {bound : Nat} (h : inner.Rereads bound) {e : Expr}
    (he : e.Printable) (hatom : e.IsAtom) {c : Cursor} {b rest : List Char}
    (hc : c.rest = b ++ (e.text.toList ++ rest)) (hb : Blanks b) (hrest : Follow afterPrimary rest)
    (hbound : c.rest.length ≤ bound) :
    Accepts (primary inner) c fun e' rest' => e'.canonical = e.canonical ∧ rest' = rest := by
  have hlength := congrArg List.length hc
  rw [List.length_append] at hlength
  cases e with
  | path id p =>
    rw [Expr.text, p.toList_text, List.cons_append] at hc
    have hkind : (if (if p.isRelative then '@' else '$') = '@' then TokenKind.current else .root) =
        p.identifierKind := by
      unfold Path.identifierKind
      cases p.isRelative <;> rfl
    refine primary_accepts_path hc hb (by cases p.isRelative <;> simp) fun d hd => ?_
    rw [← List.cons_append, ← p.toList_text] at hd
    rw [hkind]
    refine pathExpression_rereads h.disjunction id he.path hd (endsSegments_afterPrimary hrest) ?_
    rw [hd]
    rw [Expr.text] at hlength
    omega
  | call id name opening arguments closing =>
    -- The name is read as a word first, and what comes after it makes this a call.
    obtain ⟨x, v, hv, hx⟩ := FunctionName.begins he.call.1
    have htext : (Expr.call id name opening arguments closing).text.toList ++ rest =
        name.text.toList ++ '(' :: (arguments.text.toList ++ ')' :: rest) := by
      simp [Expr.text]
    rw [htext] at hc hlength
    have htrim : trim c.rest = x :: (v ++ '(' :: (arguments.text.toList ++ ')' :: rest)) := by
      rw [hc, trim_append hb, ((FunctionName.begins he.call.1).append _).trim_eq rfl, hv]
      rfl
    refine primary_accepts_lower htrim hx fun d hd => ?_
    refine callOrWord_accepts_call he.call.1 (by rw [hd, hv]; rfl) fun id' name' d₁ hname hd₁ => ?_
    refine call_rereads h.disjunction he id' (hname.trans String.ofList_toList) hd₁ ?_
    rw [hd₁]
    simp only [List.length_append, List.length_cons] at hlength ⊢
    omega
  | literal id token value => exact literal_rereads he hc hb hrest
  | parens id opening e closing =>
    have htext : (Expr.parens id opening e closing).text.toList ++ rest =
        '(' :: (e.text.toList ++ ')' :: rest) := by
      simp [Expr.text]
    rw [htext] at hc hlength
    have htrim : trim c.rest = '(' :: (e.text.toList ++ ')' :: rest) := by
      rw [hc, trim_append hb, trim_cons rfl]
    have hinner (d : Cursor) (hd : d.rest = e.text.toList ++ ')' :: rest) :
        Accepts inner.disjunction d fun e' rest' =>
          e'.canonical = e.canonical ∧ trim rest' = ')' :: rest := by
      rw [← trim_cons (x := ')') rfl rest]
      refine h.disjunction e d [] (')' :: rest) he.parens e.rank_le hd .nil ?_ ?_
      · exact .cons (by simp [afterExpression]) rfl rest
      · rw [hd]
        rw [List.length_cons] at hlength
        omega
    refine (primary_accepts_parens htrim hinner).mono ?_
    rintro _ rest' ⟨⟨id', opening', e', closing', rfl, he'⟩, hrest'⟩
    exact ⟨by simp [Expr.canonical, he'], hrest'⟩
  | or | and | not | comparison | missing => exact hatom.elim

/-! ### Operators -/

theorem comparison_rereads {inner : Expressions} {bound : Nat} (h : inner.Rereads bound) {id : Nat}
    {left right : Expr} {operator : Token} {op : JsonPath.Comparison}
    (he : (Expr.comparison id left operator op right).Printable) {c : Cursor} {rest : List Char}
    (hc : c.rest = (Expr.comparison id left operator op right).text.toList ++ rest)
    (hrest : Follow afterBasic rest) (hbound : c.rest.length ≤ bound) :
    Accepts (comparison inner) c fun e' rest' =>
      e'.canonical = (Expr.comparison id left operator op right).canonical ∧
        trim rest' = trim rest := by
  obtain ⟨⟨hleft, hcomparable⟩, hright, hcomparable'⟩ := he.comparison
  have hc : c.rest = left.text.toList ++ ([' '] ++ (op.text.toList ++ ([' '] ++
      (right.text.toList ++ rest)))) := by
    rw [hc, Expr.text]
    simp
  have hlength := congrArg List.length hc
  simp only [List.length_append] at hlength
  have hfollow : Follow afterPrimary rest := hrest.mono fun x hx => by simp [afterPrimary, hx]
  obtain ⟨htrim, hoperator⟩ :=
    follow_operator op blanks_space ([' '] ++ (right.text.toList ++ rest))
  -- That the operands may be compared is checked on what has been read.
  have hfirst : Accepts (primary inner) c fun e' rest' =>
      (e'.IsComparable ∧ e'.canonical = left.canonical) ∧
        trim rest' = op.text.toList ++ ([' '] ++ (right.text.toList ++ rest)) := by
    refine (primary_rereads h hleft hcomparable.isAtom (b := []) hc .nil hoperator hbound).mono ?_
    rintro e' rest' ⟨he', rfl⟩
    exact ⟨⟨hcomparable.of_canonical he', he'⟩, htrim⟩
  have hsecond (d : Cursor) (hd : d.rest = [' '] ++ (right.text.toList ++ rest)) :
      Accepts (primary inner) d fun e' rest' =>
        (e'.IsComparable ∧ e'.canonical = right.canonical) ∧ trim rest' = trim rest := by
    refine (primary_rereads h hright hcomparable'.isAtom hd blanks_space hfollow ?_).mono ?_
    · rw [hd]
      simp only [List.length_append]
      omega
    · rintro e' rest' ⟨he', rfl⟩
      exact ⟨⟨hcomparable'.of_canonical he', he'⟩, rfl⟩
  refine (comparison_accepts_two op (by simp) hfirst hsecond).mono ?_
  rintro _ rest' ⟨⟨id', left', operator', right', rfl, hleft', hright'⟩, hrest'⟩
  exact ⟨by simp [Expr.canonical, hleft', hright'], hrest'⟩

theorem negation_rereads {inner : Expressions} {bound : Nat} (h : inner.Rereads bound) :
    (negation inner).Rereads 0 afterBasic (bound + 1) := by
  intro e c b rest he hrank hc hb hrest hbound
  have htrim : trim c.rest = e.text.toList ++ rest := by
    rw [hc, trim_append hb, ((Expr.begins he).append rest).trim_eq rfl]
  have hlength : (e.text.toList ++ rest).length ≤ bound := by
    rw [hc, List.length_append] at hbound
    omega
  -- Only the text of a negation begins with an exclamation mark.
  have hcomparison (hfirst : Begins isPrimaryFirst e.text.toList)
      (h : ∀ d : Cursor, d.rest = e.text.toList ++ rest → d.rest.length ≤ bound →
        Accepts (comparison inner) d fun e' rest' =>
          e'.canonical = e.canonical ∧ trim rest' = trim rest) :
      Accepts (negation inner) c fun e' rest' =>
        e'.canonical = e.canonical ∧ trim rest' = trim rest := by
    refine negation_accepts_comparison (by rw [htrim]; exact (hfirst.append rest).head_ne rfl) ?_
    intro d hd
    rw [htrim] at hd
    exact h d hd (hd ▸ hlength)
  have hatom (hatom : e.IsAtom) : Accepts (negation inner) c fun e' rest' =>
      e'.canonical = e.canonical ∧ trim rest' = trim rest := by
    have hfollow : Follow afterPrimary rest := hrest.mono fun x hx => by simp [afterPrimary, hx]
    refine hcomparison (Expr.begins_atom he hatom) fun d hd hbound => ?_
    refine comparison_accepts_one (noOperator_of_follow hrest) ?_
    exact (primary_rereads h he hatom (b := []) hd .nil hfollow hbound).mono
      fun _ _ h => ⟨h.1, congrArg trim h.2⟩
  cases e with
  | not id bang inner' =>
    obtain ⟨hinner, hrank⟩ := he.not
    have htrim : trim c.rest = '!' :: (inner'.text.toList ++ rest) := by
      rw [htrim, Expr.text]
      simp
    refine (negation_accepts_not (R := fun e' rest' => e'.canonical = inner'.canonical ∧
      trim rest' = trim rest) htrim (((Expr.begins hinner).append rest).head_ne rfl)
      fun d hd => h.negation inner' d [] rest hinner hrank hd .nil hrest ?_).mono ?_
    · rw [hd]
      rw [Expr.text, String.toList_append, List.append_assoc, List.length_append] at hlength
      exact Nat.lt_of_lt_of_le (Nat.lt_add_of_pos_left Nat.one_pos) hlength
    · rintro _ rest' ⟨id', bang', e', rfl, he', hrest'⟩
      exact ⟨by simp [Expr.canonical, he'], hrest'⟩
  | comparison id left operator op right =>
    refine hcomparison ?_ fun d hd hbound => comparison_rereads h he hd hrest hbound
    simp only [Expr.text, String.toList_append, List.append_assoc]
    exact (Expr.begins_atom he.comparison.1.1 he.comparison.1.2.isAtom).append _
  | path | call | literal | parens => exact hatom trivial
  | or | and => cases hrank
  | missing => exact he.wellFormed.elim

section Joined

variable {operand : Parser Expr} {rank : Nat} {x : Char} {tail set : List Char} {bound : Nat}

/-- The operands after an operator are read back, with the one blank before them that is
printed. -/
theorem operands_rereads (hoperand : operand.Rereads rank (x :: set) bound) (kind : TokenKind)
    (hblank : Cursor.isBlank x = false) (hx : x ∉ set) {separator : String}
    (hseparator : separator.toList = [' '] ++ (x :: tail ++ [' '])) :
    (os : Operands) → os.Printable rank → ∀ {rounds : Nat} {c : Cursor} {rest : List Char},
      c.rest = [' '] ++ ((os.text separator).toList ++ rest) → Follow set rest →
      c.rest.length < rounds → c.rest.length < bound →
      Accepts (operands kind (x :: tail) operand rounds) c fun os' rest' =>
        os'.canonical = os.canonical ∧ trim rest' = trim rest
  | .last e, hos, rounds, c, rest, hc, hrest, hrounds, hbound => by
    obtain ⟨more, rfl⟩ := Nat.exists_eq_add_of_lt hrounds
    obtain ⟨he, hrank⟩ := hos.of_last
    have hitem := hoperand e c [' '] rest he hrank hc blanks_space
      (hrest.mono fun _ => List.mem_cons_of_mem _) hbound
    refine (operands_accepts_last rfl (fun h => hx (hrest x h)) hitem).mono ?_
    rintro _ rest' ⟨⟨e', rfl, he'⟩, hrest'⟩
    exact ⟨by simp [Operands.canonical, he'], hrest'⟩
  | .more e operator others, hos, rounds, c, rest, hc, hrest, hrounds, hbound => by
    obtain ⟨more, rfl⟩ := Nat.exists_eq_add_of_lt hrounds
    obtain ⟨⟨he, hrank⟩, hothers⟩ := hos.of_more
    have hc : c.rest = [' '] ++ (e.text.toList ++ ([' '] ++ (x :: tail ++ ([' '] ++
        ((others.text separator).toList ++ rest))))) := by
      rw [hc, Operands.text]
      simp [hseparator]
    have hitem := hoperand e c [' '] _ he hrank hc blanks_space
      (follow_mark rfl hblank (List.mem_cons_self ..) blanks_space _) hbound
    rw [trim_mark rfl hblank blanks_space] at hitem
    have hlength := congrArg List.length hc
    simp only [List.length_append, List.length_cons] at hlength
    refine (operands_accepts_more (Q := fun os' rest' => os'.canonical = others.canonical ∧
      trim rest' = trim rest) hitem fun d hd => operands_rereads hoperand kind hblank hx hseparator
        others hothers hd hrest ?_ ?_).mono ?_
    · rw [hd]
      simp only [List.length_append, List.length_cons]
      omega
    · rw [hd]
      simp only [List.length_append, List.length_cons]
      omega
    · rintro _ rest' ⟨e', operator', others', rfl, he', hothers', hrest'⟩
      exact ⟨by simp [Operands.canonical, he', hothers'], hrest'⟩

/-- What `make` makes of operands is an expression of the next rank, with the separator between
its operands. -/
structure Joins (rank : Nat) (separator : String)
    (make : Nat → Expr → Token → Operands → Expr) : Prop where
  text (id : Nat) (first : Expr) (operator : Token) (rest : Operands) :
    (make id first operator rest).text = first.text ++ separator ++ rest.text separator
  canonical {id id' : Nat} {first first' : Expr} {operator operator' : Token}
    {rest rest' : Operands} (hfirst : first'.canonical = first.canonical)
    (hrest : rest'.canonical = rest.canonical) :
    (make id' first' operator' rest').canonical = (make id first operator rest).canonical
  printable {id : Nat} {first : Expr} {operator : Token} {rest : Operands}
    (h : (make id first operator rest).Printable) :
    (first.Printable ∧ first.rank ≤ rank) ∧ rest.Printable rank
  form (e : Expr) (h : e.rank ≤ rank + 1) :
    e.rank ≤ rank ∨ ∃ id first operator rest, e = make id first operator rest

theorem joins_and : Joins 0 " && " .and where
  text _ _ _ _ := by rw [Expr.text]
  canonical hfirst hrest := by rw [Expr.canonical, Expr.canonical, hfirst, hrest]
  printable := Expr.Printable.and
  form e h := by
    cases e with
    | and id first operator rest => exact .inr ⟨id, first, operator, rest, rfl⟩
    | or => simp [Expr.rank] at h
    | not | comparison | path | call | literal | parens | missing => exact .inl (Nat.le_refl 0)

theorem joins_or : Joins 1 " || " .or where
  text _ _ _ _ := by rw [Expr.text]
  canonical hfirst hrest := by rw [Expr.canonical, Expr.canonical, hfirst, hrest]
  printable := Expr.Printable.or
  form e h := by
    cases e with
    | or id first operator rest => exact .inr ⟨id, first, operator, rest, rfl⟩
    | and => exact .inl (Nat.le_refl 1)
    | not | comparison | path | call | literal | parens | missing => exact .inl (Nat.zero_le 1)

theorem joined_rereads (hoperand : operand.Rereads rank (x :: set) bound) (kind : TokenKind)
    (hblank : Cursor.isBlank x = false) (hx : x ∉ set) {separator : String}
    (hseparator : separator.toList = [' '] ++ (x :: tail ++ [' ']))
    {make : Nat → Expr → Token → Operands → Expr} (hmake : Joins rank separator make) :
    (joined kind (x :: tail) make operand).Rereads (rank + 1) set bound := by
  intro e c b rest he hrank hc hb hrest hbound
  rcases hmake.form e hrank with hrank | ⟨id, first, operator, others, rfl⟩
  · have hitem := hoperand e c b rest he hrank hc hb (hrest.mono fun _ => List.mem_cons_of_mem _)
      hbound
    exact joined_accepts_one rfl (fun h => hx (hrest x h)) hitem
  · obtain ⟨⟨hfirst, hrank⟩, hothers⟩ := hmake.printable he
    have hc : c.rest = b ++ (first.text.toList ++ ([' '] ++ (x :: tail ++ ([' '] ++
        ((others.text separator).toList ++ rest))))) := by
      rw [hc, hmake.text]
      simp [hseparator]
    have hitem := hoperand first c b _ hfirst hrank hc hb
      (follow_mark rfl hblank (List.mem_cons_self ..) blanks_space _) hbound
    rw [trim_mark rfl hblank blanks_space] at hitem
    have hlength := congrArg List.length hc
    simp only [List.length_append, List.length_cons] at hlength
    refine (joined_accepts_more (Q := fun os' rest' => os'.canonical = others.canonical ∧
      trim rest' = trim rest) hitem fun d hd => operands_rereads hoperand kind hblank hx hseparator
        others hothers hd hrest ?_ ?_).mono ?_
    · rw [hd]
      exact Nat.lt_succ_self _
    · rw [hd]
      simp only [List.length_append, List.length_cons]
      omega
    · rintro _ rest' ⟨id', first', operator', others', rfl, hfirst', hothers', hrest'⟩
      exact ⟨hmake.canonical hfirst' hothers', hrest'⟩

end Joined

theorem conjunction_rereads {inner : Expressions} {bound : Nat} (h : inner.Rereads bound) :
    (conjunction inner).Rereads 1 afterConjunction (bound + 1) :=
  joined_rereads (negation_rereads h) .and rfl (by decide) rfl joins_and

theorem disjunction_rereads {inner : Expressions} {bound : Nat} (h : inner.Rereads bound) :
    (disjunction inner).Rereads 2 afterExpression (bound + 1) :=
  joined_rereads (conjunction_rereads h) .or rfl (by decide) rfl joins_or

/-- Every level of nesting takes at least one character. -/
theorem expressions_reread (depth : Nat) : (expressions depth).Rereads depth := by
  induction depth with
  | zero =>
    exact ⟨fun _ _ _ _ _ _ _ _ _ h => absurd h (Nat.not_lt_zero _),
      fun _ _ _ _ _ _ _ _ _ h => absurd h (Nat.not_lt_zero _)⟩
  | succ depth ih => exact ⟨disjunction_rereads ih, negation_rereads ih⟩

end Parser

end JsonPath
