import JsonPath.Proofs.Syntax.Alternatives
import JsonPath.Proofs.Syntax.Soundness

/-!
What the grammar derives is read without fault. Every production is given a text of the language
of its element and what follows it, and is shown to report nothing and to leave what follows, up
to blanks. What may follow an element decides where its text ends.
-/

namespace JsonPath

namespace Parser

open Grammar

/-! ### Literals and names -/

theorem integer_accepts {c : Cursor} {w rest : List Char} (hc : c.rest = w ++ rest)
    (hw : Index w) (hrest : IntegerText.Ends rest) :
    Accepts integer c fun b rest' =>
      b.value = (IntegerText.ofChars c.rest).value ∧ rest' = rest := by
  obtain ⟨horder, hlength⟩ := IntegerText.inOrder_index hw hrest
  rw [← hc] at horder hlength
  refine .get ?_
  extract_lets t whole length final tail
  have hzeros : (decide (1 < t.digits.length) && decide (t.digits.head? = some '0')) = false := by
    simpa [LeadingZero] using horder.zeros
  have hnegative : (t.negative && decide (t.digits = ['0'])) = false := by
    simpa using horder.negative_zero
  rw [if_neg (by simpa using horder.digits_ne), if_neg (by simp [hzeros]),
    if_neg (by simp [hnegative])]
  unfold tail
  rw [if_neg (by simp [show t.tail = [] from horder.tail_eq])]
  refine .take hc ?_ fun _ _ _ _ hd => .pure ⟨rfl, hd⟩
  rw [show length = t.wholeLength by simp [length, show t.tail = [] from horder.tail_eq]]
  exact hlength

theorem Index.begins {w : List Char} (hw : Index w) :
    ∃ x v, w = x :: v ∧ (x = '-' || Text.isDigit x) = true := by
  have hwhole {v : List Char} (hv : Whole v) :
      ∃ x u, v = x :: u ∧ (x = '-' || Text.isDigit x) = true := by
    obtain ⟨hne, hdigits, -⟩ := Whole.digits hv
    obtain ⟨x, u, rfl⟩ := List.exists_cons_of_ne_nil hne
    exact ⟨x, u, rfl, by simp [isDigit_iff.mpr (hdigits x (by simp))]⟩
  cases hw with
  | whole hv => exact hwhole hv
  | negative hv => exact ⟨'-', _, rfl, rfl⟩

theorem bound?_some {c : Cursor} {w rest : List Char} (hc : c.rest = w ++ rest)
    (hw : Index w) (hrest : IntegerText.Ends rest) :
    Accepts bound? c fun b rest' =>
      (∃ bound, b = some bound ∧ bound.value = (IntegerText.ofChars c.rest).value) ∧
        rest' = rest := by
  obtain ⟨x, v, hv, hx⟩ := Index.begins hw
  refine .peek ?_
  have hhead : c.rest.head? = some x := by
    rw [hc, hv]
    rfl
  rw [hhead]
  dsimp only
  rw [if_pos hx]
  exact .map ((integer_accepts hc hw hrest).mono fun b _ h => ⟨⟨b, rfl, h.1⟩, h.2⟩)

theorem bound?_none {c : Cursor}
    (h : ∀ x, c.rest.head? = some x → (x = '-' || Text.isDigit x) = false) :
    Accepts bound? c fun b rest' => b = none ∧ rest' = c.rest := by
  refine .peek ?_
  cases hx : c.rest.head? with
  | none => exact .pure ⟨rfl, rfl⟩
  | some x =>
    dsimp only
    rw [if_neg (by simp [h x hx])]
    exact .pure ⟨rfl, rfl⟩

theorem numberLiteral_accepts {c : Cursor} {w rest : List Char} (hc : c.rest = w ++ rest)
    (hw : Grammar.Number w) (hrest : NumberText.Ends rest) :
    Accepts numberLiteral c fun e rest' =>
      (∃ id token, e = .literal id token (numberValue (String.ofList w))) ∧ rest' = rest := by
  obtain ⟨horder, hlength⟩ := NumberText.inOrder_number hw hrest
  rw [← hc] at horder hlength
  refine .element fun id d hd => .get ?_
  rw [hd]
  extract_lets t final exponent fraction
  have hzeros : (decide (1 < t.digits.length) && decide (t.digits.head? = some '0')) = false := by
    simpa [LeadingZero] using horder.zeros
  have hexponent : (t.exponent.any fun e => e.2.isEmpty) = false := by
    cases hexponent : t.exponent with
    | none => rfl
    | some e =>
      obtain ⟨sign, digits⟩ := e
      cases digits with
      | nil => exact absurd hexponent (horder.exponent_ne sign)
      | cons => rfl
  rw [if_neg (by simpa using horder.digits_ne), if_neg (by simp [hzeros])]
  unfold fraction
  rw [if_neg horder.fraction_ne]
  unfold exponent
  rw [if_neg (by simp [hexponent])]
  refine .take (hd.trans hc) hlength fun token _ _ htext he => .pure ⟨⟨id, token, ?_⟩, he⟩
  rw [htext]

theorem stringLiteral_accepts {quote : Char} (hmark : quote = '\'' ∨ quote = '"') {c : Cursor}
    {w rest : List Char} (hc : c.rest = quote :: w ++ [quote] ++ rest) (hw : Quoted quote w) :
    Accepts (stringLiteral quote) c fun found rest' =>
      found.2 = String.ofList (StringLiteral.decode quote w).1 ∧ rest' = rest := by
  have hbody := StringLiteral.body_quoted hmark hw rest
  have hdecode := StringLiteral.decodeFrom_quoted hmark hw 0
  have hdrop : c.rest.drop 1 = w ++ quote :: rest := by simp [hc]
  refine .get ?_
  rw [hdrop, hbody]
  dsimp only
  rw [show (StringLiteral.decode quote w).2 = [] from hdecode]
  simp only [Bool.not_true, Bool.false_eq_true, if_false, if_true, List.forIn_nil, pure_bind]
  refine .take hc ?_ fun _ _ _ _ hd => .pure ⟨rfl, hd⟩
  simp only [List.length_append, List.length_cons, List.length_nil]
  omega

/-- No character comes next that would go on with a name. -/
def EndsName (rest : List Char) : Prop := ∀ x, rest.head? = some x → isNameChar x = false

theorem takeWhile_name {w rest : List Char} (hw : ∀ d ∈ w, IsNameChar d) (hrest : EndsName rest) :
    (w ++ rest).takeWhile isNameChar = w := by
  rw [List.takeWhile_append_of_pos fun d hd => isNameChar_iff.mpr (hw d hd)]
  cases rest with
  | nil => simp
  | cons x rest => rw [List.takeWhile_cons_of_neg (by simp [hrest x rfl]), List.append_nil]

theorem shorthandSelector_accepts (after : TokenKind) {c : Cursor} {w rest : List Char}
    (hc : c.rest = w ++ rest) (hw : Shorthand w) (hrest : EndsName rest) :
    Accepts (shorthandSelector after) c fun s rest' =>
      (Name w → s.isSingular = true) ∧ rest' = rest := by
  refine .element fun id d hd => .get ?_
  cases hw with
  | wildcard =>
    rw [hd.trans hc]
    refine .take (hd.trans hc) rfl fun _ _ _ _ he => .pure ⟨fun hname => ?_, he⟩
    cases hname with
    | mk first => simp [IsNameFirst, IsLower, IsUpper] at first
  | name hname =>
    obtain ⟨first, others⟩ := hname
    rename_i x v
    have hx : x ≠ '*' := by
      rintro rfl
      simp [IsNameFirst, IsLower, IsUpper] at first
    rw [hd.trans hc, List.cons_append]
    split
    · rename_i heq
      exact absurd (List.cons.inj heq).1 hx
    · rename_i y more _ heq
      obtain ⟨rfl, rfl⟩ := List.cons.inj heq
      rw [if_pos (isNameFirst_iff.mpr first), takeWhile_name others hrest]
      exact .take (hd.trans hc) (Nat.add_comm 1 _) fun _ _ _ _ he => .pure ⟨fun _ => rfl, he⟩
    · rename_i heq
      cases heq

/-! ### Selectors and segments -/

/-- The characters that may follow a selector. -/
def afterSelector : List Char := [',', ']']

theorem ends_of_follow {chars rest : List Char} (h : Follow chars rest)
    (hchars : chars.all (fun x => !Text.isDigit x && x != '.' && x != 'e' && x != 'E') = true) :
    IntegerText.Ends rest := by
  have hall : ∀ x, rest.head? = some x →
      Text.isDigit x = false ∧ x ≠ '.' ∧ x ≠ 'e' ∧ x ≠ 'E' := by
    intro x hx
    have hmem := h.head hx
    simp only [List.mem_cons] at hmem
    rcases hmem with rfl | rfl | rfl | rfl | hmem
    · decide
    · decide
    · decide
    · decide
    · simpa [and_assoc] using List.all_eq_true.mp hchars x hmem
  refine ⟨fun x hx hdigit => ?_, fun x hx => (hall x hx).2⟩
  rw [← isDigit_iff, (hall x hx).1] at hdigit
  cases hdigit

/-- What follows a bound, after blanks. -/
def afterBound : List Char := ':' :: afterSelector

theorem ends_afterBound {rest : List Char} (h : Follow afterBound rest) :
    IntegerText.Ends rest :=
  ends_of_follow h (by decide)

theorem bound?_none_of_follow {c : Cursor} {rest : List Char} (h : Follow afterBound rest)
    (hc : c.rest = trim rest) : Accepts bound? c fun b rest' => b = none ∧ rest' = c.rest := by
  refine bound?_none fun x hx => ?_
  have hchars : afterBound.all (fun y => !(y = '-' || Text.isDigit y)) = true := by decide
  have hmem : x ∈ afterBound := h x (by rw [← hc]; exact hx)
  simpa using List.all_eq_true.mp hchars x hmem

theorem follow_sliceStep {w rest : List Char} (hw : SliceStep w)
    (hrest : Follow afterSelector rest) : Follow afterBound (w ++ rest) := by
  cases hw with
  | none => exact hrest.mono fun x hx => List.mem_cons_of_mem _ hx
  | colon | some => exact .cons (List.mem_cons_self ..) rfl _

theorem Index.trim_append {w : List Char} (hw : Index w) (rest : List Char) :
    trim (w ++ rest) = w ++ rest := by
  obtain ⟨x, v, rfl, hx⟩ := Index.begins hw
  refine trim_cons ?_ _
  cases hblank : Cursor.isBlank x with
  | false => rfl
  | true => rcases isBlank_iff.mp hblank with rfl | rfl | rfl | rfl <;> cases hx

/-- A bound with the blanks after it, if there is one. -/
theorem sliceBound_accepts {c : Cursor} {w rest : List Char} (hw : SliceBound w)
    (hrest : Follow afterBound rest) (hc : c.rest = trim (w ++ rest)) :
    Accepts bound? c fun _ rest' => trim rest' = trim rest := by
  cases hw with
  | none =>
    refine (bound?_none_of_follow hrest hc).mono fun _ rest' h => ?_
    rw [h.2, hc]
    exact trim_trim _
  | @some w b index hb =>
    rw [List.append_assoc, Index.trim_append index] at hc
    refine (bound?_some hc index (ends_afterBound (.before hb hrest))).mono fun _ rest' h => ?_
    rw [h.2, trim_append hb]

/-- A step is a colon, then blanks and a bound, if there is anything. -/
theorem SliceStep.split {w : List Char} (hw : SliceStep w) :
    w = [] ∨ ∃ b v, w = ':' :: (b ++ v) ∧ Blanks b ∧ SliceBound v := by
  cases hw with
  | none => exact .inl rfl
  | colon => exact .inr ⟨[], [], rfl, .nil, .none⟩
  | @some b v hb index =>
    exact .inr ⟨b, v, rfl, hb, by simpa using SliceBound.some index Blanks.nil⟩

theorem isAt_of_trim {c : Cursor} {x : Char} {chars rest : List Char} {set : List Char}
    (hc : c.rest = trim rest) (h : Follow set rest) (hx : x ∉ set) :
    c.isAt (x :: chars) = false :=
  isAt_of_ne fun hhead => hx (h x (by rw [← hc]; exact hhead))

theorem stepPart?_accepts {c : Cursor} {w rest : List Char} (hw : SliceStep w)
    (hrest : Follow afterSelector rest) (hc : trim c.rest = trim (w ++ rest)) :
    Accepts stepPart? c fun _ rest' => trim rest' = trim rest := by
  rcases SliceStep.split hw with rfl | ⟨b, v, rfl, hb, hv⟩
  · refine .goBack (g := pure none) (fun d range e he => ?_) (.pure hc)
    rw [isAt_bind, isAt_of_trim (he.trans hc) hrest (by simp [afterSelector])]
    rfl
  · refine .goOn fun d range e he => ?_
    have he : e.rest = [':'] ++ (b ++ v ++ rest) := he.trans hc
    refine .isAt (isAt_append he) (.take he rfl fun _ _ _ _ hd => .skipBlanks fun _ d' hd' => ?_)
    refine .bind (sliceBound_accepts hv (hrest.mono ?_) ?_) fun _ _ h => .pure h
    · exact fun x hx => List.mem_cons_of_mem _ hx
    · rw [hd', hd, List.append_assoc, trim_append hb]

theorem Slice.trim_append {w : List Char} (hw : Slice w) (rest : List Char) :
    trim (w ++ rest) = w ++ rest := by
  obtain ⟨hu, hb, hv, hstep⟩ := hw
  cases hu with
  | none => exact trim_cons rfl _
  | some index => simpa using Index.trim_append index _

theorem slice_accepts {c : Cursor} {w rest : List Char} (hw : Slice w)
    (hrest : Follow afterSelector rest) (hc : c.rest = w ++ rest) :
    Accepts indexOrSlice c fun _ rest' => trim rest' = trim rest := by
  obtain ⟨hu, hb, hv, hstep⟩ := hw
  rename_i u b v s
  have hcolon : Follow afterBound (':' :: (b ++ (v ++ (s ++ rest)))) :=
    .cons (List.mem_cons_self ..) rfl _
  have hstart : trim (u ++ ':' :: (b ++ (v ++ (s ++ rest)))) = c.rest := by
    have htrim := Slice.trim_append (.mk hu hb hv hstep) rest
    rw [hc, ← htrim]
    simp
  refine .element fun id d hd => .bind (sliceBound_accepts hu hcolon (hd.trans hstart.symm)) ?_
  refine fun start d₁ hd₁ => .goOn fun _ _ d₂ hd₂ => ?_
  have hd₂ : d₂.rest = [':'] ++ (b ++ (v ++ (s ++ rest))) := hd₂.trans hd₁
  refine .isAt (isAt_append hd₂) (.take hd₂ rfl fun _ d₃ _ _ hd₃ => .skipBlanks fun _ d₄ hd₄ => ?_)
  rw [hd₃, trim_append hb] at hd₄
  refine .bind (sliceBound_accepts hv (follow_sliceStep hstep hrest) hd₄) fun stop d₅ hd₅ => ?_
  exact .bind (stepPart?_accepts hstep hrest hd₅) fun step d₆ hd₆ => .pure hd₆

theorem index_accepts {c : Cursor} {w rest : List Char} (hw : Index w)
    (hrest : Follow afterSelector rest) (hc : c.rest = w ++ rest) :
    Accepts indexOrSlice c fun s rest' =>
      (∃ id token, s = .index id token (IntegerText.ofChars c.rest).value) ∧
        trim rest' = trim rest := by
  have hends : IntegerText.Ends rest :=
    ends_afterBound (hrest.mono fun x hx => List.mem_cons_of_mem _ hx)
  refine .element fun id d hd => .bind (bound?_some (hd.trans hc) hw hends) ?_
  rintro _ d₁ ⟨⟨bound, rfl, hvalue⟩, hd₁⟩
  refine .goBack (g := pure (.index id bound.token bound.value)) (fun _ _ e he => ?_) (.pure ?_)
  · have hat : e.isAt [':'] = false :=
      isAt_of_trim (he.trans (congrArg trim hd₁)) hrest (by simp [afterSelector])
    rw [isAt_bind, hat]
    rfl
  · rw [hvalue, hd]
    exact ⟨⟨id, bound.token, rfl⟩, congrArg trim hd₁⟩

/-- An index or a slice begins in one of three ways. -/
theorem selector_accepts_first (filter : Parser Expr) {c : Cursor} {x : Char}
    {P : JsonPath.Selector → List Char → Prop} (hx : c.rest.head? = some x)
    (hfirst : (x = '-' || x = ':' || Text.isDigit x) = true) (h : Accepts indexOrSlice c P) :
    Accepts (selector filter) c P := by
  refine .peek ?_
  rw [hx]
  split
  case h_5 heq =>
    obtain rfl := Option.some.inj heq
    rw [if_pos hfirst]
    exact h
  case h_6 heq => cases heq
  all_goals
    rename_i heq
    obtain rfl := Option.some.inj heq
    cases hfirst

theorem Index.head {w : List Char} (hw : Index w) (rest : List Char) :
    ∃ x, (w ++ rest).head? = some x ∧ (x = '-' || x = ':' || Text.isDigit x) = true := by
  obtain ⟨x, v, rfl, hx⟩ := Index.begins hw
  refine ⟨x, rfl, ?_⟩
  rw [Bool.or_eq_true] at hx
  rcases hx with hx | hx <;> simp [hx]

theorem Slice.head {w : List Char} (hw : Slice w) (rest : List Char) :
    ∃ x, (w ++ rest).head? = some x ∧ (x = '-' || x = ':' || Text.isDigit x) = true := by
  obtain ⟨hu, hb, hv, hstep⟩ := hw
  cases hu with
  | none => exact ⟨':', rfl, rfl⟩
  | some index =>
    simp only [List.append_assoc]
    exact Index.head index _

theorem selector_accepts_index {filter : Parser Expr} {c : Cursor} {w rest : List Char}
    (hc : c.rest = w ++ rest) (hw : Index w) (hrest : Follow afterSelector rest) :
    Accepts (selector filter) c fun s rest' =>
      (∃ id token, s = .index id token (IntegerText.ofChars c.rest).value) ∧
        trim rest' = trim rest := by
  obtain ⟨x, hx, hfirst⟩ := Index.head hw rest
  rw [← hc] at hx
  exact selector_accepts_first filter hx hfirst (index_accepts hw hrest hc)

theorem selector_accepts_string {filter : Parser Expr} {c : Cursor} {w rest : List Char}
    (hc : c.rest = w ++ rest) (hw : StringLiteral w) :
    Accepts (selector filter) c fun s rest' => s.isSingular = true ∧ rest' = rest := by
  obtain ⟨hmark, hbody⟩ := hw
  rename_i quote w
  refine .peek ?_
  rw [hc]
  rcases hmark with rfl | rfl
  · exact .element fun id d hd => .bind (stringLiteral_accepts (.inl rfl) (hd.trans hc) hbody)
      fun _ _ he => .pure ⟨rfl, he.2⟩
  · exact .element fun id d hd => .bind (stringLiteral_accepts (.inr rfl) (hd.trans hc) hbody)
      fun _ _ he => .pure ⟨rfl, he.2⟩

/-- The characters that may follow an expression. -/
def afterExpression : List Char := ')' :: afterSelector

/-- The parser accepts the texts of the language, with blanks before them, where one of the
characters comes next and fewer than so many characters are ahead. -/
def Completes (p : Parser Expr) (L : Language) (chars : List Char) (bound : Nat) : Prop :=
  ∀ (c : Cursor) (b w rest : List Char), c.rest = b ++ (w ++ rest) → Blanks b → L w →
    Follow chars rest → c.rest.length < bound → Accepts p c fun _ rest' => trim rest' = trim rest

theorem selector_accepts {filter : Parser Expr} {bound : Nat}
    (hfilter : filter.Completes Disjunction afterExpression bound) {c : Cursor}
    {w rest : List Char} (hc : c.rest = w ++ rest) (hw : Grammar.Selector w)
    (hrest : Follow afterSelector rest) (hbound : c.rest.length ≤ bound) :
    Accepts (selector filter) c fun _ rest' => trim rest' = trim rest := by
  cases hw with
  | name hstring =>
    exact (selector_accepts_string hc hstring).mono fun _ _ h => congrArg trim h.2
  | wildcard =>
    refine .peek ?_
    rw [hc]
    exact .element fun id d hd => .take (hd.trans hc) rfl fun _ _ _ _ he => .pure (congrArg trim he)
  | slice hslice =>
    obtain ⟨x, hx, hfirst⟩ := Slice.head hslice rest
    rw [← hc] at hx
    exact selector_accepts_first filter hx hfirst (slice_accepts hslice hrest hc)
  | index hindex => exact (selector_accepts_index hc hindex hrest).mono fun _ _ h => h.2
  | @filter b v hb htest =>
    refine .peek ?_
    rw [hc]
    refine .element fun id d hd => .take (w := ['?']) (hd.trans hc) rfl fun _ e _ _ he => ?_
    refine .bind (hfilter e b v rest ?_ hb htest ?_ ?_) fun _ _ h => .pure h
    · exact he.trans (List.append_assoc b v rest)
    · exact hrest.mono fun x hx => List.mem_cons_of_mem _ hx
    · rw [he]
      rw [hc] at hbound
      exact hbound

theorem Selector.trim_append {w : List Char} (hw : Grammar.Selector w) (rest : List Char) :
    trim (w ++ rest) = w ++ rest := by
  cases hw with
  | name hstring =>
    obtain ⟨rfl | rfl, -⟩ := hstring <;> exact trim_cons rfl _
  | wildcard | filter => exact trim_cons rfl _
  | slice hslice => exact Slice.trim_append hslice rest
  | index hindex => exact Index.trim_append hindex rest

/-- What follows the last selector, in brackets. -/
theorem follow_closing {b : List Char} (hb : Blanks b) (rest : List Char) :
    Follow afterSelector (b ++ ']' :: rest) :=
  .before hb (.cons (by simp [afterSelector]) rfl rest)

theorem selectors_accepts {filter : Parser Expr} {bound : Nat}
    (hfilter : filter.Completes Disjunction afterExpression bound) (opening : Token)
    {rounds : Nat} {c : Cursor} {b b' w rest : List Char}
    (hc : c.rest = b ++ (w ++ (b' ++ ']' :: rest))) (hb : Blanks b) (hb' : Blanks b')
    (hw : Separated [','] Grammar.Selector w) (hrounds : c.rest.length < rounds)
    (hbound : c.rest.length ≤ bound) :
    Accepts (selectors filter opening rounds) c fun _ rest' => rest' = rest := by
  have hitem {c d : Cursor} {b w v : List Char} (hc : c.rest = b ++ (w ++ v)) (hb : Blanks b)
      (hw : Grammar.Selector w) (hv : Follow afterSelector v) (hbound : c.rest.length ≤ bound)
      (hd : d.rest = trim c.rest) :
      Accepts (selector filter) d fun _ rest' => True ∧ trim rest' = trim v := by
    refine (selector_accepts hfilter (w := w) ?_ hw hv ?_).mono fun _ _ h => ⟨trivial, h⟩
    · rw [hd, hc, trim_append hb, Selector.trim_append hw]
    · rw [hd]
      exact Nat.le_trans (length_trim_le _) hbound
  induction hw generalizing c b rounds with
  | @one w hw =>
    obtain ⟨more, rfl⟩ := Nat.exists_eq_add_of_lt hrounds
    refine (selectors_accepts_last (P := fun _ => True) opening fun d hd => ?_).mono
      fun _ _ h => h.2
    have haccepts := hitem hc hb hw (follow_closing hb' rest) hbound hd
    rw [trim_append hb', trim_cons rfl] at haccepts
    exact haccepts
  | @more w b₁ b₂ others hw hb₁ hb₂ hothers ih =>
    obtain ⟨more, rfl⟩ := Nat.exists_eq_add_of_lt hrounds
    have hc : c.rest = b ++ (w ++ (b₁ ++ ',' :: (b₂ ++ (others ++ (b' ++ ']' :: rest))))) := by
      simpa using hc
    have hlength := congrArg List.length hc
    simp only [List.length_append, List.length_cons] at hlength
    have hfollow : Follow afterSelector (b₁ ++ ',' :: (b₂ ++ (others ++ (b' ++ ']' :: rest)))) :=
      .before hb₁ (.cons (by simp [afterSelector]) rfl _)
    refine (selectors_accepts_more (P := fun _ => True) (Q := fun _ rest' => rest' = rest) opening
      (fun d hd => ?_) fun d hd => ih hd hb₂ ?_ ?_).mono ?_
    · have haccepts := hitem hc hb hw hfollow hbound hd
      rw [trim_append hb₁, trim_cons rfl] at haccepts
      exact haccepts
    · rw [hd]
      simp only [List.length_append, List.length_cons]
      omega
    · rw [hd]
      simp only [List.length_append, List.length_cons]
      omega
    · rintro found rest' ⟨_, _, _, _, _, h⟩
      exact h

theorem bracketed_accepts {filter : Parser Expr} {bound : Nat}
    (hfilter : filter.Completes Disjunction afterExpression bound) (id : Nat)
    (dots : Option Token) {c : Cursor} {w rest : List Char} (hc : c.rest = w ++ rest)
    (hw : Bracketed w) (hbound : c.rest.length ≤ bound) :
    Accepts (bracketed filter id dots) c fun _ rest' => rest' = rest := by
  obtain ⟨hb, hselectors, hb'⟩ := hw
  rename_i b v b'
  have hc : c.rest = ['['] ++ (b ++ (v ++ (b' ++ ']' :: rest))) := by simpa using hc
  refine .take hc rfl fun opening d _ _ hd => .get ?_
  refine .bind (selectors_accepts hfilter opening hd hb hb' hselectors (Nat.lt_succ_self _) ?_) ?_
  · rw [hd]
    rw [hc, List.length_append] at hbound
    exact Nat.le_trans (Nat.le_add_left ..) hbound
  · exact fun found d₁ hd₁ => .pure hd₁

/-- A name or an index in brackets makes a segment that gives one value. -/
theorem bracketed_accepts_singular {filter : Parser Expr} (id : Nat) {c : Cursor}
    {b w b' rest : List Char} (hc : c.rest = '[' :: (b ++ (w ++ (b' ++ ']' :: rest))))
    (hb : Blanks b) (hw : StringLiteral w ∨ Index w) (hb' : Blanks b') :
    Accepts (bracketed filter id none) c fun s rest' => s.isSingular = true ∧ rest' = rest := by
  have hc : c.rest = ['['] ++ (b ++ (w ++ (b' ++ ']' :: rest))) := hc
  have htrim : ∀ v, trim (w ++ v) = w ++ v := fun v =>
    hw.elim (fun h => Selector.trim_append (.name h) v) fun h => Index.trim_append h v
  have hclosing : trim (b' ++ ']' :: rest) = ']' :: rest := by rw [trim_append hb', trim_cons rfl]
  refine .take hc rfl fun opening d _ _ hd => .get ?_
  refine .bind (P := fun found rest' => (∃ s, found.1 = .last s ∧ s.isSingular = true) ∧
    rest' = rest) (selectors_accepts_last opening fun e he => ?_) ?_
  · rw [hd, trim_append hb, htrim] at he
    rw [← hclosing]
    rcases hw with hw | hw
    · exact (selector_accepts_string he hw).mono fun _ _ h => ⟨h.1, congrArg trim h.2⟩
    · refine (selector_accepts_index he hw (follow_closing hb' rest)).mono ?_
      rintro _ _ ⟨⟨id, token, rfl⟩, h⟩
      exact ⟨rfl, h⟩
  · rintro found d₁ ⟨⟨s, hs, hsingular⟩, hd₁⟩
    refine .pure ⟨(Segment.isSingular_iff _).mpr ⟨rfl, s, ?_, hsingular⟩, hd₁⟩
    simp [Segment.selectors, hs, Selectors.toList]

theorem Shorthand.trim_append {w : List Char} (hw : Shorthand w) (rest : List Char) :
    trim (w ++ rest) = w ++ rest := by
  cases hw with
  | wildcard => exact trim_cons rfl _
  | name hname =>
    obtain ⟨first, -⟩ := hname
    refine trim_cons ?_ _
    rename_i x _
    cases hblank : Cursor.isBlank x with
    | false => rfl
    | true =>
      rcases isBlank_iff.mp hblank with rfl | rfl | rfl | rfl <;>
        simp [IsNameFirst, IsLower, IsUpper] at first

/-- A shorthand begins neither like a second dot nor like an opening bracket. -/
theorem Shorthand.head_ne {w : List Char} (hw : Shorthand w) (rest : List Char) :
    (w ++ rest).head? ≠ some '.' ∧ (w ++ rest).head? ≠ some '[' := by
  cases hw with
  | wildcard => simp
  | name hname =>
    obtain ⟨first, -⟩ := hname
    constructor
    all_goals
      intro hhead
      obtain rfl := Option.some.inj hhead
      simp [IsNameFirst, IsLower, IsUpper] at first

theorem segment?_accepts_dot {filter : Parser Expr} {c : Cursor} {b w rest : List Char}
    (hc : c.rest = b ++ '.' :: (w ++ rest)) (hb : Blanks b) (hw : Shorthand w)
    (hrest : EndsName rest) :
    Accepts (segment? filter) c fun found rest' =>
      (∃ s, found = some s ∧ (Name w → s.isSingular = true)) ∧ rest' = rest := by
  refine .goOn fun _ _ d hd => ?_
  rw [hc, trim_append hb, trim_cons rfl] at hd
  have hdots : d.isAt ['.', '.'] = false := isAt_second hd (Shorthand.head_ne hw rest).1
  have hd : d.rest = ['.'] ++ (w ++ rest) := hd
  refine .isAt hdots (.isAt (isAt_append hd) (.element fun id d₁ hd₁ => ?_))
  refine .take (hd₁.trans hd) rfl fun dot d₂ hkind _ hd₂ => ?_
  have htrim : trim d₂.rest = d₂.rest := by rw [hd₂, Shorthand.trim_append hw]
  refine .bind (rejectBlanks_accepts _ htrim) fun _ d₃ hd₃ => ?_
  refine .bind (shorthandSelector_accepts _ (hd₃.trans hd₂) hw hrest) fun s d₄ hd₄ => ?_
  refine .pure ⟨⟨_, rfl, fun hname => ?_⟩, hd₄.2⟩
  exact (Segment.isSingular_iff _).mpr ⟨by simp [Segment.isDescendant, hkind], s, rfl, hd₄.1 hname⟩

theorem segment?_accepts_bracket {filter : Parser Expr} {c : Cursor} {b v : List Char}
    {P : JsonPath.Segment → List Char → Prop} (hc : c.rest = b ++ '[' :: v) (hb : Blanks b)
    (h : ∀ id (d : Cursor), d.rest = '[' :: v → Accepts (bracketed filter id none) d P) :
    Accepts (segment? filter) c fun found rest' => ∃ s, found = some s ∧ P s rest' := by
  refine .goOn fun _ _ d hd => ?_
  rw [hc, trim_append hb, trim_cons rfl] at hd
  refine .isAt (isAt_of_ne (by simp [hd])) (.isAt (isAt_of_ne (by simp [hd])) ?_)
  refine .isAt (isAt_append (w := ['[']) hd) (.element fun id d₁ hd₁ => .map ?_)
  exact (h id d₁ (hd₁.trans hd)).mono fun s _ hs => ⟨s, rfl, hs⟩

theorem segment?_accepts_dots {filter : Parser Expr} {c : Cursor} {b v : List Char}
    {P : JsonPath.Segment → List Char → Prop} (hc : c.rest = b ++ '.' :: '.' :: '[' :: v)
    (hb : Blanks b) (h : ∀ id dots (d : Cursor), d.rest = '[' :: v →
      Accepts (bracketed filter id (some dots)) d P) :
    Accepts (segment? filter) c fun found rest' => ∃ s, found = some s ∧ P s rest' := by
  refine .goOn fun _ _ d hd => ?_
  have hd : d.rest = ['.', '.'] ++ '[' :: v := by
    rw [hd, hc, trim_append hb]
    exact trim_cons rfl _
  refine .isAt (isAt_append hd) (.element fun id d₁ hd₁ => ?_)
  refine .take (hd₁.trans hd) rfl fun dots d₂ _ _ hd₂ => ?_
  have htrim : trim d₂.rest = d₂.rest := by rw [hd₂, trim_cons rfl]
  refine .bind (rejectBlanks_accepts _ htrim) fun _ d₃ hd₃ => ?_
  have hd₃ : d₃.rest = '[' :: v := hd₃.trans hd₂
  refine .isAt (isAt_append (w := ['[']) hd₃) (.map ?_)
  exact (h id dots d₃ hd₃).mono fun s _ hs => ⟨s, rfl, hs⟩

theorem segment?_accepts {filter : Parser Expr} {bound : Nat}
    (hfilter : filter.Completes Disjunction afterExpression bound) {c : Cursor}
    {b w rest : List Char} (hc : c.rest = b ++ (w ++ rest)) (hb : Blanks b)
    (hw : Grammar.Segment w) (hrest : EndsName rest) (hbound : c.rest.length ≤ bound) :
    Accepts (segment? filter) c fun found rest' => found.isSome = true ∧ rest' = rest := by
  have hlength := congrArg List.length hc
  rw [List.length_append] at hlength
  cases hw with
  | child hshorthand =>
    refine (segment?_accepts_dot hc hb hshorthand hrest).mono ?_
    rintro _ _ ⟨⟨s, rfl, -⟩, h⟩
    exact ⟨rfl, h⟩
  | brackets hbrackets =>
    obtain ⟨v, hv⟩ : ∃ v, w ++ rest = '[' :: v := by
      obtain ⟨-, -, -⟩ := hbrackets
      exact ⟨_, rfl⟩
    refine (segment?_accepts_bracket (P := fun _ rest' => rest' = rest) (hv ▸ hc) hb
      fun id d hd => ?_).mono ?_
    · refine bracketed_accepts hfilter id none (hd.trans hv.symm) hbrackets ?_
      rw [hd, ← hv]
      omega
    · rintro _ _ ⟨s, rfl, h⟩
      exact ⟨rfl, h⟩
  | @descendant w hshorthand =>
    refine .goOn fun _ _ d hd => ?_
    have hd : d.rest = ['.', '.'] ++ (w ++ rest) := by
      rw [hd, hc, trim_append hb]
      exact trim_cons rfl _
    refine .isAt (isAt_append hd) (.element fun id d₁ hd₁ => ?_)
    refine .take (hd₁.trans hd) rfl fun dots d₂ _ _ hd₂ => ?_
    have htrim : trim d₂.rest = d₂.rest := by rw [hd₂, Shorthand.trim_append hshorthand]
    refine .bind (rejectBlanks_accepts _ htrim) fun _ d₃ hd₃ => ?_
    have hd₃ : d₃.rest = w ++ rest := hd₃.trans hd₂
    refine .isAt (isAt_of_ne (hd₃ ▸ (Shorthand.head_ne hshorthand rest).2)) ?_
    refine .bind (shorthandSelector_accepts _ hd₃ hshorthand hrest) fun s d₄ hd₄ => ?_
    exact .pure ⟨rfl, hd₄.2⟩
  | @descendantBrackets w hbrackets =>
    obtain ⟨v, hv⟩ : ∃ v, w ++ rest = '[' :: v := by
      obtain ⟨-, -, -⟩ := hbrackets
      exact ⟨_, rfl⟩
    have hc : c.rest = b ++ '.' :: '.' :: '[' :: v := by rw [hc, ← hv]; rfl
    refine (segment?_accepts_dots (P := fun _ rest' => rest' = rest) hc hb
      fun id dots d hd => ?_).mono ?_
    · refine bracketed_accepts hfilter id _ (hd.trans hv.symm) hbrackets ?_
      rw [hd, ← hv]
      simp only [List.length_append, List.length_cons] at hlength ⊢
      omega
    · rintro _ _ ⟨s, rfl, h⟩
      exact ⟨rfl, h⟩

theorem segment?_accepts_singular {filter : Parser Expr} {c : Cursor} {b w rest : List Char}
    (hc : c.rest = b ++ (w ++ rest)) (hb : Blanks b) (hw : SingularSegment w)
    (hrest : EndsName rest) :
    Accepts (segment? filter) c fun found rest' =>
      (∃ s, found = some s ∧ s.isSingular = true) ∧ rest' = rest := by
  have hbracket {b₁ v b₂ : List Char} (hb₁ : Blanks b₁) (hv : StringLiteral v ∨ Index v)
      (hb₂ : Blanks b₂) (hc : c.rest = b ++ '[' :: (b₁ ++ (v ++ (b₂ ++ ']' :: rest)))) :
      Accepts (segment? filter) c fun found rest' =>
        (∃ s, found = some s ∧ s.isSingular = true) ∧ rest' = rest := by
    refine (segment?_accepts_bracket hc hb fun id d hd =>
      bracketed_accepts_singular id hd hb₁ hv hb₂).mono ?_
    rintro _ _ ⟨s, hs, hsingular, h⟩
    exact ⟨⟨s, hs, hsingular⟩, h⟩
  cases hw with
  | shorthand hname =>
    refine (segment?_accepts_dot hc hb (.name hname) hrest).mono fun _ _ ⟨⟨s, hs, h⟩, hrest⟩ => ?_
    exact ⟨⟨s, hs, h hname⟩, hrest⟩
  | name hb₁ hv hb₂ => exact hbracket hb₁ (.inl hv) hb₂ (by simpa using hc)
  | index hb₁ hv hb₂ => exact hbracket hb₁ (.inr hv) hb₂ (by simpa using hc)

/-- The segments of a path end: no name goes on and no segment begins after blanks. -/
structure EndsSegments (rest : List Char) : Prop where
  name : EndsName rest
  next : (trim rest).head? ≠ some '.' ∧ (trim rest).head? ≠ some '['

theorem segment?_none {filter : Parser Expr} {c : Cursor} (h : EndsSegments c.rest) :
    Accepts (segment? filter) c fun found rest' => found = none ∧ rest' = c.rest := by
  refine .goBack (g := pure none) (fun d _ e he => ?_) (.pure ⟨rfl, rfl⟩)
  have hdot (chars : List Char) : e.isAt ('.' :: chars) = false :=
    isAt_of_ne (by rw [he]; exact h.next.1)
  have hbracket : e.isAt ['['] = false := isAt_of_ne (by rw [he]; exact h.next.2)
  rw [isAt_bind, hdot, if_neg Bool.false_ne_true, isAt_bind, hdot, if_neg Bool.false_ne_true,
    isAt_bind, hbracket, if_neg Bool.false_ne_true]

theorem segments_none {filter : Parser Expr} (rounds : Nat) (path : Path) {c : Cursor}
    (h : EndsSegments c.rest) :
    Accepts (segments filter rounds path) c fun p rest' => p = path ∧ rest' = c.rest := by
  cases rounds with
  | zero => exact .pure ⟨rfl, rfl⟩
  | succ rounds =>
    refine .bind (segment?_none h) ?_
    rintro _ d ⟨rfl, hd⟩
    exact .pure ⟨rfl, hd⟩

theorem endsName_before {b rest : List Char} (hb : Blanks b) (h : EndsName rest) :
    EndsName (b ++ rest) := by
  cases b with
  | nil => exact h
  | cons y b =>
    intro x hx
    obtain rfl : y = x := by simpa using hx
    rcases hb y (List.mem_cons_self ..) with rfl | rfl | rfl | rfl <;> decide

theorem endsName_cons {x : Char} (hx : x = '.' ∨ x = '[') (rest : List Char) :
    EndsName (x :: rest) := by
  intro y hy
  obtain rfl : x = y := by simpa using hy
  rcases hx with rfl | rfl <;> decide

theorem Segment.begins {w : List Char} (hw : Grammar.Segment w) :
    ∃ x v, w = x :: v ∧ (x = '.' ∨ x = '[') := by
  cases hw with
  | child | descendant | descendantBrackets => exact ⟨_, _, rfl, .inl rfl⟩
  | brackets hbrackets =>
    obtain ⟨-, -, -⟩ := hbrackets
    exact ⟨_, _, rfl, .inr rfl⟩

theorem SingularSegment.begins {w : List Char} (hw : SingularSegment w) :
    ∃ x v, w = x :: v ∧ (x = '.' ∨ x = '[') := by
  cases hw with
  | shorthand => exact ⟨_, _, rfl, .inl rfl⟩
  | name | index => exact ⟨_, _, rfl, .inr rfl⟩

theorem Segments.endsName {w rest : List Char} (hw : Segments w) (hrest : EndsName rest) :
    EndsName (w ++ rest) := by
  cases hw with
  | nil => exact hrest
  | cons hb hsegment _ =>
    obtain ⟨x, v, rfl, hx⟩ := Segment.begins hsegment
    rw [List.append_assoc, List.append_assoc]
    exact endsName_before hb (endsName_cons hx _)

theorem SingularSegments.endsName {w rest : List Char} (hw : SingularSegments w)
    (hrest : EndsName rest) : EndsName (w ++ rest) := by
  cases hw with
  | nil => exact hrest
  | cons hb hsegment _ =>
    obtain ⟨x, v, rfl, hx⟩ := SingularSegment.begins hsegment
    rw [List.append_assoc, List.append_assoc]
    exact endsName_before hb (endsName_cons hx _)

theorem segments_accepts {filter : Parser Expr} {bound : Nat}
    (hfilter : filter.Completes Disjunction afterExpression bound) (rounds : Nat) (path : Path)
    {c : Cursor} {w rest : List Char} (hc : c.rest = w ++ rest) (hw : Segments w)
    (hrest : EndsSegments rest) (hrounds : w.length ≤ rounds) (hbound : c.rest.length ≤ bound) :
    Accepts (segments filter rounds path) c fun p rest' =>
      p.identifier = path.identifier ∧ rest' = rest := by
  induction rounds generalizing c path w with
  | zero =>
    obtain rfl := List.length_eq_zero_iff.mp (Nat.le_zero.mp hrounds)
    exact .pure ⟨rfl, hc⟩
  | succ rounds ih =>
    cases hw with
    | nil =>
      refine (segments_none _ _ (hc ▸ hrest)).mono fun _ _ h => ?_
      exact ⟨congrArg Path.identifier h.1, h.2.trans hc⟩
    | @cons b w others hb hsegment hothers =>
      obtain ⟨x, v, hv, -⟩ := Segment.begins hsegment
      have hlength := congrArg List.length hv
      simp only [List.length_append, List.length_cons] at hlength hrounds
      have hc : c.rest = b ++ (w ++ (others ++ rest)) := by simpa using hc
      refine .bind (segment?_accepts hfilter hc hb hsegment
        (Segments.endsName hothers hrest.name) hbound) ?_
      rintro (_ | segment) d ⟨hsome, hd⟩
      · cases hsome
      · refine ih _ hd hothers (by omega) ?_
        rw [hc] at hbound
        simp only [List.length_append] at hbound
        rw [hd, List.length_append]
        omega

theorem segments_accepts_singular {filter : Parser Expr} (rounds : Nat) {path : Path}
    (hpath : path.isSingular = true) {c : Cursor} {w rest : List Char} (hc : c.rest = w ++ rest)
    (hw : SingularSegments w) (hrest : EndsSegments rest) (hrounds : w.length ≤ rounds) :
    Accepts (segments filter rounds path) c fun p rest' =>
      p.isSingular = true ∧ rest' = rest := by
  induction rounds generalizing c path w with
  | zero =>
    obtain rfl := List.length_eq_zero_iff.mp (Nat.le_zero.mp hrounds)
    exact .pure ⟨hpath, hc⟩
  | succ rounds ih =>
    cases hw with
    | nil =>
      refine (segments_none _ _ (hc ▸ hrest)).mono fun _ _ h => ?_
      exact ⟨h.1 ▸ hpath, h.2.trans hc⟩
    | @cons b w others hb hsegment hothers =>
      obtain ⟨x, v, hv, -⟩ := SingularSegment.begins hsegment
      have hlength := congrArg List.length hv
      simp only [List.length_append, List.length_cons] at hlength hrounds
      have hc : c.rest = b ++ (w ++ (others ++ rest)) := by simpa using hc
      refine .bind (segment?_accepts_singular hc hb hsegment
        (SingularSegments.endsName hothers hrest.name)) ?_
      rintro _ d ⟨⟨segment, rfl, hsegment⟩, hd⟩
      exact ih (by simp [Path.isSingular, hpath, hsegment]) hd hothers (by omega)

/-! ### Primary expressions -/

/-- The characters that may follow a conjunction. -/
def afterConjunction : List Char := '|' :: afterExpression

/-- The characters that may follow an operand of a conjunction. -/
def afterBasic : List Char := '&' :: afterConjunction

/-- The characters that may follow a primary expression or an operand of a comparison. -/
def afterPrimary : List Char := '=' :: '!' :: '<' :: '>' :: afterBasic

theorem endsSegments_afterPrimary {rest : List Char} (h : Follow afterPrimary rest) :
    EndsSegments rest := by
  have hname : (' ' :: '\t' :: '\n' :: '\r' :: afterPrimary).all (fun x => !isNameChar x) =
      true := by decide
  have hdot : '.' ∉ afterPrimary := by decide
  have hbracket : '[' ∉ afterPrimary := by decide
  refine ⟨fun x hx => ?_, fun hx => hdot (h _ hx), fun hx => hbracket (h _ hx)⟩
  simpa using List.all_eq_true.mp hname x (h.head hx)

theorem pathExpression_accepts {filter : Parser Expr} {bound : Nat}
    (hfilter : filter.Completes Disjunction afterExpression bound) (kind : TokenKind)
    {c : Cursor} {x : Char} {w rest : List Char} (hc : c.rest = x :: (w ++ rest))
    (hw : Segments w) (hrest : EndsSegments rest) (hbound : c.rest.length ≤ bound) :
    Accepts (pathExpression filter kind) c fun _ rest' => rest' = rest := by
  have hc : c.rest = [x] ++ (w ++ rest) := hc
  refine .element fun id d hd => .element fun pathId d₁ hd₁ => ?_
  refine .take (hd₁.trans (hd.trans hc)) rfl fun identifier d₂ _ _ hd₂ => .get ?_
  refine .bind (segments_accepts hfilter _ _ hd₂ hw hrest ?_ ?_) fun p _ h => .pure h.2
  · rw [hd₂, List.length_append]
    exact Nat.le_add_right ..
  · rw [hd₂]
    rw [hc, List.length_append] at hbound
    exact Nat.le_trans (Nat.le_add_left ..) hbound

theorem pathExpression_accepts_singular {filter : Parser Expr} (kind : TokenKind) {c : Cursor}
    {x : Char} {w rest : List Char} (hc : c.rest = x :: (w ++ rest)) (hw : SingularSegments w)
    (hrest : EndsSegments rest) :
    Accepts (pathExpression filter kind) c fun e rest' => e.IsComparable ∧ rest' = rest := by
  have hc : c.rest = [x] ++ (w ++ rest) := hc
  refine .element fun id d hd => .element fun pathId d₁ hd₁ => ?_
  refine .take (hd₁.trans (hd.trans hc)) rfl fun identifier d₂ _ _ hd₂ => .get ?_
  refine .bind (segments_accepts_singular _ rfl hd₂ hw hrest ?_) fun p _ h => .pure h
  rw [hd₂, List.length_append]
  exact Nat.le_add_right ..

theorem arguments_accepts {argument : Parser Expr} {bound : Nat}
    (hargument : argument.Completes Disjunction afterExpression bound) (opening : Token)
    {rounds : Nat} {c : Cursor} {b b' w rest : List Char}
    (hc : c.rest = b ++ (w ++ (b' ++ ')' :: rest))) (hb : Blanks b) (hb' : Blanks b')
    (hw : Separated [','] Disjunction w) (hrounds : c.rest.length < rounds)
    (hbound : c.rest.length < bound) :
    Accepts (arguments argument opening rounds) c fun _ rest' => rest' = rest := by
  induction hw generalizing c b rounds with
  | @one w hw =>
    obtain ⟨more, rfl⟩ := Nat.exists_eq_add_of_lt hrounds
    have hfollow : Follow afterExpression (b' ++ ')' :: rest) :=
      .before hb' (.cons (by simp [afterExpression]) rfl rest)
    have hitem := hargument c b w _ hc hb hw hfollow hbound
    rw [trim_append hb', trim_cons rfl] at hitem
    refine (arguments_accepts_last (P := fun _ => True) opening ?_).mono fun _ _ h => h.2
    exact hitem.mono fun _ _ h => ⟨trivial, h⟩
  | @more w b₁ b₂ others hw hb₁ hb₂ hothers ih =>
    obtain ⟨more, rfl⟩ := Nat.exists_eq_add_of_lt hrounds
    have hc : c.rest = b ++ (w ++ (b₁ ++ ',' :: (b₂ ++ (others ++ (b' ++ ')' :: rest))))) := by
      simpa using hc
    have hlength := congrArg List.length hc
    simp only [List.length_append, List.length_cons] at hlength
    have hfollow : Follow afterExpression (b₁ ++ ',' :: (b₂ ++ (others ++ (b' ++ ')' :: rest)))) :=
      .before hb₁ (.cons (by simp [afterExpression, afterSelector]) rfl _)
    have hitem := hargument c b w _ hc hb hw hfollow hbound
    rw [trim_append hb₁, trim_cons rfl] at hitem
    refine (arguments_accepts_more (P := fun _ => True) (Q := fun _ rest' => rest' = rest) opening
      (hitem.mono fun _ _ h => ⟨trivial, h⟩) fun d hd => ih hd hb₂ ?_ ?_).mono ?_
    · rw [hd]
      simp only [List.length_append, List.length_cons]
      omega
    · rw [hd]
      simp only [List.length_append, List.length_cons]
      omega
    · rintro found rest' ⟨_, _, _, _, _, h⟩
      exact h

/-- A character that may begin a primary expression. -/
def isPrimaryFirst (x : Char) : Bool :=
  x = '(' || x = '$' || x = '@' || x = '\'' || x = '"' || x = '-' || Text.isDigit x ||
    Text.isLowerLetter x

/-- A text that begins with one of the characters that a predicate allows. -/
def Begins (allowed : Char → Bool) (w : List Char) : Prop :=
  ∃ x v, w = x :: v ∧ allowed x = true

theorem Begins.mono {allowed allowed' : Char → Bool} {w : List Char} (h : Begins allowed w)
    (hall : ∀ x, allowed x = true → allowed' x = true) : Begins allowed' w := by
  obtain ⟨x, v, rfl, hx⟩ := h
  exact ⟨x, v, rfl, hall x hx⟩

theorem Begins.append {allowed : Char → Bool} {w : List Char} (h : Begins allowed w)
    (rest : List Char) : Begins allowed (w ++ rest) := by
  obtain ⟨x, v, rfl, hx⟩ := h
  exact ⟨x, v ++ rest, rfl, hx⟩

/-- What begins with none of some characters is not one of them. -/
theorem Begins.head_ne {allowed : Char → Bool} {w : List Char} (h : Begins allowed w) {y : Char}
    (hy : allowed y = false) : w.head? ≠ some y := by
  obtain ⟨x, v, rfl, hx⟩ := h
  rintro heq
  obtain rfl := Option.some.inj heq
  rw [hy] at hx
  cases hx

theorem Begins.trim_eq {allowed : Char → Bool} {w : List Char} (h : Begins allowed w)
    (hblank : [' ', '\t', '\n', '\r'].any allowed = false) : trim w = w := by
  obtain ⟨x, v, rfl, hx⟩ := h
  refine trim_cons ?_ _
  cases hb : Cursor.isBlank x with
  | false => rfl
  | true =>
    have hmem : x ∈ [' ', '\t', '\n', '\r'] := by simpa using isBlank_iff.mp hb
    have hany : [' ', '\t', '\n', '\r'].any allowed = true :=
      List.any_eq_true.mpr ⟨x, hmem, hx⟩
    rw [hblank] at hany
    cases hany

theorem Number.begins {w : List Char} (hw : Grammar.Number w) :
    Begins (fun x => x = '-' || Text.isDigit x) w := by
  obtain ⟨hs, hv, hf, he⟩ := hw
  refine .append (.append ?_ _) _
  cases hs with
  | minus => exact ⟨'-', _, rfl, rfl⟩
  | none => exact Index.begins (.whole hv)

theorem Literal.begins {w : List Char} (hw : Literal w) : Begins isPrimaryFirst w := by
  cases hw with
  | number hnumber =>
    refine (Number.begins hnumber).mono fun x hx => ?_
    rw [Bool.or_eq_true] at hx
    rcases hx with hx | hx <;> simp [isPrimaryFirst, hx]
  | string hstring => obtain ⟨rfl | rfl, -⟩ := hstring <;> exact ⟨_, _, rfl, rfl⟩
  | true | false | null => exact ⟨_, _, rfl, rfl⟩

theorem FunctionName.begins {w : List Char} (hw : FunctionName w) :
    Begins Text.isLowerLetter w := by
  obtain ⟨first, -⟩ := hw
  exact ⟨_, _, rfl, isLowerLetter_iff.mpr first⟩

theorem Call.begins {w : List Char} (hw : Call w) : Begins isPrimaryFirst w := by
  have hname {f : List Char} (hf : FunctionName f) : Begins isPrimaryFirst f :=
    (FunctionName.begins hf).mono fun x hx => by simp [isPrimaryFirst, hx]
  cases hw with
  | empty hf _ => exact ((hname hf).append _).append _
  | some hf _ _ _ => exact ((((hname hf).append _).append _).append _).append _

theorem Primary.begins {w : List Char} (hw : Primary w) : Begins isPrimaryFirst w := by
  cases hw with
  | parens => exact ⟨_, _, rfl, rfl⟩
  | path hx => rcases hx with rfl | rfl <;> exact ⟨_, _, rfl, rfl⟩
  | call hcall => exact Call.begins hcall
  | literal hliteral => exact Literal.begins hliteral

theorem Comparable.begins {w : List Char} (hw : Comparable w) : Begins isPrimaryFirst w := by
  cases hw with
  | path hx => rcases hx with rfl | rfl <;> exact ⟨_, _, rfl, rfl⟩
  | call hcall => exact Call.begins hcall
  | literal hliteral => exact Literal.begins hliteral

/-- A character that may begin an expression. -/
def isBasicFirst (x : Char) : Bool := x = '!' || isPrimaryFirst x

theorem Basic.begins {w : List Char} (hw : Basic w) : Begins isBasicFirst w := by
  have hprimary {x : Char} (hx : isPrimaryFirst x = true) : isBasicFirst x = true := by
    simp [isBasicFirst, hx]
  cases hw with
  | not => exact ⟨_, _, rfl, rfl⟩
  | primary h => exact (Primary.begins h).mono fun _ => hprimary
  | comparison h =>
    exact (((((Comparable.begins h).mono fun _ => hprimary).append _).append _).append _).append _

theorem Separated.begins {mark : List Char} {L : Language} {allowed : Char → Bool}
    (hitem : ∀ w, L w → Begins allowed w) {w : List Char} (hw : Separated mark L w) :
    Begins allowed w := by
  cases hw with
  | one h => exact hitem _ h
  | more h => exact ((((hitem _ h).append _).append _).append _).append _

theorem Disjunction.begins {w : List Char} (hw : Disjunction w) : Begins isBasicFirst w := by
  obtain ⟨hw⟩ := hw
  refine Separated.begins (fun v hv => ?_) hw
  obtain ⟨hv⟩ := hv
  exact Separated.begins (fun u hu => Basic.begins hu) hv

/-- The first word of a text, where nothing goes on with it. -/
theorem takeWhile_word {w rest : List Char} (hw : ∀ x ∈ w, isFunctionChar x = true)
    (hrest : ∀ x, rest.head? = some x → isFunctionChar x = false) :
    (w ++ rest).takeWhile isFunctionChar = w := by
  rw [List.takeWhile_append_of_pos hw]
  cases rest with
  | nil => simp
  | cons x rest => rw [List.takeWhile_cons_of_neg (by simp [hrest x rfl]), List.append_nil]

theorem callOrWord_accepts_call {argument : Parser Expr} {c : Cursor} {f v : List Char}
    {P : Expr → List Char → Prop} (hf : FunctionName f) (hc : c.rest = f ++ '(' :: v)
    (h : ∀ id (name : Token) (d : Cursor), name.text = String.ofList f → d.rest = '(' :: v →
      Accepts (call argument id name) d P) :
    Accepts (callOrWord argument) c P := by
  have hchars : ∀ x ∈ f, isFunctionChar x = true := by
    obtain ⟨first, others⟩ := hf
    intro x hx
    rcases List.mem_cons.mp hx with rfl | hx
    · simp [isFunctionChar, isLowerLetter_iff.mpr first]
    · simpa [isFunctionChar, isLowerLetter_iff, isDigit_iff, or_assoc] using others x hx
  refine .element fun id d hd => .get ?_
  have hword : d.rest.takeWhile isFunctionChar = f := by
    rw [hd, hc, takeWhile_word hchars (by simp; decide)]
  extract_lets word after
  have hword : word = f := hword
  have hrest : after.rest = '(' :: v := by
    change d.rest.drop word.length = _
    rw [hword, hd, hc, List.drop_left]
  rw [if_pos (isAt_append (w := ['(']) (by rw [pass_blanks, hrest]; exact trim_cons rfl v))]
  refine .take (hd.trans hc) (congrArg List.length hword) fun name d₁ _ htext hd₁ => ?_
  have htrim : trim d₁.rest = d₁.rest := by
    rw [hd₁]
    exact trim_cons rfl v
  exact .bind (rejectBlanks_accepts _ htrim) fun _ d₂ hd₂ => h id name d₂ htext (hd₂.trans hd₁)

/-- The value that a word stands for. -/
def wordValue (w : List Char) : Json :=
  if w = ['t', 'r', 'u', 'e'] then .bool true
  else if w = ['f', 'a', 'l', 's', 'e'] then .bool false
  else .null

theorem callOrWord_accepts_word {argument : Parser Expr} {c : Cursor} {w rest : List Char}
    (hw : w = ['t', 'r', 'u', 'e'] ∨ w = ['f', 'a', 'l', 's', 'e'] ∨ w = ['n', 'u', 'l', 'l'])
    (hc : c.rest = w ++ rest) (hrest : Follow afterPrimary rest) :
    Accepts (callOrWord argument) c fun e rest' =>
      (∃ id token, e = .literal id token (wordValue w)) ∧ rest' = rest := by
  have hends : (' ' :: '\t' :: '\n' :: '\r' :: afterPrimary).all (fun x => !isFunctionChar x) =
      true := by decide
  have hchars : w.all isFunctionChar = true := by rcases hw with rfl | rfl | rfl <;> decide
  refine .element fun id d hd => .get ?_
  have htake : d.rest.takeWhile isFunctionChar = w := by
    rw [hd, hc, takeWhile_word (List.all_eq_true.mp hchars) fun x hx => ?_]
    simpa using List.all_eq_true.mp hends x (hrest.head hx)
  extract_lets word after
  have hword : word = w := htake
  have hafter : after.rest = rest := by
    change d.rest.drop word.length = _
    rw [hword, hd, hc, List.drop_left]
  have hparen : (after.pass after.blanks).isAt ['('] = false :=
    isAt_of_trim (by rw [pass_blanks, hafter]) hrest (by decide)
  rw [if_neg (by simp [hparen])]
  have hliteral (kind : TokenKind) (value : Json) :
      Accepts (do return .literal id (← take kind word.length) value) d fun (e : Expr) rest' =>
        (∃ id token, e = .literal id token value) ∧ rest' = rest :=
    .take (hd.trans hc) (congrArg List.length hword) fun token _ _ _ hd₁ =>
      .pure ⟨⟨id, token, rfl⟩, hd₁⟩
  unfold wordValue
  rw [← hword]
  rcases hw with rfl | rfl | rfl
  · rw [if_pos hword, if_pos hword]
    exact hliteral .true (.bool true)
  · rw [if_neg (by simp [hword]), if_pos hword, if_neg (by simp [hword]), if_pos hword]
    exact hliteral .false (.bool false)
  · rw [if_neg (by simp [hword]), if_neg (by simp [hword]), if_pos hword,
      if_neg (by simp [hword]), if_neg (by simp [hword])]
    exact hliteral .null .null

/-- The parsers of a depth accept the texts of their ranks, as far as so many characters go. -/
structure Expressions.Complete (inner : Expressions) (bound : Nat) : Prop where
  disjunction : inner.disjunction.Completes Disjunction afterExpression bound
  negation : inner.negation.Completes Basic afterBasic bound

theorem primary_accepts_number {inner : Expressions} {c : Cursor} {b w rest : List Char}
    (hc : c.rest = b ++ (w ++ rest)) (hb : Blanks b) (hw : Grammar.Number w)
    (hrest : Follow afterPrimary rest) :
    Accepts (primary inner) c fun e rest' =>
      (∃ id token, e = .literal id token (numberValue (String.ofList w))) ∧ rest' = rest := by
  have hends : NumberText.Ends rest := ends_of_follow hrest (by decide)
  obtain ⟨x, v, hv, hx⟩ := Number.begins hw
  refine .skipBlanks fun _ d hd => .get ?_
  have htrim : trim (w ++ rest) = w ++ rest :=
    ((Literal.begins (.number hw)).append rest).trim_eq rfl
  rw [hc, trim_append hb, htrim] at hd
  have haccepts := numberLiteral_accepts hd hw hends
  split
  case h_7 y more _ _ _ _ _ _ heq =>
    obtain rfl : x = y := by
      rw [hd, hv] at heq
      exact (List.cons.inj heq).1
    rw [if_pos hx]
    exact haccepts
  case h_8 heq =>
    rw [hd, hv] at heq
    cases heq
  all_goals
    rename_i heq
    rw [hd, hv] at heq
    obtain rfl := (List.cons.inj heq).1
    cases hx

theorem isDigit_of_isLowerLetter {x : Char} (hx : Text.isLowerLetter x = true) :
    Text.isDigit x = false := by
  have hval (a b : Char) : a ≤ b ↔ a.toNat ≤ b.toNat := Iff.rfl
  cases hdigit : Text.isDigit x with
  | false => rfl
  | true =>
    simp only [Text.isLowerLetter, Text.isDigit, Bool.and_eq_true, decide_eq_true_eq, hval,
      Char.reduceToNat] at hx hdigit
    omega

theorem primary_accepts_lower {inner : Expressions} {c : Cursor} {x : Char} {v : List Char}
    {P : Expr → List Char → Prop} (hc : trim c.rest = x :: v) (hx : Text.isLowerLetter x = true)
    (h : ∀ d : Cursor, d.rest = x :: v → Accepts (callOrWord inner.disjunction) d P) :
    Accepts (primary inner) c P := by
  refine .skipBlanks fun _ d hd => .get ?_
  rw [hc] at hd
  split
  case h_7 y more _ _ _ _ _ _ heq =>
    obtain rfl : x = y := by
      rw [hd] at heq
      exact (List.cons.inj heq).1
    have hminus : x ≠ '-' := by
      rintro rfl
      cases hx
    rw [if_neg (by simp [hminus, isDigit_of_isLowerLetter hx]), if_pos hx]
    exact h d hd
  case h_8 heq =>
    rw [hd] at heq
    cases heq
  all_goals
    rename_i heq
    rw [hd] at heq
    obtain rfl := (List.cons.inj heq).1
    cases hx

theorem primary_accepts_word {inner : Expressions} {c : Cursor} {w rest : List Char}
    (hw : w = ['t', 'r', 'u', 'e'] ∨ w = ['f', 'a', 'l', 's', 'e'] ∨ w = ['n', 'u', 'l', 'l'])
    (hc : trim c.rest = w ++ rest) (hrest : Follow afterPrimary rest) :
    Accepts (primary inner) c fun e rest' =>
      (∃ id token, e = .literal id token (wordValue w)) ∧ rest' = rest := by
  obtain ⟨x, v, hv, hx⟩ : Begins Text.isLowerLetter w := by
    rcases hw with rfl | rfl | rfl <;> exact ⟨_, _, rfl, rfl⟩
  rw [hv] at hc
  refine primary_accepts_lower hc hx fun d hd => ?_
  exact callOrWord_accepts_word hw (by rw [hd, hv]; rfl) hrest

theorem primary_accepts_string {inner : Expressions} {quote : Char}
    (hmark : quote = '\'' ∨ quote = '"') {c : Cursor} {w rest : List Char}
    (hc : trim c.rest = quote :: w ++ [quote] ++ rest) (hw : Quoted quote w) {value : List Char}
    (hvalue : (StringLiteral.decode quote w).1 = value) :
    Accepts (primary inner) c fun e rest' =>
      (∃ id token, e = .literal id token (.string (String.ofList value))) ∧ rest' = rest := by
  refine .skipBlanks fun _ d hd => .get ?_
  rw [hc] at hd
  rw [hd]
  have hliteral : Accepts (do
      let id ← freshId
      let found ← stringLiteral quote
      return Expr.literal id found.1 (.string found.2)) d fun e rest' =>
      (∃ id token, e = .literal id token (.string (String.ofList value))) ∧ rest' = rest := by
    refine .element fun id e he => .bind (stringLiteral_accepts hmark (he.trans hd) hw) ?_
    rintro ⟨token, found⟩ e' ⟨hfound, he'⟩
    rw [hvalue] at hfound
    exact .pure ⟨⟨id, token, by rw [← hfound]⟩, he'⟩
  rcases hmark with rfl | rfl
  · exact hliteral
  · exact hliteral

theorem primary_accepts_literal {inner : Expressions} {c : Cursor} {b w rest : List Char}
    (hc : c.rest = b ++ (w ++ rest)) (hb : Blanks b) (hw : Literal w)
    (hrest : Follow afterPrimary rest) :
    Accepts (primary inner) c fun e rest' => e.IsComparable ∧ rest' = rest := by
  have htrim : trim c.rest = w ++ rest := by
    rw [hc, trim_append hb, ((Literal.begins hw).append rest).trim_eq rfl]
  have hliteral {value : Json} (h : Accepts (primary inner) c fun e rest' =>
      (∃ id token, e = .literal id token value) ∧ rest' = rest) :
      Accepts (primary inner) c fun e rest' => e.IsComparable ∧ rest' = rest := by
    refine h.mono ?_
    rintro _ _ ⟨⟨id, token, rfl⟩, h⟩
    exact ⟨trivial, h⟩
  cases hw with
  | number hnumber => exact hliteral (primary_accepts_number hc hb hnumber hrest)
  | string hstring =>
    obtain ⟨hmark, hbody⟩ := hstring
    exact hliteral (primary_accepts_string hmark htrim hbody rfl)
  | true => exact hliteral (primary_accepts_word (.inl rfl) htrim hrest)
  | false => exact hliteral (primary_accepts_word (.inr (.inl rfl)) htrim hrest)
  | null => exact hliteral (primary_accepts_word (.inr (.inr rfl)) htrim hrest)

theorem primary_accepts_call {inner : Expressions} {bound : Nat} (h : inner.Complete bound)
    {c : Cursor} {b w rest : List Char} (hc : c.rest = b ++ (w ++ rest)) (hb : Blanks b)
    (hw : Call w) (hbound : c.rest.length ≤ bound) :
    Accepts (primary inner) c fun e rest' => e.IsComparable ∧ rest' = rest := by
  have htrim : trim c.rest = w ++ rest := by
    rw [hc, trim_append hb, ((Call.begins hw).append rest).trim_eq rfl]
  have hlength : (w ++ rest).length ≤ bound := by
    rw [hc, List.length_append] at hbound
    omega
  have hname {f u : List Char} (hf : FunctionName f) (hu : w ++ rest = f ++ '(' :: u)
      (hcall : ∀ id name (d : Cursor), d.rest = '(' :: u →
        Accepts (call inner.disjunction id name) d fun e rest' =>
          e.IsComparable ∧ rest' = rest) :
      Accepts (primary inner) c fun e rest' => e.IsComparable ∧ rest' = rest := by
    obtain ⟨x, v, hv, hx⟩ := FunctionName.begins hf
    refine primary_accepts_lower (x := x) (v := v ++ '(' :: u) ?_ hx fun d hd => ?_
    · rw [htrim, hu, hv]
      rfl
    · exact callOrWord_accepts_call hf (by rw [hd, hv]; rfl) fun id name d _ => hcall id name d
  cases hw with
  | @empty f b' hf hb' =>
    refine hname hf (u := b' ++ ')' :: rest) (by simp) fun id name d hd => ?_
    refine (call_accepts_none _ id name hd (by rw [trim_append hb', trim_cons rfl])).mono ?_
    rintro _ _ ⟨⟨_, _, rfl⟩, hrest⟩
    exact ⟨trivial, hrest⟩
  | @some f b₁ v b₂ hf hb₁ hv hb₂ =>
    refine hname hf (u := b₁ ++ (v ++ (b₂ ++ ')' :: rest))) (by simp) fun id name d hd => ?_
    have hbegins := (Separated.begins (fun v => Disjunction.begins (w := v)) hv).append
      (b₂ ++ ')' :: rest)
    have htrim : trim (b₁ ++ (v ++ (b₂ ++ ')' :: rest))) = v ++ (b₂ ++ ')' :: rest) := by
      rw [trim_append hb₁, hbegins.trim_eq rfl]
    have hcall := call_accepts_some (Q := fun _ rest' => rest' = rest)
      inner.disjunction id name hd (by rw [htrim]; exact hbegins.head_ne rfl)
    rw [htrim] at hcall
    refine (hcall fun opening e he => ?_).mono ?_
    · refine arguments_accepts h.disjunction opening (b := []) he .nil hb₂ hv ?_ ?_
      · rw [he]
        exact Nat.lt_succ_self _
      · rw [he]
        simp only [List.length_append, List.length_cons, List.length_nil] at hlength ⊢
        omega
    · rintro _ _ ⟨_, _, _, rfl, hrest⟩
      exact ⟨trivial, hrest⟩

theorem primary_accepts_path {inner : Expressions} {c : Cursor} {x : Char} {b w rest : List Char}
    {P : Expr → List Char → Prop} (hc : c.rest = b ++ x :: (w ++ rest)) (hb : Blanks b)
    (hx : x = '$' ∨ x = '@')
    (h : ∀ d : Cursor, d.rest = x :: (w ++ rest) →
      Accepts (pathExpression inner.disjunction (if x = '@' then .current else .root)) d P) :
    Accepts (primary inner) c P := by
  refine .skipBlanks fun _ d hd => .get ?_
  rcases hx with rfl | rfl
  all_goals
    rw [hc, trim_append hb, trim_cons rfl] at hd
    rw [hd]
    exact h d hd

theorem comparable_accepts {inner : Expressions} {bound : Nat} (h : inner.Complete bound)
    {c : Cursor} {b w rest : List Char} (hc : c.rest = b ++ (w ++ rest)) (hb : Blanks b)
    (hw : Comparable w) (hrest : Follow afterPrimary rest) (hbound : c.rest.length ≤ bound) :
    Accepts (primary inner) c fun e rest' => e.IsComparable ∧ rest' = rest := by
  cases hw with
  | literal hliteral => exact primary_accepts_literal hc hb hliteral hrest
  | path hx hsegments =>
    refine primary_accepts_path hc hb hx fun d hd => ?_
    exact pathExpression_accepts_singular _ hd hsegments (endsSegments_afterPrimary hrest)
  | call hcall => exact primary_accepts_call h hc hb hcall hbound

theorem primary_accepts {inner : Expressions} {bound : Nat} (h : inner.Complete bound)
    {c : Cursor} {b w rest : List Char} (hc : c.rest = b ++ (w ++ rest)) (hb : Blanks b)
    (hw : Primary w) (hrest : Follow afterPrimary rest) (hbound : c.rest.length ≤ bound) :
    Accepts (primary inner) c fun _ rest' => rest' = rest := by
  cases hw with
  | @parens b₁ v b₂ hb₁ hv hb₂ =>
    have htrim : trim c.rest = '(' :: (b₁ ++ (v ++ (b₂ ++ ')' :: rest))) := by
      rw [hc, trim_append hb]
      simpa using trim_cons (x := '(') rfl _
    have hfollow : Follow afterExpression (b₂ ++ ')' :: rest) :=
      .before hb₂ (.cons (by simp [afterExpression]) rfl rest)
    refine (primary_accepts_parens (P := fun _ => True) htrim fun d hd => ?_).mono fun _ _ h => h.2
    have hinner := h.disjunction d b₁ v _ hd hb₁ hv hfollow ?_
    · rw [trim_append hb₂, trim_cons rfl] at hinner
      exact hinner.mono fun _ _ h => ⟨trivial, h⟩
    · rw [hd]
      rw [hc] at hbound
      simp only [List.length_append, List.length_cons, List.length_nil] at hbound ⊢
      omega
  | path hx hsegments =>
    refine primary_accepts_path hc hb hx fun d hd => ?_
    refine pathExpression_accepts h.disjunction _ hd hsegments
      (endsSegments_afterPrimary hrest) ?_
    rw [hc, List.length_append] at hbound
    rw [hd]
    exact Nat.le_trans (Nat.le_add_left ..) hbound
  | call hcall => exact (primary_accepts_call h hc hb hcall hbound).mono fun _ _ h => h.2
  | literal hliteral => exact (primary_accepts_literal hc hb hliteral hrest).mono fun _ _ h => h.2

/-! ### Operators -/

theorem Operator.exists_text {w : List Char} (hw : Operator w) :
    ∃ op : JsonPath.Comparison, w = op.text.toList := by
  rcases hw with rfl | rfl | rfl | rfl | rfl | rfl
  · exact ⟨.equal, rfl⟩
  · exact ⟨.notEqual, rfl⟩
  · exact ⟨.lessOrEqual, rfl⟩
  · exact ⟨.greaterOrEqual, rfl⟩
  · exact ⟨.less, rfl⟩
  · exact ⟨.greater, rfl⟩

/-- The text of an operator with blanks before it, and what may come after an operand. -/
theorem follow_operator (op : JsonPath.Comparison) {b : List Char} (hb : Blanks b)
    (v : List Char) :
    trim (b ++ (op.text.toList ++ v)) = op.text.toList ++ v ∧
      Follow afterPrimary (b ++ (op.text.toList ++ v)) := by
  obtain ⟨x, tail, hmark, hblank, hx⟩ : ∃ x tail, op.text.toList = x :: tail ∧
      Cursor.isBlank x = false ∧ x ∈ afterPrimary := by
    cases op <;> exact ⟨_, _, rfl, rfl, by decide⟩
  exact ⟨trim_mark hmark hblank hb v, follow_mark hmark hblank hx hb v⟩

theorem Follow.not_equal {b w rest : List Char} {allowed : Char → Bool} (hb : Blanks b)
    (hw : Begins allowed w) (hequal : allowed '=' = false) :
    (b ++ (w ++ rest)).head? ≠ some '=' := by
  cases b with
  | nil => exact (hw.append rest).head_ne hequal
  | cons y b =>
    rintro hhead
    obtain rfl : y = '=' := by simpa using hhead
    simpa using hb _ (List.mem_cons_self ..)

theorem noOperator_of_follow {rest : List Char} (h : Follow afterBasic rest) :
    ∀ x ∈ ['=', '!', '<', '>'], (trim rest).head? ≠ some x := by
  intro x hx hhead
  have hchars : ['=', '!', '<', '>'].all (· ∉ afterBasic) = true := by decide
  have hmem : x ∉ afterBasic := by simpa using List.all_eq_true.mp hchars x hx
  exact hmem (h x hhead)

theorem comparison_accepts_primary {inner : Expressions} {bound : Nat}
    (h : inner.Complete bound) {c : Cursor} {w rest : List Char} (hc : c.rest = w ++ rest)
    (hw : Primary w) (hrest : Follow afterBasic rest) (hbound : c.rest.length ≤ bound) :
    Accepts (comparison inner) c fun _ rest' => trim rest' = trim rest := by
  have hfollow : Follow afterPrimary rest := hrest.mono fun x hx => by simp [afterPrimary, hx]
  have hleft := primary_accepts h (b := []) hc .nil hw hfollow hbound
  refine (comparison_accepts_one (P := fun _ => True) (noOperator_of_follow hrest) ?_).mono
    fun _ _ h => h.2
  exact hleft.mono fun _ _ h => ⟨trivial, congrArg trim h⟩

theorem comparison_accepts {inner : Expressions} {bound : Nat} (h : inner.Complete bound)
    {c : Cursor} {l b op b' r rest : List Char}
    (hc : c.rest = l ++ (b ++ (op ++ (b' ++ (r ++ rest))))) (hl : Comparable l) (hb : Blanks b)
    (hop : Operator op) (hb' : Blanks b') (hr : Comparable r) (hrest : Follow afterBasic rest)
    (hbound : c.rest.length ≤ bound) :
    Accepts (comparison inner) c fun _ rest' => trim rest' = trim rest := by
  obtain ⟨o, rfl⟩ := Operator.exists_text hop
  have hfollow : Follow afterPrimary rest := hrest.mono fun x hx => by simp [afterPrimary, hx]
  obtain ⟨htrim, hoperator⟩ := follow_operator o hb (b' ++ (r ++ rest))
  have hleft := comparable_accepts h (b := []) hc .nil hl hoperator hbound
  refine (comparison_accepts_two (P := fun _ => True) (Q := fun _ => True)
    (v := b' ++ (r ++ rest)) o (Follow.not_equal hb' (Comparable.begins hr) rfl) ?_
    fun d hd => ?_).mono fun _ _ h => h.2
  · refine hleft.mono fun _ _ h => ⟨⟨h.1, trivial⟩, ?_⟩
    rw [h.2, htrim]
  · refine (comparable_accepts h hd hb' hr hfollow ?_).mono
      fun _ _ h => ⟨⟨h.1, trivial⟩, congrArg trim h.2⟩
    rw [hd]
    rw [hc] at hbound
    simp only [List.length_append] at hbound ⊢
    omega

theorem negation_accepts {inner : Expressions} {bound : Nat} (h : inner.Complete bound) :
    (negation inner).Completes Basic afterBasic (bound + 1) := by
  intro c b w rest hc hb hw hrest hbound
  have htrim : trim c.rest = w ++ rest := by
    rw [hc, trim_append hb, ((Basic.begins hw).append rest).trim_eq rfl]
  have hlength : (w ++ rest).length ≤ bound := by
    rw [hc, List.length_append] at hbound
    omega
  have hcomparison (hfirst : Begins isPrimaryFirst w)
      (h : ∀ d : Cursor, d.rest = w ++ rest → d.rest.length ≤ bound →
        Accepts (comparison inner) d fun _ rest' => trim rest' = trim rest) :
      Accepts (negation inner) c fun _ rest' => trim rest' = trim rest := by
    refine negation_accepts_comparison (by rw [htrim]; exact (hfirst.append rest).head_ne rfl) ?_
    intro d hd
    rw [htrim] at hd
    exact h d hd (hd ▸ hlength)
  cases hw with
  | @not b₁ v hb₁ hv =>
    have htrim : trim c.rest = '!' :: (b₁ ++ (v ++ rest)) := by simpa using htrim
    refine (negation_accepts_not (R := fun _ rest' => trim rest' = trim rest) htrim
      (Follow.not_equal hb₁ (Basic.begins hv) rfl) fun d hd => ?_).mono ?_
    · refine h.negation d b₁ v rest hd hb₁ hv hrest ?_
      rw [hd]
      simp only [List.length_append, List.length_cons] at hlength ⊢
      omega
    · rintro _ rest' ⟨_, _, _, _, hrest'⟩
      exact hrest'
  | primary hprimary =>
    exact hcomparison (Primary.begins hprimary) fun d hd hbound =>
      comparison_accepts_primary h hd hprimary hrest hbound
  | comparison hl hb₁ hop hb₂ hr =>
    refine hcomparison (((((Comparable.begins hl).append _).append _).append _).append _) ?_
    exact fun d hd hbound =>
      comparison_accepts h (by simpa using hd) hl hb₁ hop hb₂ hr hrest hbound

theorem operands_accepts {operand : Parser Expr} {L : Language} {x : Char} {set : List Char}
    {bound : Nat} (hoperand : operand.Completes L (x :: set) bound) (kind : TokenKind)
    {mark tail : List Char} (hmark : mark = x :: tail) (hblank : Cursor.isBlank x = false)
    (hx : x ∉ set) {rounds : Nat} {c : Cursor} {b w rest : List Char}
    (hc : c.rest = b ++ (w ++ rest)) (hb : Blanks b) (hw : Separated mark L w)
    (hrest : Follow set rest) (hrounds : c.rest.length < rounds) (hbound : c.rest.length < bound) :
    Accepts (operands kind mark operand rounds) c fun _ rest' => trim rest' = trim rest := by
  induction hw generalizing c b rounds with
  | @one w hw =>
    obtain ⟨more, rfl⟩ := Nat.exists_eq_add_of_lt hrounds
    have hitem := hoperand c b w rest hc hb hw (hrest.mono fun _ => List.mem_cons_of_mem _) hbound
    refine (operands_accepts_last (P := fun _ => True) hmark (fun h => hx (hrest x h)) ?_).mono
      fun _ _ h => h.2
    exact hitem.mono fun _ _ h => ⟨trivial, h⟩
  | @more w b₁ b₂ others hw hb₁ hb₂ hothers ih =>
    obtain ⟨more, rfl⟩ := Nat.exists_eq_add_of_lt hrounds
    have hc : c.rest = b ++ (w ++ (b₁ ++ (mark ++ (b₂ ++ (others ++ rest))))) := by simpa using hc
    have hfollow := follow_mark hmark hblank (List.mem_cons_self (l := set)) hb₁
      (b₂ ++ (others ++ rest))
    have hitem := hoperand c b w _ hc hb hw hfollow hbound
    rw [trim_mark hmark hblank hb₁] at hitem
    have hlength := congrArg List.length hc
    have hpositive := congrArg List.length hmark
    simp only [List.length_append, List.length_cons] at hlength hpositive
    refine (operands_accepts_more (P := fun _ => True) (hitem.mono fun _ _ h => ⟨trivial, h⟩)
      fun d hd => ih hd hb₂ ?_ ?_).mono ?_
    · rw [hd]
      simp only [List.length_append]
      omega
    · rw [hd]
      simp only [List.length_append]
      omega
    · rintro _ rest' ⟨_, _, _, _, _, h⟩
      exact h

theorem joined_accepts {operand : Parser Expr} {L M : Language} {x : Char} {set : List Char}
    {bound : Nat} (hoperand : operand.Completes L (x :: set) bound) (kind : TokenKind)
    {mark tail : List Char} (hmark : mark = x :: tail) (hblank : Cursor.isBlank x = false)
    (hx : x ∉ set) (make : Nat → Expr → Token → Operands → Expr)
    (hM : ∀ w, M w → Separated mark L w) :
    (joined kind mark make operand).Completes M set bound := by
  intro c b w rest hc hb hw hrest hbound
  cases hM w hw with
  | one hfirst =>
    have hitem := hoperand c b w rest hc hb hfirst (hrest.mono fun _ => List.mem_cons_of_mem _)
      hbound
    refine (joined_accepts_one (P := fun _ => True) hmark (fun h => hx (hrest x h)) ?_).mono
      fun _ _ h => h.2
    exact hitem.mono fun _ _ h => ⟨trivial, h⟩
  | @more w b₁ b₂ others hfirst hb₁ hb₂ hothers =>
    have hc : c.rest = b ++ (w ++ (b₁ ++ (mark ++ (b₂ ++ (others ++ rest))))) := by simpa using hc
    have hfollow := follow_mark hmark hblank (List.mem_cons_self (l := set)) hb₁
      (b₂ ++ (others ++ rest))
    have hitem := hoperand c b w _ hc hb hfirst hfollow hbound
    rw [trim_mark hmark hblank hb₁] at hitem
    have hlength := congrArg List.length hc
    simp only [List.length_append] at hlength
    refine (joined_accepts_more (P := fun _ => True) (hitem.mono fun _ _ h => ⟨trivial, h⟩)
      fun d hd => operands_accepts hoperand kind hmark hblank hx hd hb₂ hothers hrest ?_ ?_).mono ?_
    · rw [hd]
      exact Nat.lt_succ_self _
    · rw [hd, List.length_append, List.length_append]
      omega
    · rintro _ rest' ⟨_, _, _, _, _, _, h⟩
      exact h

theorem conjunction_accepts {inner : Expressions} {bound : Nat} (h : inner.Complete bound) :
    (conjunction inner).Completes Conjunction afterConjunction (bound + 1) := by
  refine joined_accepts (negation_accepts h) .and rfl rfl (by decide) .and ?_
  rintro w ⟨hw⟩
  exact hw

theorem disjunction_accepts {inner : Expressions} {bound : Nat} (h : inner.Complete bound) :
    (disjunction inner).Completes Disjunction afterExpression (bound + 1) := by
  refine joined_accepts (conjunction_accepts h) .or rfl rfl (by decide) .or ?_
  rintro w ⟨hw⟩
  exact hw

/-- Every level of nesting takes at least one character. -/
theorem expressions_complete (depth : Nat) : (expressions depth).Complete depth := by
  induction depth with
  | zero =>
    exact ⟨fun _ _ _ _ _ _ _ _ h => absurd h (Nat.not_lt_zero _),
      fun _ _ _ _ _ _ _ _ h => absurd h (Nat.not_lt_zero _)⟩
  | succ depth ih => exact ⟨disjunction_accepts ih, negation_accepts ih⟩

/-- After the whole path, nothing remains. -/
theorem remainder_accepts (filter : Parser Expr) (rounds : Nat) (path : Path) {c : Cursor}
    (hc : c.rest = []) :
    Accepts (remainder filter rounds path) c fun p rest' => p = path ∧ rest' = [] := by
  cases rounds with
  | zero => exact .pure ⟨rfl, hc⟩
  | succ rounds =>
    have hblanks : c.blanks = 0 := by simp [Cursor.blanks, hc]
    have heq : remainder filter (rounds + 1) path c = (path, c.pass 0) := by
      rw [remainder, skipBlanks_bind, peek_bind, hblanks]
      simp [Cursor.pass, Cursor.ahead, Range.isEmpty, hc, pure_apply]
    exact ⟨by rw [heq]; rfl, by rw [heq]; simp [Cursor.pass, hc]⟩

theorem identifier_accepts {c : Cursor} {rest : List Char} (hc : c.rest = '$' :: rest) :
    Accepts identifier c fun token rest' => token.kind = .root ∧ rest' = rest := by
  have hc : c.rest = ['$'] ++ rest := hc
  refine .peek ?_
  rw [hc]
  have htake := take_accepts .root hc
  exact ⟨htake.clean, rfl, htake.result⟩

theorem endsSegments_nil : EndsSegments [] := ⟨by simp [EndsName], by simp [trim]⟩

end Parser

namespace Query

open Grammar

/-- The body of a query is its segments after the identifier. -/
theorem body_accepts_of {filter : Parser Expr} {c : Cursor} {w : List Char} {P : Path → Prop}
    (hc : c.rest = '$' :: w)
    (hsegments : ∀ pathId (identifier : Token) (d : Cursor), identifier.kind = .root →
      d.rest = w → Parser.Accepts (Parser.segments filter w.length (.root pathId identifier)) d
        fun p rest' => P p ∧ rest' = []) :
    Parser.Accepts (body filter) c fun found _ => P found.2 := by
  refine .element fun id d hd => .element fun pathId d₁ hd₁ => ?_
  have hd₁ : d₁.rest = '$' :: w := hd₁.trans (hd.trans hc)
  have htrim : Parser.trim d₁.rest = d₁.rest := by
    rw [hd₁]
    exact Parser.trim_cons rfl w
  refine .bind (Parser.rejectBlanks_accepts _ htrim) fun _ d₂ hd₂ => ?_
  refine .bind (Parser.identifier_accepts (hd₂.trans hd₁)) fun identifier d₃ ⟨hkind, hd₃⟩ => .get ?_
  rw [hd₃]
  refine .bind (hsegments pathId identifier d₃ hkind hd₃) fun path d₄ ⟨hpath, hd₄⟩ => .get ?_
  refine .bind (Parser.remainder_accepts filter _ path hd₄) fun path' d₅ ⟨hpath', _⟩ => .pure ?_
  exact hpath' ▸ hpath

/-- The path of a query begins at the root. -/
theorem body_accepts {filter : Parser Expr} {c : Cursor} {bound : Nat}
    (hfilter : filter.Completes Disjunction Parser.afterExpression bound)
    (hbound : c.rest.length ≤ bound) (hquery : Grammar.Query c.rest) :
    Parser.Accepts (body filter) c fun found _ => found.2.isRelative = false := by
  obtain ⟨w, hc, hw⟩ : ∃ w, c.rest = '$' :: w ∧ Segments w := by
    generalize c.rest = chars at hquery
    obtain ⟨hw⟩ := hquery
    exact ⟨_, rfl, hw⟩
  refine body_accepts_of (P := fun p => p.isRelative = false) hc
    fun pathId identifier d hkind hd => ?_
  refine (Parser.segments_accepts hfilter _ _ (hd.trans (List.append_nil w).symm) hw
    Parser.endsSegments_nil (Nat.le_refl _) ?_).mono fun p _ h => ⟨?_, h.2⟩
  · rw [hd]
    rw [hc, List.length_cons] at hbound
    omega
  · rw [Path.isRelative, h.1]
    simp [Path.identifier, hkind]

theorem filterParser_completes (source : String) :
    (filterParser source).Completes Disjunction Parser.afterExpression
      (source.toList.length + 1) :=
  (Parser.expressions_complete _).disjunction

/-- A text is read without fault exactly if it is a query. -/
theorem parse_faults_eq_nil_iff (source : String) :
    (parse source).faults = [] ↔ Grammar.Query source.toList := by
  refine ⟨fun h => (parse_sound h).1, fun h => ?_⟩
  have haccepts := body_accepts (c := .ofChars source.toList) (filterParser_completes source)
    (Nat.le_succ _) h
  rw [parse_faults, List.reverse_eq_nil_iff]
  exact haccepts.clean

/-- The path of a text without fault begins at the root. -/
theorem parse_isRelative {source : String} (h : (parse source).faults = []) :
    (parse source).path.isRelative = false := by
  rw [parse_path]
  exact (body_accepts (c := .ofChars source.toList) (filterParser_completes source)
    (Nat.le_succ _) (parse_sound h).1).result

end Query

end JsonPath
