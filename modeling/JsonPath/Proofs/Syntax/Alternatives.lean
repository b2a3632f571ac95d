import JsonPath.Proofs.Syntax.Acceptance
import JsonPath.Proofs.Syntax.WellFormed

/-!
The ways in which a production can go. A list ends where no mark comes after an item and goes on
where one does, and an operator is there or not. Each rule asks what the parts give and says what is
made of them, so that nothing needs to be known about the parts themselves.
-/

namespace JsonPath

namespace Parser

open Grammar

variable {c : Cursor} {rest : List Char} {rounds : Nat}

/-! ### Selectors -/

theorem closeBracket_accepts (opening : Token) (hc : c.rest = ']' :: rest) :
    Accepts (closeBracket opening) c fun _ rest' => rest' = rest :=
  .isAt (isAt_append (w := [']']) hc) (take_accepts .rightBracket (w := [']']) hc)

section Selectors

variable {filter : Parser Expr} {P : Selector → Prop}

theorem selectors_accepts_last (opening : Token)
    (hitem : ∀ d : Cursor, d.rest = trim c.rest → Accepts (selector filter) d fun s rest' =>
      P s ∧ trim rest' = ']' :: rest) :
    Accepts (selectors filter opening (rounds + 1)) c fun found rest' =>
      (∃ s, found.1 = .last s ∧ P s) ∧ rest' = rest := by
  refine .skipBlanks fun _ d hd => .bind (hitem d hd) fun s d₁ ⟨hs, hd₁⟩ => ?_
  refine .skipBlanks fun _ d₂ hd₂ => ?_
  refine .bind (skipGarbage_accepts (hd₂.trans hd₁) (by simp)) fun _ d₃ hd₃ => ?_
  refine .isAt (isAt_of_ne (by simp [hd₃])) (.bind (closeBracket_accepts opening hd₃) ?_)
  exact fun closing d₄ hd₄ => .pure ⟨⟨s, rfl, hs⟩, hd₄⟩

theorem selectors_accepts_more {Q : Selectors → List Char → Prop} (opening : Token)
    (hitem : ∀ d : Cursor, d.rest = trim c.rest → Accepts (selector filter) d fun s rest' =>
      P s ∧ trim rest' = ',' :: rest)
    (hothers : ∀ d : Cursor, d.rest = rest →
      Accepts (selectors filter opening rounds) d fun found rest' => Q found.1 rest') :
    Accepts (selectors filter opening (rounds + 1)) c fun found rest' =>
      ∃ s comma others, found.1 = .more s comma others ∧ P s ∧ Q others rest' := by
  refine .skipBlanks fun _ d hd => .bind (hitem d hd) fun s d₁ ⟨hs, hd₁⟩ => ?_
  refine .skipBlanks fun _ d₂ hd₂ => ?_
  refine .bind (skipGarbage_accepts (hd₂.trans hd₁) (by simp)) fun _ d₃ hd₃ => ?_
  have hd₃ : d₃.rest = [','] ++ rest := hd₃
  refine .isAt (isAt_append hd₃) (.take hd₃ rfl fun comma d₄ _ _ hd₄ => ?_)
  exact .bind (hothers d₄ hd₄) fun found d₅ hd₅ => .pure ⟨s, comma, found.1, rfl, hs, hd₅⟩

end Selectors

/-! ### Arguments -/

theorem closeParen_accepts (opening : Token) (hc : c.rest = ')' :: rest) :
    Accepts (closeParen opening) c fun _ rest' => rest' = rest :=
  .isAt (isAt_append (w := [')']) hc) (take_accepts .rightParen (w := [')']) hc)

section Arguments

variable {argument : Parser Expr} {P : Expr → Prop}

theorem arguments_accepts_last (opening : Token)
    (hitem : Accepts argument c fun e rest' => P e ∧ trim rest' = ')' :: rest) :
    Accepts (arguments argument opening (rounds + 1)) c fun found rest' =>
      (∃ e, found.1 = .last e ∧ P e) ∧ rest' = rest := by
  refine .bind hitem fun e d ⟨he, hd⟩ => .skipBlanks fun _ d₁ hd₁ => ?_
  refine .bind (skipGarbage_accepts (hd₁.trans hd) (by simp)) fun _ d₂ hd₂ => ?_
  refine .isAt (isAt_of_ne (by simp [hd₂])) (.bind (closeParen_accepts opening hd₂) ?_)
  exact fun closing d₃ hd₃ => .pure ⟨⟨e, rfl, he⟩, hd₃⟩

theorem arguments_accepts_more {Q : Operands → List Char → Prop} (opening : Token)
    (hitem : Accepts argument c fun e rest' => P e ∧ trim rest' = ',' :: rest)
    (hothers : ∀ d : Cursor, d.rest = rest →
      Accepts (arguments argument opening rounds) d fun found rest' => Q found.1 rest') :
    Accepts (arguments argument opening (rounds + 1)) c fun found rest' =>
      ∃ e comma others, found.1 = .more e comma others ∧ P e ∧ Q others rest' := by
  refine .bind hitem fun e d ⟨he, hd⟩ => .skipBlanks fun _ d₁ hd₁ => ?_
  refine .bind (skipGarbage_accepts (hd₁.trans hd) (by simp)) fun _ d₂ hd₂ => ?_
  have hd₂ : d₂.rest = [','] ++ rest := hd₂
  refine .isAt (isAt_append hd₂) (.take hd₂ rfl fun comma d₃ _ _ hd₃ => ?_)
  exact .bind (hothers d₃ hd₃) fun found d₄ hd₄ => .pure ⟨e, comma, found.1, rfl, he, hd₄⟩

theorem call_accepts_none (argument : Parser Expr) (id : Nat) (name : Token) {v : List Char}
    (hc : c.rest = '(' :: v) (hv : trim v = ')' :: rest) :
    Accepts (call argument id name) c fun e rest' =>
      (∃ opening closing, e = .call id name opening .none closing) ∧ rest' = rest := by
  have hc : c.rest = ['('] ++ v := hc
  refine .take hc rfl fun opening d _ _ hd => .skipBlanks fun _ d₁ hd₁ => ?_
  have hd₁ : d₁.rest = [')'] ++ rest := by rw [hd₁, hd, hv]; rfl
  refine .isAt (isAt_append hd₁) (.take hd₁ rfl fun closing d₂ _ _ hd₂ => .pure ?_)
  exact ⟨⟨opening, closing, rfl⟩, hd₂⟩

theorem call_accepts_some {Q : Operands → List Char → Prop} (argument : Parser Expr) (id : Nat)
    (name : Token) {v : List Char} (hc : c.rest = '(' :: v) (hend : (trim v).head? ≠ some ')')
    (hothers : ∀ opening (d : Cursor), d.rest = trim v →
      Accepts (arguments argument opening ((trim v).length + 1)) d fun found rest' =>
        Q found.1 rest') :
    Accepts (call argument id name) c fun e rest' =>
      ∃ opening found closing, e = .call id name opening (.some found) closing ∧
        Q found rest' := by
  have hc : c.rest = ['('] ++ v := hc
  refine .take hc rfl fun opening d _ _ hd => .skipBlanks fun _ d₁ hd₁ => ?_
  rw [hd] at hd₁
  refine .isAt (isAt_of_ne (hd₁ ▸ hend)) (.get ?_)
  rw [hd₁]
  refine .bind (hothers opening d₁ hd₁) ?_
  exact fun found d₂ hd₂ => .pure ⟨opening, found.1, found.2, rfl, hd₂⟩

end Arguments

/-! ### Expressions -/

section Expressions

variable {inner : Expressions} {P Q : Expr → Prop} {v : List Char}

theorem primary_accepts_parens (hc : trim c.rest = '(' :: v)
    (hinner : ∀ d : Cursor, d.rest = v → Accepts inner.disjunction d fun e rest' =>
      P e ∧ trim rest' = ')' :: rest) :
    Accepts (primary inner) c fun e rest' =>
      (∃ id opening e' closing, e = .parens id opening e' closing ∧ P e') ∧ rest' = rest := by
  refine .skipBlanks fun _ d hd => .get ?_
  have hd : d.rest = ['('] ++ v := hd.trans hc
  rw [hd]
  refine .element fun id d₁ hd₁ => .take (hd₁.trans hd) rfl fun opening d₂ _ _ hd₂ => ?_
  refine .bind (hinner d₂ hd₂) fun e d₃ ⟨he, hd₃⟩ => .skipBlanks fun _ d₄ hd₄ => ?_
  refine .bind (closeParen_accepts opening (hd₄.trans hd₃)) fun closing d₅ hd₅ => .pure ?_
  exact ⟨⟨id, opening, e, closing, rfl, he⟩, hd₅⟩

theorem checkComparable_accepts {e : Expr} (h : e.IsComparable) (c : Cursor) :
    Accepts (checkComparable e) c fun _ rest' => rest' = c.rest := by
  unfold checkComparable
  cases e with
  | path id p =>
    have hsingular : p.isSingular = true := h
    dsimp only
    rw [if_pos hsingular]
    exact .pure rfl
  | literal | call => exact .pure rfl
  | or | and | not | comparison | parens | missing => exact h.elim

/-- An operator is read in full, also where a longer one begins like it. -/
theorem comparison?_text (op : Comparison) (hc : c.rest = op.text.toList ++ v)
    (hv : v.head? ≠ some '=') : comparison? c = some (op, op.text.toList.length) := by
  have hequal : ['='].isPrefixOf v = false := by
    cases v with
    | nil => rfl
    | cons x v =>
      have hx : x ≠ '=' := by simpa using hv
      simp [List.isPrefixOf, hx.symm]
  unfold comparison? Cursor.isAt
  rw [hc]
  cases op <;> simp [Comparison.text, hequal]

theorem comparison_accepts_one (hend : ∀ x ∈ ['=', '!', '<', '>'], (trim rest).head? ≠ some x)
    (hleft : Accepts (primary inner) c fun e rest' => P e ∧ trim rest' = trim rest) :
    Accepts (comparison inner) c fun e rest' => P e ∧ trim rest' = trim rest := by
  simp only [List.forall_mem_cons] at hend
  obtain ⟨hequal, hnot, hless, hgreater, -⟩ := hend
  refine .bind hleft fun left d ⟨hleft, hd⟩ => .skipBlanks fun _ d₁ hd₁ => .get ?_
  rw [hd] at hd₁
  have hat {x : Char} (chars : List Char) (hx : (trim rest).head? ≠ some x) :
      d₁.isAt (x :: chars) = false := isAt_of_ne (hd₁ ▸ hx)
  have hnone : comparison? d₁ = none := by
    simp only [comparison?, hat _ hequal, hat _ hnot, hat _ hless, hat _ hgreater,
      Bool.false_eq_true, if_false]
  rw [hnone]
  exact .pure ⟨hleft, by rw [hd₁, trim_trim]⟩

theorem comparison_accepts_two (op : Comparison) (hv : v.head? ≠ some '=')
    (hleft : Accepts (primary inner) c fun e rest' =>
      (e.IsComparable ∧ P e) ∧ trim rest' = op.text.toList ++ v)
    (hright : ∀ d : Cursor, d.rest = v → Accepts (primary inner) d fun e rest' =>
      (e.IsComparable ∧ Q e) ∧ trim rest' = trim rest) :
    Accepts (comparison inner) c fun e rest' =>
      (∃ id left operator right, e = .comparison id left operator op right ∧ P left ∧ Q right) ∧
        trim rest' = trim rest := by
  refine .bind hleft fun left d ⟨⟨hcomparable, hleft⟩, hd⟩ => .skipBlanks fun _ d₁ hd₁ => .get ?_
  rw [hd] at hd₁
  rw [comparison?_text op hd₁ hv]
  refine .element fun id d₂ hd₂ => .take (hd₂.trans hd₁) rfl fun operator d₃ _ htext hd₃ => ?_
  have hne : operator.text ≠ "=" := by
    rw [htext, String.ofList_toList]
    cases op <;> decide
  extract_lets final
  rw [if_neg hne]
  refine .bind (hright d₃ hd₃) fun right d₄ ⟨⟨hcomparable', hright⟩, hd₄⟩ => ?_
  refine .bind (checkComparable_accepts hcomparable d₄) fun _ d₅ hd₅ => ?_
  refine .bind (checkComparable_accepts hcomparable' d₅) fun _ d₆ hd₆ => .pure ?_
  exact ⟨⟨id, left, operator, right, rfl, hleft, hright⟩, by rw [hd₆, hd₅, hd₄]⟩

theorem negation_accepts_not {R : Expr → List Char → Prop} (hc : trim c.rest = '!' :: v)
    (hv : v.head? ≠ some '=') (hinner : ∀ d : Cursor, d.rest = v → Accepts inner.negation d R) :
    Accepts (negation inner) c fun e rest' => ∃ id bang e', e = .not id bang e' ∧ R e' rest' := by
  refine .skipBlanks fun _ d hd => ?_
  rw [hc] at hd
  have hequal : d.isAt ['!', '='] = false := isAt_second hd hv
  have hd : d.rest = ['!'] ++ v := hd
  refine .isAt (isAt_append hd) (.isAt hequal (.element fun id d₁ hd₁ => ?_))
  refine .take (hd₁.trans hd) rfl fun bang d₂ _ _ hd₂ => ?_
  exact .bind (hinner d₂ hd₂) fun e d₃ hd₃ => .pure ⟨id, bang, e, rfl, hd₃⟩

theorem negation_accepts_comparison {R : Expr → List Char → Prop}
    (hc : (trim c.rest).head? ≠ some '!')
    (h : ∀ d : Cursor, d.rest = trim c.rest → Accepts (comparison inner) d R) :
    Accepts (negation inner) c R := by
  refine .skipBlanks fun _ d hd => ?_
  have hbang (chars : List Char) : d.isAt ('!' :: chars) = false := isAt_of_ne (hd ▸ hc)
  exact .isAt (hbang []) (.isAt (hbang ['=']) (h d hd))

end Expressions

/-! ### Operands -/

section Operands

variable {operand : Parser Expr} {kind : TokenKind} {mark tail : List Char} {x : Char}
  {make : Nat → Expr → Token → Operands → Expr} {P : Expr → Prop}
  {Q : Operands → List Char → Prop}

theorem trim_mark (hmark : mark = x :: tail) (hblank : Cursor.isBlank x = false) {b : List Char}
    (hb : Blanks b) (v : List Char) : trim (b ++ (mark ++ v)) = mark ++ v := by
  rw [trim_append hb, hmark]
  exact trim_cons hblank _

theorem follow_mark (hmark : mark = x :: tail) (hblank : Cursor.isBlank x = false)
    {chars : List Char} (hx : x ∈ chars) {b : List Char} (hb : Blanks b) (v : List Char) :
    Follow chars (b ++ (mark ++ v)) := by
  rw [hmark]
  exact .before hb (.cons hx hblank _)

theorem operands_accepts_last (hmark : mark = x :: tail) (hend : (trim rest).head? ≠ some x)
    (hitem : Accepts operand c fun e rest' => P e ∧ trim rest' = trim rest) :
    Accepts (operands kind mark operand (rounds + 1)) c fun os rest' =>
      (∃ e, os = .last e ∧ P e) ∧ trim rest' = trim rest := by
  refine .bind hitem fun e d ⟨he, hd⟩ => .skipBlanks fun _ d₁ hd₁ => ?_
  rw [hd] at hd₁
  have hat : d₁.isAt mark = false := by
    rw [hmark]
    exact isAt_of_ne (by rwa [hd₁])
  exact .isAt hat (.pure ⟨⟨e, rfl, he⟩, by rw [hd₁, trim_trim]⟩)

theorem operands_accepts_more
    (hitem : Accepts operand c fun e rest' => P e ∧ trim rest' = mark ++ rest)
    (hothers : ∀ d : Cursor, d.rest = rest → Accepts (operands kind mark operand rounds) d Q) :
    Accepts (operands kind mark operand (rounds + 1)) c fun os rest' =>
      ∃ e operator others, os = .more e operator others ∧ P e ∧ Q others rest' := by
  refine .bind hitem fun e d ⟨he, hd⟩ => .skipBlanks fun _ d₁ hd₁ => ?_
  rw [hd] at hd₁
  refine .isAt (isAt_append hd₁) (.take hd₁ rfl fun operator d₂ _ _ hd₂ => ?_)
  exact .bind (hothers d₂ hd₂) fun others d₃ hd₃ => .pure ⟨e, operator, others, rfl, he, hd₃⟩

theorem joined_accepts_one (hmark : mark = x :: tail) (hend : (trim rest).head? ≠ some x)
    (hitem : Accepts operand c fun e rest' => P e ∧ trim rest' = trim rest) :
    Accepts (joined kind mark make operand) c fun e rest' => P e ∧ trim rest' = trim rest := by
  refine .bind hitem fun e d ⟨he, hd⟩ => .skipBlanks fun _ d₁ hd₁ => ?_
  rw [hd] at hd₁
  have hat : d₁.isAt mark = false := by
    rw [hmark]
    exact isAt_of_ne (by rwa [hd₁])
  exact .isAt hat (.pure ⟨he, by rw [hd₁, trim_trim]⟩)

theorem joined_accepts_more
    (hitem : Accepts operand c fun e rest' => P e ∧ trim rest' = mark ++ rest)
    (hothers : ∀ d : Cursor, d.rest = rest →
      Accepts (operands kind mark operand (rest.length + 1)) d Q) :
    Accepts (joined kind mark make operand) c fun e rest' =>
      ∃ id first operator others, e = make id first operator others ∧ P first ∧ Q others rest' := by
  refine .bind hitem fun first d ⟨hfirst, hd⟩ => .skipBlanks fun _ d₁ hd₁ => ?_
  rw [hd] at hd₁
  refine .isAt (isAt_append hd₁) (.element fun id d₂ hd₂ => ?_)
  refine .take (hd₂.trans hd₁) rfl fun operator d₃ _ _ hd₃ => .get ?_
  rw [hd₃]
  refine .bind (hothers d₃ hd₃) fun others d₄ hd₄ => .pure ?_
  exact ⟨id, first, operator, others, rfl, hfirst, hd₄⟩

end Operands

end Parser

end JsonPath
