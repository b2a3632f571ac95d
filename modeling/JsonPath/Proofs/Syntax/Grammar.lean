import JsonPath.Text

/-!
The grammar of queries: which texts are queries without fault. The rules are those of the
standard, except that any expression in parentheses, call, path or literal may stand for a test,
alone or after any number of exclamation marks, and that the arguments of a function are
expressions of any form. A path that is compared has one name or index in each segment.
-/

namespace JsonPath.Grammar

/-- A set of texts. -/
abbrev Language := List Char → Prop

/-- Any number of blanks. -/
def Blanks : Language := fun w => ∀ c ∈ w, c = ' ' ∨ c = '\t' ∨ c = '\n' ∨ c = '\r'

/-- Texts of one language with a mark between them and blanks around the marks. -/
inductive Separated (mark : List Char) (Item : Language) : Language
  | one {w : List Char} (item : Item w) : Separated mark Item w
  | more {w b b' rest : List Char} (item : Item w) (before : Blanks b) (after : Blanks b')
      (others : Separated mark Item rest) : Separated mark Item (w ++ b ++ mark ++ b' ++ rest)

/-! ### Numbers -/

def IsDigit (c : Char) : Prop := '0' ≤ c ∧ c ≤ '9'

/-- At least one digit. -/
def Digits : Language := fun w => w ≠ [] ∧ ∀ c ∈ w, IsDigit c

/-- Zero, or digits that do not begin with it. -/
inductive Whole : Language
  | zero : Whole ['0']
  | positive {c : Char} {w : List Char} (first : IsDigit c) (ne : c ≠ '0')
      (rest : ∀ d ∈ w, IsDigit d) : Whole (c :: w)

/-- A whole number, and not zero after a sign. -/
inductive Index : Language
  | whole {w : List Char} (digits : Whole w) : Index w
  | negative {w : List Char} (digits : Whole w) (ne : w ≠ ['0']) : Index ('-' :: w)

inductive Sign : Language
  | none : Sign []
  | minus : Sign ['-']

inductive Fraction : Language
  | none : Fraction []
  | some {w : List Char} (digits : Digits w) : Fraction ('.' :: w)

inductive ExponentSign : Language
  | none : ExponentSign []
  | plus : ExponentSign ['+']
  | minus : ExponentSign ['-']

inductive Exponent : Language
  | none : Exponent []
  | some {mark : Char} {s w : List Char} (letter : mark = 'e' ∨ mark = 'E')
      (sign : ExponentSign s) (digits : Digits w) : Exponent (mark :: s ++ w)

inductive Number : Language
  | mk {s w f e : List Char} (sign : Sign s) (digits : Whole w) (fraction : Fraction f)
      (exponent : Exponent e) : Number (s ++ w ++ f ++ e)

/-! ### Names and strings -/

def IsLower (c : Char) : Prop := 'a' ≤ c ∧ c ≤ 'z'

def IsUpper (c : Char) : Prop := 'A' ≤ c ∧ c ≤ 'Z'

/-- A character that may begin a name. -/
def IsNameFirst (c : Char) : Prop := IsLower c ∨ IsUpper c ∨ c = '_' ∨ 0x80 ≤ c.toNat

def IsNameChar (c : Char) : Prop := IsNameFirst c ∨ IsDigit c

inductive Name : Language
  | mk {c : Char} {w : List Char} (first : IsNameFirst c) (rest : ∀ d ∈ w, IsNameChar d) :
      Name (c :: w)

/-- The name of a function: a lowercase letter, then such letters, digits and underscores. -/
inductive FunctionName : Language
  | mk {c : Char} {w : List Char} (first : IsLower c)
      (rest : ∀ d ∈ w, IsLower d ∨ IsDigit d ∨ d = '_') : FunctionName (c :: w)

/-- Four hexadecimal digits, given by their values. -/
inductive Quad : (a b c d : Nat) → Language
  | mk {x y z u : Char} {a b c d : Nat} (first : Text.hexValue? x = some a)
      (second : Text.hexValue? y = some b) (third : Text.hexValue? z = some c)
      (fourth : Text.hexValue? u = some d) : Quad a b c d [x, y, z, u]

/-- A character after a backslash that stands for one character by itself. -/
def IsEscapable (quote c : Char) : Prop :=
  c = 'b' ∨ c = 'f' ∨ c = 'n' ∨ c = 'r' ∨ c = 't' ∨ c = '/' ∨ c = '\\' ∨ c = quote

/-- What may stand between two quotes: characters other than the quote, the backslash and
control characters, escapes, and two escapes for the halves of a surrogate pair. -/
inductive Quoted (quote : Char) : Language
  | nil : Quoted quote []
  | plain {c : Char} {w : List Char} (control : 0x20 ≤ c.toNat) (ne : c ≠ quote)
      (backslash : c ≠ '\\') (rest : Quoted quote w) : Quoted quote (c :: w)
  | escape {c : Char} {w : List Char} (escapable : IsEscapable quote c) (rest : Quoted quote w) :
      Quoted quote ('\\' :: c :: w)
  | unicode {a b c d : Nat} {v w : List Char} (digits : Quad a b c d v)
      (surrogate : a ≠ 0xD ∨ b < 8) (rest : Quoted quote w) :
      Quoted quote ('\\' :: 'u' :: v ++ w)
  | pair {b c d b' c' d' : Nat} {v v' w : List Char} (high : Quad 0xD b c d v)
      (high_ge : 8 ≤ b) (high_lt : b < 0xC) (low : Quad 0xD b' c' d' v') (low_ge : 0xC ≤ b')
      (rest : Quoted quote w) :
      Quoted quote ('\\' :: 'u' :: v ++ '\\' :: 'u' :: v' ++ w)

inductive StringLiteral : Language
  | mk {quote : Char} {w : List Char} (mark : quote = '\'' ∨ quote = '"') (body : Quoted quote w) :
      StringLiteral (quote :: w ++ [quote])

inductive Literal : Language
  | number {w : List Char} (number : Number w) : Literal w
  | string {w : List Char} (string : StringLiteral w) : Literal w
  | true : Literal ['t', 'r', 'u', 'e']
  | false : Literal ['f', 'a', 'l', 's', 'e']
  | null : Literal ['n', 'u', 'l', 'l']

/-! ### Paths -/

inductive SliceBound : Language
  | none : SliceBound []
  | some {w b : List Char} (index : Index w) (after : Blanks b) : SliceBound (w ++ b)

inductive SliceStep : Language
  | none : SliceStep []
  | colon : SliceStep [':']
  | some {b w : List Char} (before : Blanks b) (index : Index w) : SliceStep (':' :: b ++ w)

inductive Slice : Language
  | mk {u b v w : List Char} (start : SliceBound u) (after : Blanks b) (stop : SliceBound v)
      (step : SliceStep w) : Slice (u ++ ':' :: b ++ v ++ w)

/-- The selector after a dot or two dots. -/
inductive Shorthand : Language
  | wildcard : Shorthand ['*']
  | name {w : List Char} (name : Name w) : Shorthand w

/-- A segment with one name or one index. -/
inductive SingularSegment : Language
  | shorthand {w : List Char} (name : Name w) : SingularSegment ('.' :: w)
  | name {b w b' : List Char} (before : Blanks b) (name : StringLiteral w) (after : Blanks b') :
      SingularSegment ('[' :: b ++ w ++ b' ++ [']'])
  | index {b w b' : List Char} (before : Blanks b) (index : Index w) (after : Blanks b') :
      SingularSegment ('[' :: b ++ w ++ b' ++ [']'])

inductive SingularSegments : Language
  | nil : SingularSegments []
  | cons {b w rest : List Char} (before : Blanks b) (segment : SingularSegment w)
      (others : SingularSegments rest) : SingularSegments (b ++ w ++ rest)

/-! ### Expressions -/

def Operator : Language := fun w =>
  w = ['=', '='] ∨ w = ['!', '='] ∨ w = ['<', '='] ∨ w = ['>', '='] ∨ w = ['<'] ∨ w = ['>']

mutual

inductive Segments : List Char → Prop
  | nil : Segments []
  | cons {b w rest : List Char} (before : Blanks b) (segment : Segment w)
      (others : Segments rest) : Segments (b ++ w ++ rest)

inductive Segment : List Char → Prop
  | child {w : List Char} (selector : Shorthand w) : Segment ('.' :: w)
  | brackets {w : List Char} (selectors : Bracketed w) : Segment w
  | descendant {w : List Char} (selector : Shorthand w) : Segment ('.' :: '.' :: w)
  | descendantBrackets {w : List Char} (selectors : Bracketed w) : Segment ('.' :: '.' :: w)

inductive Bracketed : List Char → Prop
  | mk {b w b' : List Char} (before : Blanks b) (selectors : Separated [','] Selector w)
      (after : Blanks b') : Bracketed ('[' :: b ++ w ++ b' ++ [']'])

inductive Selector : List Char → Prop
  | name {w : List Char} (name : StringLiteral w) : Selector w
  | wildcard : Selector ['*']
  | slice {w : List Char} (slice : Slice w) : Selector w
  | index {w : List Char} (index : Index w) : Selector w
  | filter {b w : List Char} (before : Blanks b) (test : Disjunction w) :
      Selector ('?' :: b ++ w)

inductive Disjunction : List Char → Prop
  | mk {w : List Char} (operands : Separated ['|', '|'] Conjunction w) : Disjunction w

inductive Conjunction : List Char → Prop
  | mk {w : List Char} (operands : Separated ['&', '&'] Basic w) : Conjunction w

/-- A primary expression or a comparison, after any number of exclamation marks. -/
inductive Basic : List Char → Prop
  | not {b w : List Char} (after : Blanks b) (operand : Basic w) : Basic ('!' :: b ++ w)
  | primary {w : List Char} (primary : Primary w) : Basic w
  | comparison {l b op b' r : List Char} (left : Comparable l) (before : Blanks b)
      (operator : Operator op) (after : Blanks b') (right : Comparable r) :
      Basic (l ++ b ++ op ++ b' ++ r)

inductive Primary : List Char → Prop
  | parens {b w b' : List Char} (before : Blanks b) (inner : Disjunction w) (after : Blanks b') :
      Primary ('(' :: b ++ w ++ b' ++ [')'])
  | path {c : Char} {w : List Char} (identifier : c = '$' ∨ c = '@') (segments : Segments w) :
      Primary (c :: w)
  | call {w : List Char} (call : Call w) : Primary w
  | literal {w : List Char} (literal : Literal w) : Primary w

inductive Comparable : List Char → Prop
  | literal {w : List Char} (literal : Literal w) : Comparable w
  | path {c : Char} {w : List Char} (identifier : c = '$' ∨ c = '@')
      (segments : SingularSegments w) : Comparable (c :: w)
  | call {w : List Char} (call : Call w) : Comparable w

inductive Call : List Char → Prop
  | empty {f b : List Char} (name : FunctionName f) (inside : Blanks b) :
      Call (f ++ '(' :: b ++ [')'])
  | some {f b w b' : List Char} (name : FunctionName f) (before : Blanks b)
      (arguments : Separated [','] Disjunction w) (after : Blanks b') :
      Call (f ++ '(' :: b ++ w ++ b' ++ [')'])

end

/-- The texts that are queries. -/
inductive Query : Language
  | mk {w : List Char} (segments : Segments w) : Query ('$' :: w)

/-! ### Blanks -/

theorem Blanks.nil : Blanks [] := by simp [Blanks]

theorem Blanks.append {a b : List Char} (ha : Blanks a) (hb : Blanks b) : Blanks (a ++ b) := by
  intro c hc
  rcases List.mem_append.mp hc with h | h
  · exact ha c h
  · exact hb c h

/-- A text of a language with blanks around it. -/
def Padded (L : Language) : Language := fun w =>
  ∃ b v b', w = b ++ v ++ b' ∧ Blanks b ∧ L v ∧ Blanks b'

namespace Padded

variable {L M : Language} {w w' b : List Char}

theorem of (h : L w) : Padded L w := ⟨[], w, [], by simp, .nil, h, .nil⟩

theorem mono (h : Padded L w) (hLM : ∀ v, L v → M v) : Padded M w := by
  obtain ⟨b, v, b', rfl, hb, hv, hb'⟩ := h
  exact ⟨b, v, b', rfl, hb, hLM v hv, hb'⟩

theorem before (hb : Blanks b) (h : Padded L w) : Padded L (b ++ w) := by
  obtain ⟨b₁, v, b₂, rfl, hb₁, hv, hb₂⟩ := h
  exact ⟨b ++ b₁, v, b₂, by simp, hb.append hb₁, hv, hb₂⟩

theorem after (h : Padded L w) (hb : Blanks b) : Padded L (w ++ b) := by
  obtain ⟨b₁, v, b₂, rfl, hb₁, hv, hb₂⟩ := h
  exact ⟨b₁, v, b₂ ++ b, by simp, hb₁, hv, hb₂.append hb⟩

theorem one {mark : List Char} (h : Padded L w) : Padded (Separated mark L) w :=
  h.mono fun _ => .one

theorem more {mark : List Char} (h : Padded L w) (h' : Padded (Separated mark L) w') :
    Padded (Separated mark L) (w ++ (mark ++ w')) := by
  obtain ⟨b₁, v, b₂, rfl, hb₁, hv, hb₂⟩ := h
  obtain ⟨b₃, v', b₄, rfl, hb₃, hv', hb₄⟩ := h'
  exact ⟨b₁, v ++ b₂ ++ mark ++ b₃ ++ v', b₄, by simp, hb₁, .more hv hb₂ hb₃ hv', hb₄⟩

end Padded

/-- Blanks before segments belong to the first of them. -/
theorem Segments.before {b w : List Char} (hb : Blanks b) (hw : Segments w) (hne : w ≠ []) :
    Segments (b ++ w) := by
  cases hw with
  | nil => exact absurd rfl hne
  | cons before segment others => simpa using Segments.cons (hb.append before) segment others

theorem Segments.append {v w : List Char} : Segments v → Segments w → Segments (v ++ w)
  | .nil, hw => hw
  | .cons before segment others, hw => by
    simpa using Segments.cons before segment (others.append hw)

end JsonPath.Grammar
