import JsonPath.Pattern.Grammar
import JsonPath.Proofs.Syntax.Grammar

/-!
Spelling out the points of a pattern. The rules of the grammar, without a choice between
alternatives, derive a pattern together with what it becomes when each atom that is a point is
spelled out; no other rule changes what it derives. Every text that is taken for a pattern is
derived. Two flags are enough to tell an atom that is a point from other points, as brackets hold no
brackets that are not escaped: what is derived from a pattern is what the pattern is expanded to,
however deep it is nested.
-/

namespace JsonPath.Pattern

open Grammar (Language)

/-! ### Rules -/

inductive Escape : Language
  | mk {c : Char} (escapable : isEscapable c = true) : Escape ['\\', c]

/-- The letters of a property: one for a group of categories, or two. -/
inductive Property : Language
  | group {c : Char} (letters : propertyLetters c ≠ []) : Property [c]
  | one {c d : Char} (letter : d ∈ propertyLetters c) : Property [c, d]

inductive Category : Language
  | mk {c : Char} {w : List Char} (letter : c = 'p' ∨ c = 'P') (property : Property w) :
      Category ('\\' :: c :: '\x7b' :: w ++ ['\x7d'])

inductive ClassChar : Language
  | plain {c : Char} (classChar : isClassChar c = true) : ClassChar [c]
  | escape {w : List Char} (escape : Escape w) : ClassChar w

inductive ClassItem : Language
  | char {w : List Char} (char : ClassChar w) : ClassItem w
  | range {v w : List Char} (low : ClassChar v) (high : ClassChar w) : ClassItem (v ++ '-' :: w)
  | category {w : List Char} (category : Category w) : ClassItem w

inductive ClassItems : Language
  | nil : ClassItems []
  | cons {v w : List Char} (item : ClassItem v) (rest : ClassItems w) : ClassItems (v ++ w)

inductive Brackets : Language
  | mk {n f w h : List Char} (negation : n = [] ∨ n = ['^']) (first : f = ['-'] ∨ ClassItem f)
      (others : ClassItems w) (hyphen : h = [] ∨ h = ['-']) :
      Brackets ('[' :: n ++ f ++ w ++ h ++ [']'])

inductive Quantifier : Language
  | none : Quantifier []
  | mark {c : Char} (mark : c = '*' ∨ c = '+' ∨ c = '?') : Quantifier [c]
  | exactly {c : Char} (count : isDigit c = true) : Quantifier ['\x7b', c, '\x7d']
  | atLeast {c : Char} (low : isDigit c = true) : Quantifier ['\x7b', c, ',', '\x7d']
  | between {c d : Char} (low : isDigit c = true) (high : isDigit d = true) :
      Quantifier ['\x7b', c, ',', d, '\x7d']

/-- What a point is spelled out as: every character but line breaks. -/
def anyInLine : List Char := ['[', '^', '\\', 'n', '\\', 'r', ']']

mutual

/-- What may be repeated, with what it becomes. -/
inductive Atom : List Char → List Char → Prop
  | normal {c : Char} (normal : isNormal c = true) : Atom [c] [c]
  | point : Atom ['.'] anyInLine
  | escape {w : List Char} (escape : Escape w) : Atom w w
  | category {w : List Char} (category : Category w) : Atom w w
  | brackets {w : List Char} (brackets : Brackets w) : Atom w w
  | group {w w' : List Char} (inner : Alternatives w w') :
      Atom ('(' :: w ++ [')']) ('(' :: w' ++ [')'])

inductive Branch : List Char → List Char → Prop
  | nil : Branch [] []
  | cons {v v' q w w' : List Char} (atom : Atom v v') (quantifier : Quantifier q)
      (rest : Branch w w') : Branch (v ++ q ++ w) (v' ++ q ++ w')

/-- A pattern, with what it becomes. -/
inductive Alternatives : List Char → List Char → Prop
  | one {w w' : List Char} (branch : Branch w w') : Alternatives w w'
  | more {v v' w w' : List Char} (branch : Branch v v') (rest : Alternatives w w') :
      Alternatives (v ++ '|' :: w) (v' ++ '|' :: w')

end

/-! ### What rules take -/

/-- A rule takes only texts of a language from the front of a text. -/
def Takes (rule : Rule) (L : Language) : Prop :=
  ∀ s rest, rule s = some rest → ∃ w, s = w ++ rest ∧ L w

section Combinators

variable {a b : Rule} {L M N : Language}

theorem Takes.mono (h : Takes a L) (hLM : ∀ w, L w → M w) : Takes a M := by
  intro s rest hs
  obtain ⟨w, hw, hL⟩ := h s rest hs
  exact ⟨w, hw, hLM w hL⟩

theorem takes_charRule (p : Char → Bool) :
    Takes (charRule p) fun w => ∃ c, p c = true ∧ w = [c] := by
  intro s rest hs
  unfold charRule at hs
  split at hs
  · rename_i c more
    by_cases hc : p c = true
    · rw [if_pos hc, Option.some_inj] at hs
      exact ⟨[c], by rw [hs]; rfl, c, hc, rfl⟩
    · rw [if_neg hc] at hs
      cases hs
  · cases hs

theorem takes_mark (c : Char) : Takes (mark c) fun w => w = [c] :=
  (takes_charRule _).mono fun w => by rintro ⟨d, hd, rfl⟩; rw [eq_of_beq hd]

/-- A text of one language and then a text of another. -/
def Followed (L M : Language) : Language := fun w => ∃ u v, w = u ++ v ∧ L u ∧ M v

theorem takes_both (ha : Takes a L) (hb : Takes b M) : Takes (both a b) (Followed L M) := by
  intro s rest hs
  obtain ⟨middle, hmiddle, hrest⟩ := Option.bind_eq_some_iff.mp hs
  obtain ⟨v, rfl, hv⟩ := ha s middle hmiddle
  obtain ⟨w, rfl, hw⟩ := hb middle rest hrest
  exact ⟨v ++ w, (List.append_assoc v w rest).symm, v, w, rfl, hv, hw⟩

theorem takes_either (ha : Takes a L) (hb : Takes b L) : Takes (either a b) L := by
  intro s rest hs
  rw [either] at hs
  cases htaken : a s with
  | none =>
    rw [htaken] at hs
    exact hb s rest hs
  | some more =>
    rw [htaken] at hs
    exact ha s rest (htaken.trans hs)

theorem takes_optional (ha : Takes a L) : Takes (optional a) fun w => w = [] ∨ L w := by
  intro s rest hs
  rw [optional, Option.some_inj] at hs
  cases htaken : a s with
  | none =>
    rw [htaken] at hs
    exact ⟨[], hs, .inl rfl⟩
  | some more =>
    rw [htaken] at hs
    obtain ⟨w, hw, hL⟩ := ha s more htaken
    exact ⟨w, hs ▸ hw, .inr hL⟩

theorem takes_repeated (ha : Takes a L) (hnil : M []) (hcons : ∀ v w, L v → M w → M (v ++ w))
    (rounds : Nat) : Takes (repeated a rounds) M := by
  induction rounds with
  | zero =>
    intro s rest hs
    exact ⟨[], Option.some_inj.mp hs, hnil⟩
  | succ rounds ih =>
    intro s rest hs
    rw [repeated] at hs
    split at hs
    · rename_i more hmore
      obtain ⟨v, rfl, hv⟩ := ha s more hmore
      obtain ⟨w, rfl, hw⟩ := ih more rest hs
      exact ⟨v ++ w, (List.append_assoc v w rest).symm, hcons v w hv hw⟩
    · exact ⟨[], Option.some_inj.mp hs, hnil⟩

theorem takes_many (ha : Takes a L) (hnil : M []) (hcons : ∀ v w, L v → M w → M (v ++ w)) :
    Takes (many a) M :=
  fun s => takes_repeated ha hnil hcons s.length s

end Combinators

theorem takes_escape : Takes escape Escape :=
  (takes_both (takes_mark '\\') (takes_charRule isEscapable)).mono fun w => by
    rintro ⟨_, _, rfl, rfl, c, hc, rfl⟩
    exact .mk hc

theorem takes_property : Takes property Property := by
  intro s rest hs
  unfold property at hs
  split at hs
  · rename_i c more
    dsimp only at hs
    split at hs
    · cases hs
    · rename_i hletters
      obtain ⟨w, rfl, rfl | ⟨d, hd, rfl⟩⟩ := takes_optional (takes_charRule _) more rest hs
      · exact ⟨[c], rfl, .group fun h => hletters (List.isEmpty_iff.mpr h)⟩
      · exact ⟨[c, d], rfl, .one (List.contains_iff_mem.mp hd)⟩
  · cases hs

theorem takes_category : Takes category Category :=
  (takes_both (takes_mark '\\') <| takes_both (takes_charRule _) <|
    takes_both (takes_mark '\x7b') <| takes_both takes_property (takes_mark '\x7d')).mono fun w => by
      rintro ⟨_, _, rfl, rfl, _, _, rfl, ⟨c, hc, rfl⟩, _, _, rfl, rfl, w, _, rfl, hw, rfl⟩
      have hletter : c = 'p' ∨ c = 'P' := by simpa using hc
      exact .mk hletter hw

theorem takes_classChar : Takes classChar ClassChar :=
  takes_either ((takes_charRule isClassChar).mono fun w => by rintro ⟨c, hc, rfl⟩; exact .plain hc)
    (takes_escape.mono fun _ => .escape)

theorem takes_classItem : Takes classItem ClassItem := by
  refine takes_either ?_ (takes_category.mono fun _ => .category)
  refine (takes_both takes_classChar (takes_optional
    (takes_both (takes_mark '-') takes_classChar))).mono ?_
  rintro _ ⟨v, _, rfl, hv, rfl | ⟨_, w, rfl, rfl, hw⟩⟩
  · rw [List.append_nil]
    exact .char hv
  · exact .range hv hw

theorem takes_bracketClass : Takes bracketClass Brackets := by
  have hitems : Takes (many classItem) ClassItems :=
    takes_many takes_classItem .nil fun _ _ => .cons
  have hfirst : Takes (either (mark '-') classItem) fun w => w = ['-'] ∨ ClassItem w :=
    takes_either ((takes_mark '-').mono fun _ => .inl) (takes_classItem.mono fun _ => .inr)
  refine (takes_both (takes_mark '[') <| takes_both (takes_optional (takes_mark '^')) <|
    takes_both hfirst <| takes_both hitems <|
      takes_both (takes_optional (takes_mark '-')) (takes_mark ']')).mono ?_
  rintro _ ⟨_, _, rfl, rfl, n, _, rfl, hn, f, _, rfl, hf, w, _, rfl, hw, h, _, rfl, hh, rfl⟩
  simpa only [List.cons_append, List.nil_append, List.append_assoc] using Brackets.mk hn hf hw hh

theorem takes_quantifier : Takes (optional quantifier) Quantifier := by
  have hmark : Takes (charRule fun c => c = '*' || c = '+' || c = '?') Quantifier :=
    (takes_charRule _).mono fun w => by
      rintro ⟨c, hc, rfl⟩
      have hmarks : (c = '*' ∨ c = '+') ∨ c = '?' := by simpa using hc
      exact .mark (or_assoc.mp hmarks)
  have hhigh := takes_optional <|
    takes_both (takes_mark ',') (takes_optional (takes_charRule isDigit))
  have hbraces := takes_both (takes_mark '\x7b') <| takes_both (takes_charRule isDigit) <|
    takes_both hhigh (takes_mark '\x7d')
  refine (takes_optional (takes_either hmark (hbraces.mono ?_))).mono ?_
  · rintro _ ⟨_, _, rfl, rfl, _, _, rfl, ⟨c, hc, rfl⟩, _, _, rfl, hbound, rfl⟩
    rcases hbound with rfl | ⟨_, _, rfl, rfl, rfl | ⟨d, hd, rfl⟩⟩
    · exact .exactly hc
    · exact .atLeast hc
    · exact .between hc hd
  · rintro w (rfl | hw)
    · exact .none
    · exact hw

/-! ### Patterns -/

/-- A text from which a pattern is derived. -/
def Derived (relation : List Char → List Char → Prop) : Language := fun w => ∃ w', relation w w'

theorem takes_atom {nested : Rule} (hnested : Takes nested (Derived Alternatives)) :
    Takes (atom nested) (Derived Atom) := by
  refine takes_either ((takes_charRule isNormal).mono ?_) <|
    takes_either ((takes_mark '.').mono ?_) <|
    takes_either (takes_escape.mono fun w hw => ⟨w, .escape hw⟩) <|
    takes_either (takes_category.mono fun w hw => ⟨w, .category hw⟩) <|
    takes_either (takes_bracketClass.mono fun w hw => ⟨w, .brackets hw⟩) <|
    (takes_both (takes_mark '(') <| takes_both hnested (takes_mark ')')).mono ?_
  · rintro _ ⟨c, hc, rfl⟩
    exact ⟨[c], .normal hc⟩
  · rintro _ rfl
    exact ⟨anyInLine, .point⟩
  · rintro _ ⟨_, _, rfl, rfl, w, _, rfl, ⟨w', hw⟩, rfl⟩
    exact ⟨'(' :: w' ++ [')'], .group hw⟩

theorem takes_branch {nested : Rule} (hnested : Takes nested (Derived Alternatives)) :
    Takes (branch nested) (Derived Branch) := by
  refine takes_many (takes_both (takes_atom hnested) takes_quantifier) ⟨[], .nil⟩ ?_
  rintro _ w ⟨v, q, rfl, ⟨v', hv⟩, hq⟩ ⟨w', hw⟩
  exact ⟨v' ++ q ++ w', .cons hv hq hw⟩

theorem takes_alternatives {nested : Rule} (hnested : Takes nested (Derived Alternatives)) :
    Takes (alternatives nested) (Derived Alternatives) := by
  -- What follows the first branch: nothing, or a bar and alternatives.
  have hothers : Takes (many (both (mark '|') (branch nested))) fun w =>
      ∀ v, Derived Branch v → Derived Alternatives (v ++ w) := by
    refine takes_many (takes_both (takes_mark '|') (takes_branch hnested)) ?_ ?_
    · rintro v ⟨v', hv⟩
      rw [List.append_nil]
      exact ⟨v', .one hv⟩
    · rintro _ w ⟨_, u, rfl, rfl, hu⟩ hw v ⟨v', hv⟩
      obtain ⟨w', hw'⟩ := hw u hu
      exact ⟨v' ++ '|' :: w', .more hv hw'⟩
  refine (takes_both (takes_branch hnested) hothers).mono ?_
  rintro _ ⟨v, w, rfl, hv, hw⟩
  exact hw v hv

theorem takes_pattern (depth : Nat) : Takes (pattern depth) (Derived Alternatives) := by
  induction depth with
  | zero =>
    intro s rest hs
    cases hs
  | succ depth ih => exact takes_alternatives ih

/-- Every text that is taken for a pattern is derived by the rules of the grammar. -/
theorem derived_of_isValid {w : List Char} (h : isValid w = true) : Derived Alternatives w := by
  obtain ⟨v, hv, hderived⟩ := takes_pattern _ w [] (eq_of_beq h)
  rwa [hv, List.append_nil]

section Expansion

variable {bracketed : Bool} {v w w' : List Char}

/-! ### What is kept -/

/-- The text is kept in front of any other, outside brackets or inside. -/
def Keeps (bracketed : Bool) (w : List Char) : Prop :=
  ∀ rest, expandPoints false bracketed (w ++ rest) = w ++ expandPoints false bracketed rest

theorem Keeps.nil (bracketed : Bool) : Keeps bracketed [] := fun _ => rfl

theorem Keeps.append (hv : Keeps bracketed v) (hw : Keeps bracketed w) :
    Keeps bracketed (v ++ w) := fun rest => by
  rw [List.append_assoc, hv, hw, List.append_assoc]

/-- A character that is no mark for the expansion. -/
def IsOrdinary (c : Char) : Prop := c ≠ '.' ∧ c ≠ '\\' ∧ c ≠ '[' ∧ c ≠ ']'

instance (c : Char) : Decidable (IsOrdinary c) := inferInstanceAs (Decidable (_ ∧ _))

theorem keeps_char {c : Char} (hpoint : c ≠ '.' ∨ bracketed = true) (hslash : c ≠ '\\')
    (hopening : c ≠ '[') (hclosing : c ≠ ']') : Keeps bracketed [c] := by
  intro rest
  have hkept : ¬(c = '.' && !bracketed) = true := by
    rcases hpoint with h | h <;> simp [h]
  rw [List.singleton_append, expandPoints, if_neg hkept]
  simp [hslash, hopening, hclosing]

theorem IsOrdinary.keeps {c : Char} (h : IsOrdinary c) (bracketed : Bool) : Keeps bracketed [c] :=
  keeps_char (.inl h.1) h.2.1 h.2.2.1 h.2.2.2

theorem keeps_ordinary (h : ∀ c ∈ w, IsOrdinary c) : Keeps bracketed w := by
  induction w with
  | nil => exact .nil _
  | cons c w ih =>
    obtain ⟨hc, hw⟩ := List.forall_mem_cons.mp h
    exact (hc.keeps _).append (ih hw)

/-- A backslash keeps what follows it. -/
theorem keeps_slash (bracketed : Bool) (c : Char) : Keeps bracketed ['\\', c] := by
  intro rest
  cases bracketed <;> rfl

theorem Escape.keeps (h : Escape w) (bracketed : Bool) : Keeps bracketed w := by
  obtain ⟨-⟩ := h
  exact keeps_slash bracketed _

/-- Characters with a property that the marks do not have. -/
theorem isOrdinary_of {P : Char → Prop} (hmarks : ¬ P '.' ∧ ¬ P '\\' ∧ ¬ P '[' ∧ ¬ P ']')
    {c : Char} (h : P c) : IsOrdinary c := by
  obtain ⟨hpoint, hslash, hopening, hclosing⟩ := hmarks
  exact ⟨fun hc => hpoint (hc ▸ h), fun hc => hslash (hc ▸ h), fun hc => hopening (hc ▸ h),
    fun hc => hclosing (hc ▸ h)⟩

theorem isOrdinary_of_isDigit {c : Char} (h : isDigit c = true) : IsOrdinary c :=
  isOrdinary_of (P := fun c => isDigit c = true) (by decide) h

theorem isOrdinary_of_isNormal {c : Char} (h : isNormal c = true) : IsOrdinary c :=
  isOrdinary_of (P := fun c => isNormal c = true) (by decide) h

theorem isOrdinary_of_letters {c : Char} (h : propertyLetters c ≠ []) : IsOrdinary c :=
  isOrdinary_of (P := fun c => propertyLetters c ≠ []) (by decide) h

theorem isOrdinary_of_mem_letters {c d : Char} (h : d ∈ propertyLetters c) : IsOrdinary d := by
  refine isOrdinary_of (P := fun d => d ∈ propertyLetters c) ?_ h
  unfold propertyLetters
  repeat' split
  all_goals decide

theorem Property.isOrdinary (h : Property w) : ∀ c ∈ w, IsOrdinary c := by
  cases h with
  | group letters => exact List.forall_mem_singleton.mpr (isOrdinary_of_letters letters)
  | one letter =>
    have hletters := List.ne_nil_of_mem letter
    exact List.forall_mem_cons.mpr ⟨isOrdinary_of_letters hletters,
      List.forall_mem_singleton.mpr (isOrdinary_of_mem_letters letter)⟩

theorem keeps_braces (h : Keeps bracketed w) : Keeps bracketed ('\x7b' :: w ++ ['\x7d']) := by
  have hopening : IsOrdinary '\x7b' := by decide
  have hclosing : IsOrdinary '\x7d' := by decide
  exact ((hopening.keeps bracketed).append h).append (hclosing.keeps bracketed)

theorem Category.keeps (h : Category w) (bracketed : Bool) : Keeps bracketed w := by
  obtain ⟨-, property⟩ := h
  exact (keeps_slash bracketed _).append (keeps_braces (keeps_ordinary property.isOrdinary))

/-! ### Brackets -/

theorem ClassChar.keeps (h : ClassChar w) : Keeps true w := by
  cases h with
  | @plain c classChar =>
    refine keeps_char (.inr rfl) ?_ ?_ ?_ <;> (rintro rfl; revert classChar; decide)
  | escape escape => exact escape.keeps true

theorem keeps_hyphen : Keeps true ['-'] :=
  keeps_char (.inr rfl) (by decide) (by decide) (by decide)

theorem ClassItem.keeps (h : ClassItem w) : Keeps true w := by
  cases h with
  | char char => exact char.keeps
  | range low high => exact low.keeps.append (keeps_hyphen.append high.keeps)
  | category category => exact category.keeps true

theorem ClassItems.keeps (h : ClassItems w) : Keeps true w := by
  induction h with
  | nil => exact .nil true
  | cons item _ ih => exact item.keeps.append ih

/-- Between brackets nothing is expanded, and after them points are again. -/
theorem Keeps.enclosed (h : Keeps true w) : Keeps false ('[' :: w ++ [']']) := by
  intro rest
  have hopening (more : List Char) :
      expandPoints false false ('[' :: more) = '[' :: expandPoints false true more := rfl
  have hclosing (more : List Char) :
      expandPoints false true (']' :: more) = ']' :: expandPoints false false more := rfl
  rw [List.append_assoc, List.cons_append, List.singleton_append, hopening, h, hclosing]
  simp

theorem Brackets.keeps (h : Brackets w) : Keeps false w := by
  obtain ⟨negation, first, others, hyphen⟩ := h
  have hnegation : Keeps true _ := negation.elim (fun h => h ▸ .nil true) fun h =>
    h ▸ keeps_char (.inr rfl) (by decide) (by decide) (by decide)
  have hfirst : Keeps true _ := first.elim (fun h => h ▸ keeps_hyphen) ClassItem.keeps
  have hhyphen : Keeps true _ := hyphen.elim (fun h => h ▸ .nil true) fun h => h ▸ keeps_hyphen
  have hinside := ((hnegation.append hfirst).append others.keeps).append hhyphen
  simpa only [List.cons_append, List.append_assoc] using hinside.enclosed

theorem keeps_digit {c : Char} (h : isDigit c = true) : Keeps false [c] :=
  (isOrdinary_of_isDigit h).keeps false

theorem Quantifier.keeps (h : Quantifier w) : Keeps false w := by
  have hcomma : Keeps false [','] := IsOrdinary.keeps (by decide) false
  cases h with
  | none => exact .nil false
  | mark mark => rcases mark with rfl | rfl | rfl <;> exact IsOrdinary.keeps (by decide) false
  | exactly count => exact keeps_braces (keeps_digit count)
  | atLeast low => exact keeps_braces ((keeps_digit low).append hcomma)
  | between low high =>
    exact keeps_braces ((keeps_digit low).append (hcomma.append (keeps_digit high)))

/-! ### What is expanded -/

/-- In front of any other text, the one is expanded to the other. -/
def Becomes (w w' : List Char) : Prop :=
  ∀ rest, expandPoints false false (w ++ rest) = w' ++ expandPoints false false rest

theorem Keeps.becomes (h : Keeps false w) : Becomes w w := h

theorem Becomes.append {v' : List Char} (hv : Becomes v v') (hw : Becomes w w') :
    Becomes (v ++ w) (v' ++ w') := fun rest => by
  rw [List.append_assoc, hv, hw, List.append_assoc]

theorem becomes_point : Becomes ['.'] anyInLine := fun _ => rfl

theorem becomes_mark {c : Char} (h : IsOrdinary c) : Becomes [c] [c] := h.keeps false

mutual

theorem Atom.becomes {w w' : List Char} : Atom w w' → Becomes w w'
  | .normal normal => becomes_mark (isOrdinary_of_isNormal normal)
  | .point => becomes_point
  | .escape escape => (escape.keeps false).becomes
  | .category category => (category.keeps false).becomes
  | .brackets brackets => brackets.keeps.becomes
  | .group inner =>
    ((becomes_mark (by decide)).append inner.becomes).append (becomes_mark (by decide))

theorem Branch.becomes {w w' : List Char} : Branch w w' → Becomes w w'
  | .nil => (Keeps.nil false).becomes
  | .cons atom quantifier rest =>
    (atom.becomes.append quantifier.keeps.becomes).append rest.becomes

theorem Alternatives.becomes {w w' : List Char} : Alternatives w w' → Becomes w w'
  | .one branch => branch.becomes
  | .more branch rest =>
    branch.becomes.append ((becomes_mark (by decide)).append rest.becomes)

end

/-- From a pattern is derived only what it is expanded to. -/
theorem Alternatives.expandPoints_eq (h : Alternatives w w') :
    expandPoints false false w = w' := by
  have hempty := h.becomes []
  rwa [List.append_nil, expandPoints, List.append_nil] at hempty

/-- The points that are expanded are those that are atoms. A text that is taken for a pattern is
derived with what it is expanded to, and every derivation of a text spells out the same points. -/
theorem expandPoints_exact (w : List Char) :
    (isValid w = true → Alternatives w (expandPoints false false w)) ∧
      ∀ w', Alternatives w w' → expandPoints false false w = w' := by
  refine ⟨fun hvalid => ?_, fun w' h => h.expandPoints_eq⟩
  obtain ⟨w', hw'⟩ := derived_of_isValid hvalid
  rwa [hw'.expandPoints_eq]

/-- A point that is an atom, one between brackets beside a bracket, and one after a backslash. -/
def threePoints : List Char := ['(', '.', '[', '.', '\\', ']', ']', '\\', '.', ')', '*']

theorem expandPoints_exact_threePoints :
    isValid threePoints = true ∧
      Alternatives threePoints
        ('(' :: anyInLine ++ ['[', '.', '\\', ']', ']', '\\', '.', ')', '*']) := by
  have hvalid : isValid threePoints = true := by decide
  exact ⟨hvalid, (expandPoints_exact threePoints).1 hvalid⟩

end Expansion

end JsonPath.Pattern
