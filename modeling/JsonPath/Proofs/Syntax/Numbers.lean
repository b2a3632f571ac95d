import JsonPath.Proofs.Syntax.Grammar
import JsonPath.Syntax.Parser

/-!
Indices and number literals that are in order. The sign, the digits, the fraction and the exponent
into which a text is cut are put together again, and what is cut from a text in order is what the
grammar allows. A number ends where nothing follows that could be part of one.
-/

namespace JsonPath

open Grammar

theorem Grammar.isDigit_iff {c : Char} : Text.isDigit c = true ↔ IsDigit c := by
  simp [Text.isDigit, IsDigit]

namespace Parser

/-! ### Digits -/

theorem isDigit_of_mem_takeWhile {w : List Char} {c : Char} (h : c ∈ w.takeWhile Text.isDigit) :
    IsDigit c :=
  isDigit_iff.mp (List.all_eq_true.mp List.all_takeWhile c h)

/-- More than one digit, of which the first is zero. -/
def LeadingZero (digits : List Char) : Prop := 1 < digits.length ∧ digits.head? = some '0'

instance (digits : List Char) : Decidable (LeadingZero digits) :=
  inferInstanceAs (Decidable (_ ∧ _))

theorem whole_of_digits {w : List Char} (hdigits : ∀ c ∈ w, IsDigit c) (hne : w ≠ [])
    (hzeros : ¬LeadingZero w) : Whole w := by
  obtain ⟨c, rest, rfl⟩ := List.exists_cons_of_ne_nil hne
  by_cases hc : c = '0'
  · subst hc
    cases rest with
    | nil => exact .zero
    | cons d rest => exact absurd ⟨by simp, rfl⟩ hzeros
  · exact .positive (hdigits c (by simp)) hc fun d hd => hdigits d (by simp [hd])

theorem Whole.digits {w : List Char} (h : Whole w) :
    w ≠ [] ∧ (∀ c ∈ w, IsDigit c) ∧ ¬LeadingZero w := by
  cases h with
  | zero => exact ⟨by simp, by simp [IsDigit], by simp [LeadingZero]⟩
  | positive first ne rest =>
    refine ⟨by simp, ?_, by simp [LeadingZero, ne]⟩
    intro d hd
    rcases List.mem_cons.mp hd with rfl | hd
    · exact first
    · exact rest d hd

/-- No digit comes next. -/
def EndsDigits (rest : List Char) : Prop := ∀ c, rest.head? = some c → ¬IsDigit c

theorem takeWhile_digits {w rest : List Char} (hw : ∀ c ∈ w, IsDigit c) (hrest : EndsDigits rest) :
    (w ++ rest).takeWhile Text.isDigit = w ∧ (w ++ rest).dropWhile Text.isDigit = rest := by
  have hall : ∀ c ∈ w, Text.isDigit c = true := fun c hc => isDigit_iff.mpr (hw c hc)
  have hstop : rest.takeWhile Text.isDigit = [] ∧ rest.dropWhile Text.isDigit = rest := by
    cases rest with
    | nil => exact ⟨rfl, rfl⟩
    | cons c rest =>
      have hc : ¬Text.isDigit c = true := fun h => hrest c rfl (isDigit_iff.mp h)
      exact ⟨List.takeWhile_cons_of_neg hc, List.dropWhile_cons_of_neg hc⟩
  rw [List.takeWhile_append_of_pos hall, List.dropWhile_append_of_pos hall, hstop.1, hstop.2]
  exact ⟨List.append_nil w, rfl⟩

/-- The minus sign before a text, if there is one. -/
def minusOf (chars : List Char) : List Char := if chars.head? = some '-' then ['-'] else []

theorem sign_minusOf (chars : List Char) : Sign (minusOf chars) := by
  unfold minusOf
  split
  · exact .minus
  · exact .none

theorem minusOf_append (chars : List Char) : minusOf chars ++ unsigned chars = chars := by
  unfold minusOf unsigned
  split
  · rename_i h
    obtain ⟨rest, rfl⟩ := List.head?_eq_some_iff.mp h
    rfl
  · rfl

/-- The sign and the digits at the start of a text, and what follows them. -/
theorem digits_append (chars : List Char) :
    minusOf chars ++ (unsigned chars).takeWhile Text.isDigit ++
      (unsigned chars).dropWhile Text.isDigit = chars := by
  rw [List.append_assoc, List.takeWhile_append_dropWhile, minusOf_append]

/-- A sign before digits is told from the digits. -/
theorem unsigned_sign {s w : List Char} (hs : Sign s) (hw : Whole w) (rest : List Char) :
    minusOf (s ++ w ++ rest) = s ∧ unsigned (s ++ w ++ rest) = w ++ rest := by
  cases hs with
  | minus => exact ⟨rfl, rfl⟩
  | none =>
    obtain ⟨hne, hdigits, -⟩ := Whole.digits hw
    obtain ⟨c, w, rfl⟩ := List.exists_cons_of_ne_nil hne
    have hc : c ≠ '-' := by
      rintro rfl
      exact absurd (hdigits _ (List.mem_cons_self ..)) (by simp [IsDigit])
    simp [minusOf, unsigned, hc]

/-! ### Indices -/

namespace IntegerText

/-- There is nothing to report in an index. -/
structure InOrder (t : IntegerText) : Prop where
  digits_ne : t.digits ≠ []
  zeros : ¬LeadingZero t.digits
  negative_zero : ¬(t.negative = true ∧ t.digits = ['0'])
  tail_eq : t.tail = []

theorem wholeLength_ofChars (chars : List Char) :
    (ofChars chars).wholeLength =
      (minusOf chars ++ (unsigned chars).takeWhile Text.isDigit).length := by
  by_cases hsign : chars.head? = some '-' <;>
    simp [wholeLength, ofChars, minusOf, hsign, Nat.add_comm]

theorem InOrder.index {chars : List Char} (h : (ofChars chars).InOrder) :
    Index (chars.take (ofChars chars).wholeLength) := by
  have hwhole : Whole ((unsigned chars).takeWhile Text.isDigit) :=
    whole_of_digits (fun _ hx => isDigit_of_mem_takeWhile hx) h.digits_ne h.zeros
  rw [wholeLength_ofChars, ← List.prefix_iff_eq_take.mp ⟨_, digits_append chars⟩]
  unfold minusOf
  split
  · rename_i hsign
    exact .negative hwhole fun hzero => h.negative_zero ⟨by simp [ofChars, hsign], hzero⟩
  · exact .whole hwhole

/-- Nothing comes next that would be part of a number. -/
def Ends (rest : List Char) : Prop :=
  EndsDigits rest ∧ ∀ c, rest.head? = some c → c ≠ '.' ∧ c ≠ 'e' ∧ c ≠ 'E'

theorem tailOf_ends {rest : List Char} (h : Ends rest) : tailOf rest = [] := by
  cases rest with
  | nil => rfl
  | cons c rest =>
    obtain ⟨hpoint, hlower, hupper⟩ := h.2 c rfl
    simp [tailOf, hpoint, hlower, hupper]

theorem inOrder_index {w rest : List Char} (hw : Index w) (hrest : Ends rest) :
    (ofChars (w ++ rest)).InOrder ∧ (ofChars (w ++ rest)).wholeLength = w.length := by
  have hsigned {s v : List Char} (hs : Sign s) (hv : Whole v)
      (hzero : ¬(s = ['-'] ∧ v = ['0'])) :
      (ofChars (s ++ v ++ rest)).InOrder ∧
        (ofChars (s ++ v ++ rest)).wholeLength = (s ++ v).length := by
    obtain ⟨hne, hdigits, hzeros⟩ := Whole.digits hv
    obtain ⟨hminus, hunsigned⟩ := unsigned_sign hs hv rest
    obtain ⟨htake, hdrop⟩ := takeWhile_digits hdigits hrest.1
    have hof : ofChars (s ++ v ++ rest) =
        { negative := (s ++ v ++ rest).head? = some '-', digits := v, tail := [] } := by
      simp only [ofChars, hunsigned, htake, hdrop, tailOf_ends hrest]
    rw [wholeLength_ofChars, hminus, hunsigned, htake, hof]
    refine ⟨⟨hne, hzeros, ?_, rfl⟩, rfl⟩
    rintro ⟨hnegative, hv⟩
    refine hzero ⟨?_, hv⟩
    rw [← hminus, minusOf, if_pos (by simpa using hnegative)]
  cases hw with
  | whole hv => exact hsigned .none hv (by simp)
  | negative hv hne => exact hsigned .minus hv fun h => hne h.2

end IntegerText

/-! ### Number literals -/

namespace NumberText

/-- There is nothing to report in a number literal. -/
structure InOrder (t : NumberText) : Prop where
  digits_ne : t.digits ≠ []
  zeros : ¬LeadingZero t.digits
  fraction_ne : t.fraction ≠ some []
  exponent_ne : ∀ sign, t.exponent ≠ some (sign, [])

theorem wholeLength_ofChars (chars : List Char) :
    (ofChars chars).wholeLength =
      (minusOf chars ++ (unsigned chars).takeWhile Text.isDigit).length := by
  by_cases hsign : chars.head? = some '-' <;>
    simp [wholeLength, ofChars, minusOf, hsign, Nat.add_comm]

/-- The text of a fraction, given its digits. -/
def fractionText : Option (List Char) → List Char
  | some part => '.' :: part
  | none => []

theorem fractionText_length (fraction : Option (List Char)) :
    (fractionText fraction).length = fractionSize fraction := by
  cases fraction with
  | none => rfl
  | some part => simp [fractionText, fractionSize, Nat.add_comm]

theorem fractionText_append (l : List Char) :
    fractionText (fractionOf l) ++ l.drop (fractionSize (fractionOf l)) = l := by
  unfold fractionOf
  split
  · rename_i more
    have h := List.prefix_iff_eq_append.mp (List.takeWhile_prefix (l := more) Text.isDigit)
    simp [fractionText, fractionSize, Nat.add_comm 1, h]
  · rfl

theorem fraction_fractionText {l : List Char} (hne : fractionOf l ≠ some []) :
    Fraction (fractionText (fractionOf l)) := by
  unfold fractionOf at hne ⊢
  split at hne
  · exact .some ⟨by simpa using hne, fun _ hc => isDigit_of_mem_takeWhile hc⟩
  · exact .none

theorem signOf_prefix (l : List Char) : signOf l <+: l ∧ ExponentSign (signOf l) := by
  unfold signOf
  split
  · rename_i h
    obtain ⟨rest, rfl⟩ := List.head?_eq_some_iff.mp h
    exact ⟨by simp, .plus⟩
  · rename_i h
    obtain ⟨rest, rfl⟩ := List.head?_eq_some_iff.mp h
    exact ⟨by simp, .minus⟩
  · exact ⟨List.nil_prefix, .none⟩

/-- The text of an exponent with at least one digit. -/
theorem exponent_prefix {l : List Char} (hne : ∀ sign, exponentOf l ≠ some (sign, [])) :
    ∃ e, e <+: l ∧ e.length = exponentSize (exponentOf l) ∧ Exponent e := by
  unfold exponentOf at hne ⊢
  split
  · rename_i c more
    split
    · rename_i hc
      simp only [if_pos hc] at hne
      obtain ⟨⟨tail, htail⟩, hsign⟩ := signOf_prefix more
      have hdrop : more.drop (signOf more).length = tail := by
        conv => lhs; arg 2; rw [← htail]
        exact List.drop_left
      rw [hdrop] at hne ⊢
      refine ⟨c :: signOf more ++ tail.takeWhile Text.isDigit, ?_, ?_, ?_⟩
      · rw [List.cons_append, List.cons_prefix_cons]
        conv => rhs; rhs; rw [← htail]
        exact ⟨rfl, (List.prefix_append_right_inj _).mpr (List.takeWhile_prefix _)⟩
      · simp only [exponentSize, List.length_append, List.length_cons]
        omega
      · refine .some (by simpa using hc) hsign ⟨?_, fun _ hx => isDigit_of_mem_takeWhile hx⟩
        intro hnil
        exact hne (signOf more) (by rw [hnil])
    · exact ⟨[], List.nil_prefix, rfl, .none⟩
  · exact ⟨[], List.nil_prefix, rfl, .none⟩

theorem InOrder.number {chars : List Char} (h : (ofChars chars).InOrder) :
    Grammar.Number (chars.take (ofChars chars).length) := by
  obtain ⟨e, ⟨tail, htail⟩, hlength, he⟩ := exponent_prefix h.exponent_ne
  have hwhole := whole_of_digits (fun _ hx => isDigit_of_mem_takeWhile hx) h.digits_ne h.zeros
  have hsplit := digits_append chars
  rw [← fractionText_append (List.dropWhile _ _), ← htail, ← List.append_assoc,
    ← List.append_assoc] at hsplit
  have htake : chars.take (ofChars chars).length =
      minusOf chars ++ (unsigned chars).takeWhile Text.isDigit ++
        fractionText (ofChars chars).fraction ++ e := by
    conv => lhs; arg 2; rw [← hsplit]
    refine List.take_left' ?_
    rw [length, fractionLength, wholeLength_ofChars, List.length_append, List.length_append,
      hlength, fractionText_length]
    rfl
  rw [htake]
  exact .mk (sign_minusOf chars) hwhole (fraction_fractionText h.fraction_ne) he

/-- Nothing comes next that would be part of a number. -/
abbrev Ends (rest : List Char) : Prop := IntegerText.Ends rest

/-- An exponent is taken apart into its sign and its digits. -/
theorem exponentOf_some {mark : Char} {s w rest : List Char} (letter : mark = 'e' ∨ mark = 'E')
    (sign : ExponentSign s) (digits : Digits w) (hrest : EndsDigits rest) :
    exponentOf (mark :: s ++ w ++ rest) = some (s, w) := by
  obtain ⟨c, w, rfl⟩ := List.exists_cons_of_ne_nil digits.1
  have hc := digits.2 c (List.mem_cons_self ..)
  have hplus : c ≠ '+' := by rintro rfl; exact absurd hc (by simp [IsDigit])
  have hminus : c ≠ '-' := by rintro rfl; exact absurd hc (by simp [IsDigit])
  have hsign : signOf (s ++ (c :: w ++ rest)) = s := by
    cases sign with
    | none => simp [signOf, hplus, hminus]
    | plus => rfl
    | minus => rfl
  rw [List.cons_append, List.cons_append, List.append_assoc, exponentOf,
    if_pos (by simpa using letter), hsign, List.drop_left, (takeWhile_digits digits.2 hrest).1]

theorem exponentOf_exponent {e rest : List Char} (he : Exponent e) (hrest : Ends rest) :
    exponentSize (exponentOf (e ++ rest)) = e.length ∧
      ∀ sign, exponentOf (e ++ rest) ≠ some (sign, []) := by
  cases he with
  | none =>
    have hnone : exponentOf rest = none := by
      cases rest with
      | nil => rfl
      | cons c rest =>
        obtain ⟨-, hlower, hupper⟩ := hrest.2 c rfl
        simp [exponentOf, hlower, hupper]
    rw [List.nil_append, hnone]
    exact ⟨rfl, by simp⟩
  | @some mark s w letter sign digits =>
    rw [exponentOf_some letter sign digits hrest.1]
    refine ⟨?_, by simpa using digits.1⟩
    simp only [exponentSize, List.length_append, List.length_cons]
    omega

theorem endsDigits_exponent {e rest : List Char} (he : Exponent e) (hrest : EndsDigits rest) :
    EndsDigits (e ++ rest) := by
  cases he with
  | none => exact hrest
  | some letter _ _ =>
    intro c hc
    obtain rfl : _ = c := by simpa using hc
    rcases letter with rfl | rfl <;> simp [IsDigit]

theorem endsDigits_fraction {f rest : List Char} (hf : Fraction f) (hrest : EndsDigits rest) :
    EndsDigits (f ++ rest) := by
  cases hf with
  | none => exact hrest
  | some _ =>
    intro c hc
    obtain rfl : '.' = c := by simpa using hc
    simp [IsDigit]

theorem fractionOf_fraction {f rest : List Char} (hf : Fraction f) (hrest : EndsDigits rest)
    (hpoint : f = [] → rest.head? ≠ some '.') :
    fractionSize (fractionOf (f ++ rest)) = f.length ∧ fractionOf (f ++ rest) ≠ some [] := by
  cases hf with
  | none =>
    have hnone : fractionOf rest = none := by
      unfold fractionOf
      split
      · exact absurd rfl (hpoint rfl)
      · rfl
    rw [List.nil_append, hnone]
    exact ⟨rfl, by simp⟩
  | @some w digits =>
    rw [List.cons_append, fractionOf, (takeWhile_digits digits.2 hrest).1]
    exact ⟨by simp [fractionSize, Nat.add_comm], by simpa using digits.1⟩

theorem inOrder_number {w rest : List Char} (hw : Grammar.Number w) (hrest : Ends rest) :
    (ofChars (w ++ rest)).InOrder ∧ (ofChars (w ++ rest)).length = w.length := by
  obtain ⟨hs, hv, hf, he⟩ := hw
  rename_i s v f e
  obtain ⟨hne, hdigits, hzeros⟩ := Whole.digits hv
  obtain ⟨hminus, hunsigned⟩ := unsigned_sign hs hv (f ++ (e ++ rest))
  have hends := endsDigits_exponent he hrest.1
  obtain ⟨htake, hdrop⟩ := takeWhile_digits hdigits (endsDigits_fraction hf hends)
  have hpoint : f = [] → (e ++ rest).head? ≠ some '.' := by
    intro _ hhead
    cases he with
    | none => exact (hrest.2 '.' hhead).1 rfl
    | some letter _ _ =>
      obtain rfl : _ = '.' := by simpa using hhead
      simp at letter
  obtain ⟨hfraction, hfraction_ne⟩ := fractionOf_fraction hf hends hpoint
  obtain ⟨hexponent, hexponent_ne⟩ := exponentOf_exponent he hrest
  have hafter : (f ++ (e ++ rest)).drop (fractionSize (fractionOf (f ++ (e ++ rest)))) =
      e ++ rest := by rw [hfraction, List.drop_left]
  have hof : ofChars (s ++ v ++ (f ++ (e ++ rest))) =
      { negative := (s ++ v ++ (f ++ (e ++ rest))).head? = some '-'
        digits := v
        fraction := fractionOf (f ++ (e ++ rest))
        exponent := exponentOf (e ++ rest) } := by
    simp only [ofChars, hunsigned, htake, hdrop, hafter]
  have hassoc : s ++ v ++ f ++ e ++ rest = s ++ v ++ (f ++ (e ++ rest)) := by
    simp only [List.append_assoc]
  rw [hassoc, length, fractionLength, wholeLength_ofChars, hminus, hunsigned, htake, hof]
  exact ⟨⟨hne, hzeros, hfraction_ne, hexponent_ne⟩,
    by simp only [hfraction, hexponent, List.length_append]⟩

end NumberText

end Parser

end JsonPath
