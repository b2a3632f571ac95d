import JsonPath.Json.Printer
import JsonPath.Location
import JsonPath.Proofs.Syntax.Numbers
import JsonPath.Proofs.Syntax.Strings

/-!
The texts of numbers and strings. A whole number is printed as an index that has its value, any
number as a number literal, and a string as a literal that decodes to it. Doubles are only shown to
be printed in the right form: whether they have the value of their text is another question.
-/

namespace JsonPath

open Grammar

/-! ### Digits -/

theorem isDigit_toDigits {n : Nat} {c : Char} (h : c ∈ Nat.toDigits 10 n) : IsDigit c := by
  have hc := Nat.isDigit_of_mem_toDigits (by decide) (by decide) h
  simp only [Char.isDigit, Bool.and_eq_true, decide_eq_true_eq] at hc
  exact hc

/-- The digits of a positive number do not begin with zero. -/
theorem head_toDigits {n : Nat} (hn : 0 < n) :
    ∃ c w, Nat.toDigits 10 n = c :: w ∧ c ≠ '0' := by
  induction n using Nat.strongRecOn with
  | ind n ih =>
    rw [Nat.toDigits_eq_if (by decide)]
    by_cases hlt : n < 10
    · rw [if_pos hlt]
      refine ⟨_, [], rfl, fun hzero => ?_⟩
      have := Nat.digitChar_eq_zero.mp hzero
      omega
    · obtain ⟨c, w, hdigits, hc⟩ := ih (n / 10) (by omega) (by omega)
      rw [if_neg hlt, hdigits]
      exact ⟨c, _, rfl, hc⟩

theorem whole_toDigits (n : Nat) : Whole (Nat.toDigits 10 n) := by
  by_cases hn : 0 < n
  · obtain ⟨c, w, hdigits, hc⟩ := head_toDigits hn
    have hall : ∀ d ∈ c :: w, IsDigit d := fun d hd => isDigit_toDigits (hdigits ▸ hd)
    rw [hdigits]
    exact .positive (hall c (by simp)) hc fun d hd => hall d (by simp [hd])
  · obtain rfl : n = 0 := by omega
    exact .zero

theorem decimalValue_toDigits (n : Nat) : Text.decimalValue (Nat.toDigits 10 n) = n := by
  have hfold := @Nat.ofDigitChars_ten_toDigits n
  rw [Nat.ofDigitChars_eq_foldl] at hfold
  rw [Text.decimalValue]
  conv => rhs; rw [← hfold]
  congr 1
  funext value c
  rw [Nat.mul_comm]
  rfl

/-! ### Whole numbers -/

theorem toList_toString_nat (n : Nat) : (toString n).toList = Nat.toDigits 10 n := by
  rw [Nat.toString_eq_ofList_toDigits, String.toList_ofList]

/-- A whole number is printed as its digits, after a sign if it is negative. -/
theorem toList_toString_int (n : Int) :
    (toString n).toList = (if n < 0 then ['-'] else []) ++ Nat.toDigits 10 n.natAbs := by
  cases n with
  | ofNat m =>
    rw [if_neg (by simp)]
    exact toList_toString_nat m
  | negSucc m =>
    have htext : toString (Int.negSucc m) = "-" ++ toString (m + 1) := rfl
    rw [htext, String.toList_append, toList_toString_nat, if_pos (Int.negSucc_lt_zero m)]
    rfl

theorem index_toString (n : Int) : Index (toString n).toList := by
  rw [toList_toString_int]
  by_cases hn : n < 0
  · rw [if_pos hn]
    obtain ⟨c, w, hdigits, hc⟩ := head_toDigits (n := n.natAbs) (by omega)
    refine .negative (whole_toDigits _) ?_
    rw [hdigits]
    simp [hc]
  · rw [if_neg hn]
    exact .whole (whole_toDigits _)

/-- A whole number of 64 bits is read from its text. -/
theorem value_toString {n : Int} (hn : -(2 ^ 63) ≤ n ∧ n ≤ 2 ^ 63 - 1) {rest : List Char}
    (hrest : Parser.EndsDigits rest) :
    (Parser.IntegerText.ofChars ((toString n).toList ++ rest)).value = n := by
  have hsign : Sign (if n < 0 then ['-'] else []) := by
    split
    · exact .minus
    · exact .none
  obtain ⟨hminus, hunsigned⟩ := Parser.unsigned_sign hsign (whole_toDigits n.natAbs) rest
  have hdigits := Parser.takeWhile_digits (fun c hc => isDigit_toDigits (n := n.natAbs) hc) hrest
  rw [toList_toString_int, Parser.IntegerText.value, Parser.IntegerText.ofChars]
  simp only [hunsigned, hdigits.1, decimalValue_toDigits]
  unfold Parser.minusOf at hminus
  by_cases hneg : n < 0
  · rw [if_pos hneg] at hminus ⊢
    rw [if_pos (by simp)]
    omega
  · rw [if_neg hneg] at hminus ⊢
    split at hminus
    · cases hminus
    · rename_i hhead
      rw [if_neg (by simpa using hhead)]
      omega

/-! ### Numbers -/

theorem digits_append {v w : List Char} (hv : ∀ c ∈ v, IsDigit c) (hw : ∀ c ∈ w, IsDigit c) :
    ∀ c ∈ v ++ w, IsDigit c := by
  intro c hc
  exact (List.mem_append.mp hc).elim (hv c) (hw c)

theorem digits_zeros (n : Nat) : ∀ c ∈ List.replicate n '0', IsDigit c := by
  intro c hc
  rw [List.eq_of_mem_replicate hc]
  simp [IsDigit]

/-- The text of a decimal: an unsigned number literal. -/
def IsDecimal (w : List Char) : Prop :=
  ∃ v f e, w = v ++ f ++ e ∧ Whole v ∧ Fraction f ∧ Exponent e

theorem decimal_positional {c : Char} {w : List Char} (hw : ∀ d ∈ c :: w, IsDigit d)
    (hc : c ≠ '0') (whole : Int) :
    IsDecimal (Decimal.positional (String.ofList (c :: w)) whole).toList := by
  have hfirst := hw c (by simp)
  have hrest : ∀ d ∈ w, IsDigit d := fun d hd => hw d (by simp [hd])
  have hlength : (String.ofList (c :: w)).length = w.length + 1 := String.length_ofList
  unfold Decimal.positional
  rw [hlength]
  dsimp only
  split
  · refine ⟨['0'], '.' :: (List.replicate whole.natAbs '0' ++ c :: w), [], by simp, .zero, ?_,
      .none⟩
    exact .some ⟨by simp, digits_append (digits_zeros _) hw⟩
  · split
    · refine ⟨c :: (w ++ List.replicate (whole - (w.length + 1)).natAbs '0'), ['.', '0'], [],
        by simp, ?_, ?_, .none⟩
      · exact .positive hfirst hc (digits_append hrest (digits_zeros _))
      · exact .some ⟨by simp, by simp [IsDigit]⟩
    · obtain ⟨k, hk⟩ : ∃ k, whole.natAbs = k + 1 := ⟨whole.natAbs - 1, by omega⟩
      refine ⟨c :: w.take k, '.' :: w.drop k, [], by simp [hk], ?_, ?_, .none⟩
      · exact .positive hfirst hc fun d hd => hrest d (List.mem_of_mem_take hd)
      · refine .some ⟨?_, fun d hd => hrest d (List.mem_of_mem_drop hd)⟩
        rw [Ne, List.drop_eq_nil_iff]
        omega

theorem decimal_scientific {c : Char} {w : List Char} (hw : ∀ d ∈ c :: w, IsDigit d)
    (hc : c ≠ '0') (leading : Int) :
    IsDecimal (Decimal.scientific (String.ofList (c :: w)) leading).toList := by
  have hfirst := hw c (by simp)
  have hrest : ∀ d ∈ w, IsDigit d := fun d hd => hw d (by simp [hd])
  have hexponent : Exponent
      ('e' :: (if leading < 0 then ['-'] else ['+']) ++ Nat.toDigits 10 leading.natAbs) := by
    refine .some (.inl rfl) ?_ ⟨Nat.toDigits_ne_nil, fun d hd => isDigit_toDigits hd⟩
    split
    · exact .minus
    · exact .plus
  have hwhole : Whole [c] := .positive hfirst hc (by simp)
  have hsign : (if leading < 0 then "-" else "+").toList =
      if leading < 0 then ['-'] else ['+'] := by split <;> rfl
  unfold Decimal.scientific
  by_cases hempty : w = []
  · subst hempty
    refine ⟨[c], [], _, ?_, hwhole, .none, hexponent⟩
    simp [hsign]
  · refine ⟨[c], '.' :: w, _, ?_, hwhole, .some ⟨hempty, hrest⟩, hexponent⟩
    simp [hsign, hempty]

theorem decimal_text (layout : DecimalLayout) (d : Decimal) :
    IsDecimal (d.text layout).toList := by
  unfold Decimal.text
  split
  · exact ⟨['0'], ['.', '0'], [], rfl, .zero, .some ⟨by simp, by simp [IsDigit]⟩, .none⟩
  · rename_i hdigits
    obtain ⟨c, w, heq, hc⟩ := head_toDigits (n := d.digits) (by omega)
    have hw : ∀ x ∈ c :: w, IsDigit x := fun x hx => isDigit_toDigits (heq ▸ hx)
    rw [heq]
    dsimp only
    split
    · exact decimal_positional hw hc _
    · exact decimal_scientific hw hc _

/-- Every number is printed as a number literal. -/
theorem number_text (n : Number) : Grammar.Number n.text.toList := by
  cases n with
  | int value =>
    have hindex := index_toString value
    rw [Number.text]
    generalize (toString value).toList = w at hindex
    cases hindex with
    | whole hw => simpa using Grammar.Number.mk .none hw .none .none
    | negative hw _ => simpa using Grammar.Number.mk .minus hw .none .none
  | double d =>
    obtain ⟨v, f, e, htext, hv, hf, he⟩ := decimal_text .json d.shortest
    have hsign : Sign (if d.negative then ['-'] else []) := by
      split
      · exact .minus
      · exact .none
    rw [Number.text, Double.text, String.toList_append, htext]
    have hlist : (if d.negative then "-" else "").toList = if d.negative then ['-'] else [] := by
      split <;> rfl
    rw [hlist]
    simpa using Grammar.Number.mk hsign hv hf he

/-! ### Strings -/

namespace StringLiteral

/-- Between two quotes, the code stands for the character. -/
structure Encodes (quote : Char) (code : List Char) (c : Char) : Prop where
  quoted : ∀ w, Quoted quote w → Quoted quote (code ++ w)
  decoded : ∀ offset w, ∃ offset', (decodeFrom quote 0 offset (code ++ w)).1 =
    c :: (decodeFrom quote 0 offset' w).1

namespace Encodes

variable {quote c : Char}

theorem plain (hcontrol : 0x20 ≤ c.toNat) (hquote : c ≠ quote) (hslash : c ≠ '\\') :
    Encodes quote [c] c where
  quoted _ hw := .plain hcontrol hquote hslash hw
  decoded offset w :=
    ⟨offset + c.utf8Size, by rw [List.singleton_append, decodeFrom_plain hslash hcontrol]⟩

theorem escape {d : Char} (hd : IsEscapable quote d)
    (hchar : ∀ rest, (StringLiteral.escape quote d rest).char = c) :
    Encodes quote ['\\', d] c where
  quoted _ hw := .escape hd hw
  decoded offset w := ⟨offset + 1 + Text.byteLength [d], by
    rw [List.cons_append, List.singleton_append, decodeFrom_mark hd, hchar]⟩

/-- The escape of a control character by its number. -/
theorem control (hmark : quote = '\'' ∨ quote = '"') (hc : c.toNat < 0x20) :
    Encodes quote (Text.unicodeEscape c).toList c := by
  have hhex : ∀ n, n < 16 → Text.hexValue? (Text.hexDigit n) = some n := by decide
  have hquad : Quad 0 0 (c.toNat / 16) (c.toNat % 16)
      ['0', '0', Text.hexDigit (c.toNat / 16), Text.hexDigit (c.toNat % 16)] :=
    .mk rfl rfl (hhex _ (by omega)) (hhex _ (by omega))
  have htext : (Text.unicodeEscape c).toList = '\\' :: 'u' ::
      ['0', '0', Text.hexDigit (c.toNat / 16), Text.hexDigit (c.toNat % 16)] := by
    simp [Text.unicodeEscape]
  have hvalue : Char.ofNat (((0 * 16 + 0) * 16 + c.toNat / 16) * 16 + c.toNat % 16) = c := by
    rw [show ((0 * 16 + 0) * 16 + c.toNat / 16) * 16 + c.toNat % 16 = c.toNat by omega]
    exact Char.ofNat_toNat c
  rw [htext]
  generalize ['0', '0', Text.hexDigit (c.toNat / 16), Text.hexDigit (c.toNat % 16)] = v at hquad
  refine ⟨fun w hw => .unicode hquad (.inl (by decide)) hw, fun offset w => ?_⟩
  rw [List.cons_append, List.cons_append,
    decodeFrom_clean (escape_quad hmark hquad (.inl (by decide)) w), hvalue]
  exact ⟨_, rfl⟩

end Encodes

/-- Codes of characters, one after the other, stand for these characters. -/
theorem encodes_all {quote : Char} {code : Char → List Char} (hcode : ∀ c, Encodes quote (code c) c)
    (chars : List Char) :
    Quoted quote (chars.flatMap code) ∧
      ∀ offset, (decodeFrom quote 0 offset (chars.flatMap code)).1 = chars := by
  induction chars with
  | nil => exact ⟨.nil, fun _ => rfl⟩
  | cons c rest ih =>
    rw [List.flatMap_cons]
    refine ⟨(hcode c).quoted _ ih.1, fun offset => ?_⟩
    obtain ⟨offset', hdecoded⟩ := (hcode c).decoded offset (rest.flatMap code)
    rw [hdecoded, ih.2]

/-- A character as it is printed between two quotes of either kind. -/
def quoteChar (quote c : Char) : String :=
  if c = quote then String.ofList ['\\', quote]
  else if c = '\\' then "\\\\"
  else if c = '\x08' then "\\b"
  else if c = '\x0c' then "\\f"
  else if c = '\n' then "\\n"
  else if c = '\r' then "\\r"
  else if c = '\t' then "\\t"
  else if c.toNat < 0x20 then Text.unicodeEscape c
  else String.singleton c

theorem quoteChar_single : Step.quoteChar = quoteChar '\'' := rfl

theorem quoteChar_double : Json.quoteChar = quoteChar '"' := rfl

theorem encodes_quoteChar {quote : Char} (hmark : quote = '\'' ∨ quote = '"') (c : Char) :
    Encodes quote (quoteChar quote c).toList c := by
  have hescape {d : Char} (hd : IsEscapable quote d)
      (hchar : ∀ rest, (StringLiteral.escape quote d rest).char = c) :
      Encodes quote (String.ofList ['\\', d]).toList c := by
    rw [String.toList_ofList]
    exact .escape hd hchar
  unfold quoteChar
  by_cases hquote : c = quote
  · rw [if_pos hquote]
    refine hescape (by simp [IsEscapable]) fun rest => ?_
    rw [hquote]
    rcases hmark with rfl | rfl <;> rfl
  rw [if_neg hquote]
  by_cases hslash : c = '\\'
  · rw [if_pos hslash]
    refine hescape (d := '\\') (by simp [IsEscapable]) fun rest => ?_
    rw [hslash]
    rfl
  rw [if_neg hslash]
  by_cases hb : c = '\x08'
  · rw [if_pos hb]
    exact hescape (d := 'b') (by simp [IsEscapable]) fun rest => hb ▸ rfl
  rw [if_neg hb]
  by_cases hf : c = '\x0c'
  · rw [if_pos hf]
    exact hescape (d := 'f') (by simp [IsEscapable]) fun rest => hf ▸ rfl
  rw [if_neg hf]
  by_cases hn : c = '\n'
  · rw [if_pos hn]
    exact hescape (d := 'n') (by simp [IsEscapable]) fun rest => hn ▸ rfl
  rw [if_neg hn]
  by_cases hr : c = '\r'
  · rw [if_pos hr]
    exact hescape (d := 'r') (by simp [IsEscapable]) fun rest => hr ▸ rfl
  rw [if_neg hr]
  by_cases ht : c = '\t'
  · rw [if_pos ht]
    exact hescape (d := 't') (by simp [IsEscapable]) fun rest => ht ▸ rfl
  rw [if_neg ht]
  by_cases hcontrol : c.toNat < 0x20
  · rw [if_pos hcontrol]
    exact .control hmark hcontrol
  · rw [if_neg hcontrol, String.toList_singleton]
    exact .plain (by omega) hquote hslash

/-- Strings are printed as bodies of literals that decode to them. -/
theorem quote_body {quote : Char} (hmark : quote = '\'' ∨ quote = '"') (s : String) :
    Quoted quote (String.join (s.toList.map (quoteChar quote))).toList ∧
      (decode quote (String.join (s.toList.map (quoteChar quote))).toList).1 = s.toList := by
  have hall := encodes_all (encodes_quoteChar hmark) s.toList
  rw [String.toList_join, List.flatMap_map]
  exact ⟨hall.1, hall.2 0⟩

end StringLiteral

/-- A name is printed as a literal between single quotes that decodes to it. -/
theorem Step.quote_literal (name : String) :
    ∃ body, (Step.quote name).toList = '\'' :: body ++ ['\''] ∧ Quoted '\'' body ∧
      (StringLiteral.decode '\'' body).1 = name.toList := by
  refine ⟨_, ?_, StringLiteral.quote_body (.inl rfl) name⟩
  rw [Step.quote, StringLiteral.quoteChar_single, String.toList_append, String.toList_append]
  rfl

/-- A string is printed as a literal between double quotes that decodes to it. -/
theorem Json.quote_literal (s : String) :
    ∃ body, (Json.quote s).toList = '"' :: body ++ ['"'] ∧ Quoted '"' body ∧
      (StringLiteral.decode '"' body).1 = s.toList := by
  refine ⟨_, ?_, StringLiteral.quote_body (.inr rfl) s⟩
  rw [Json.quote, StringLiteral.quoteChar_double, String.toList_append, String.toList_append]
  rfl

end JsonPath
