import JsonPath.Proofs.Syntax.Grammar
import JsonPath.Syntax.StringLiteral

/-!
The contents of string literals that are in order. What the grammar allows between two quotes is
what is taken for the body of a literal and decoded without fault.
-/

namespace JsonPath

namespace Grammar

theorem hexValue_lt {c : Char} {n : Nat} (h : Text.hexValue? c = some n) : n < 16 := by
  have hval (a b : Char) : a ≤ b ↔ a.toNat ≤ b.toNat := Iff.rfl
  unfold Text.hexValue? Text.isDigit at h
  repeat' split at h
  all_goals simp only [Option.some.injEq, reduceCtorEq, Bool.and_eq_true, decide_eq_true_eq, hval,
    Char.reduceToNat] at *
  all_goals omega

theorem hexValue_ne_slash {c : Char} {n : Nat} (h : Text.hexValue? c = some n) : c ≠ '\\' := by
  rintro rfl
  cases h

/-- Four hexadecimal digits at the start of a text. -/
theorem quad_of_hexQuad {l : List Char} {n : Nat} (h : Text.hexQuad? l = some n) :
    ∃ a b c d v rest, Quad a b c d v ∧ l = v ++ rest ∧ n = ((a * 16 + b) * 16 + c) * 16 + d := by
  unfold Text.hexQuad? at h
  split at h
  · rename_i x y z u rest
    simp only [Option.bind_eq_bind, Option.bind_eq_some_iff, Option.some.injEq] at h
    obtain ⟨a, ha, b, hb, c, hc, d, hd, hn⟩ := h
    exact ⟨a, b, c, d, [x, y, z, u], rest, .mk ha hb hc hd, rfl, hn.symm⟩
  · cases h

theorem hexQuad_of_quad {a b c d : Nat} {v : List Char} (h : Quad a b c d v) (rest : List Char) :
    Text.hexQuad? (v ++ rest) = some (((a * 16 + b) * 16 + c) * 16 + d) := by
  obtain ⟨ha, hb, hc, hd⟩ := h
  simp [Text.hexQuad?, ha, hb, hc, hd]

theorem Quad.length_eq {a b c d : Nat} {v : List Char} (h : Quad a b c d v) : v.length = 4 := by
  cases h
  rfl

theorem Quad.bounds {a b c d : Nat} {v : List Char} (h : Quad a b c d v) :
    a < 16 ∧ b < 16 ∧ c < 16 ∧ d < 16 := by
  obtain ⟨ha, hb, hc, hd⟩ := h
  exact ⟨hexValue_lt ha, hexValue_lt hb, hexValue_lt hc, hexValue_lt hd⟩

end Grammar

namespace StringLiteral

open Grammar

/-- Characters of which the quote and the backslash stand only after a backslash. -/
inductive Escaped (quote : Char) : List Char → Prop
  | nil : Escaped quote []
  | last {c : Char} (ne : c ≠ quote) : Escaped quote [c]
  | plain {c : Char} {w : List Char} (ne : c ≠ quote) (backslash : c ≠ '\\')
      (rest : Escaped quote w) : Escaped quote (c :: w)
  | pair {c : Char} {w : List Char} (rest : Escaped quote w) : Escaped quote ('\\' :: c :: w)

theorem body_escaped (quote : Char) (l : List Char) :
    Escaped quote (body quote l).1 := by
  fun_induction body quote l with
  | case1 => exact .nil
  | case2 => exact .nil
  | case3 c hne => exact .last hne
  | case4 => exact .nil
  | case5 d rest chars closed hbody hne ih =>
    rw [hbody] at ih
    exact .pair ih
  | case6 c d rest hne hslash chars closed hbody ih =>
    rw [hbody] at ih
    exact .plain hne hslash ih

theorem Escaped.of_cons {quote c : Char} {w : List Char} (h : Escaped quote (c :: w))
    (hc : c ≠ '\\') : Escaped quote w := by
  cases h with
  | last => exact .nil
  | plain _ _ rest => exact rest
  | pair => exact absurd rfl hc

theorem Escaped.of_slash {quote c : Char} {w : List Char} (h : Escaped quote ('\\' :: c :: w)) :
    Escaped quote w := by
  cases h with
  | plain _ hne _ => exact absurd rfl hne
  | pair rest => exact rest

theorem Escaped.ne {quote c : Char} {w : List Char} (h : Escaped quote (c :: w)) (hc : c ≠ '\\') :
    c ≠ quote := by
  cases h with
  | last hne => exact hne
  | plain hne _ _ => exact hne
  | pair => exact absurd rfl hc

/-- A literal's body ends at the first quote that stands free. -/
theorem body_take (quote : Char) (l : List Char) (hclosed : (body quote l).2 = true) :
    (body quote l).1 ++ [quote] <+: l := by
  fun_induction body quote l with
  | case1 => cases hclosed
  | case2 => simp_all
  | case3 => cases hclosed
  | case4 => simp_all
  | case5 d rest chars closed hbody hne ih =>
    rw [hbody] at ih
    simpa using ih hclosed
  | case6 c d rest hne hslash chars closed hbody ih =>
    rw [hbody] at ih
    simpa using ih hclosed

theorem Escaped.of_quad {quote : Char} {a b c d : Nat} {v w : List Char} (hv : Quad a b c d v)
    (h : Escaped quote (v ++ w)) : Escaped quote w := by
  obtain ⟨ha, hb, hc, hd⟩ := hv
  exact (((h.of_cons (hexValue_ne_slash ha)).of_cons (hexValue_ne_slash hb)).of_cons
    (hexValue_ne_slash hc)).of_cons (hexValue_ne_slash hd)

theorem decodeFrom_skip (quote : Char) (v w : List Char) (offset : Nat) :
    decodeFrom quote v.length offset (v ++ w) =
      decodeFrom quote 0 (offset + Text.byteLength v) w := by
  induction v generalizing offset with
  | nil => rfl
  | cons c v ih =>
    rw [List.length_cons, List.cons_append, decodeFrom, ih, Text.byteLength_cons,
      Nat.add_assoc]

/-- A character that stands for itself. -/
theorem decodeFrom_plain {quote c : Char} (hslash : c ≠ '\\') (hcontrol : 0x20 ≤ c.toNat)
    (offset : Nat) (w : List Char) :
    decodeFrom quote 0 offset (c :: w) =
      (c :: (decodeFrom quote 0 (offset + c.utf8Size) w).1,
        (decodeFrom quote 0 (offset + c.utf8Size) w).2) := by
  conv => lhs; unfold decodeFrom
  simp only [if_neg hslash, if_neg (Nat.not_lt.mpr hcontrol)]

/-- An escape that stands for a character, of which `part` follows the first mark. -/
theorem decodeFrom_clean {quote d x : Char} {part w : List Char}
    (hescape : escape quote d (part ++ w) = ⟨x, part.length + 1, none⟩) (offset : Nat) :
    decodeFrom quote 0 offset ('\\' :: d :: (part ++ w)) =
      (x :: (decodeFrom quote 0 (offset + 1 + Text.byteLength (d :: part)) w).1,
        (decodeFrom quote 0 (offset + 1 + Text.byteLength (d :: part)) w).2) := by
  have hskip := decodeFrom_skip quote (d :: part) w (offset + 1)
  rw [List.length_cons, List.cons_append] at hskip
  rw [decodeFrom, if_pos rfl]
  simp only [hescape, hskip]
  rfl

theorem escape_unicode {quote : Char} (hmark : quote = '\'' ∨ quote = '"') (rest : List Char) :
    escape quote 'u' rest = unicodeEscape rest := by
  rcases hmark with rfl | rfl <;> rfl

/-- An escape of four digits that is half of no surrogate pair. -/
theorem unicodeEscape_quad {a b c d : Nat} {v : List Char} (hv : Quad a b c d v)
    (hsurrogate : a ≠ 0xD ∨ b < 8) (rest : List Char) :
    unicodeEscape (v ++ rest) =
      ⟨Char.ofNat (((a * 16 + b) * 16 + c) * 16 + d), 5, none⟩ := by
  have hbounds := hv.bounds
  have hlow : Text.isLowSurrogate (((a * 16 + b) * 16 + c) * 16 + d) = false := by
    rw [Text.isLowSurrogate, Bool.and_eq_false_iff, decide_eq_false_iff_not,
      decide_eq_false_iff_not]
    omega
  have hhigh : Text.isHighSurrogate (((a * 16 + b) * 16 + c) * 16 + d) = false := by
    rw [Text.isHighSurrogate, Bool.and_eq_false_iff, decide_eq_false_iff_not,
      decide_eq_false_iff_not]
    omega
  simp [unicodeEscape, hexQuad_of_quad hv, hlow, hhigh]

/-- Two escapes that make up a surrogate pair. -/
theorem unicodeEscape_pair {b c d b' c' d' : Nat} {v v' : List Char} (hv : Quad 0xD b c d v)
    (hge : 8 ≤ b) (hlt : b < 0xC) (hv' : Quad 0xD b' c' d' v') (hge' : 0xC ≤ b')
    (rest : List Char) :
    unicodeEscape (v ++ ('\\' :: 'u' :: (v' ++ rest))) =
      ⟨Text.surrogatePair (((0xD * 16 + b) * 16 + c) * 16 + d)
        (((0xD * 16 + b') * 16 + c') * 16 + d'), 11, none⟩ := by
  have hbounds := hv.bounds
  have hbounds' := hv'.bounds
  have hnotLow : Text.isLowSurrogate (((0xD * 16 + b) * 16 + c) * 16 + d) = false := by
    rw [Text.isLowSurrogate, Bool.and_eq_false_iff, decide_eq_false_iff_not,
      decide_eq_false_iff_not]
    omega
  have hhigh : Text.isHighSurrogate (((0xD * 16 + b) * 16 + c) * 16 + d) = true := by
    rw [Text.isHighSurrogate, Bool.and_eq_true, decide_eq_true_eq, decide_eq_true_eq]
    omega
  have hlow : Text.isLowSurrogate (((0xD * 16 + b') * 16 + c') * 16 + d') = true := by
    rw [Text.isLowSurrogate, Bool.and_eq_true, decide_eq_true_eq, decide_eq_true_eq]
    omega
  have hdrop : (v ++ ('\\' :: 'u' :: (v' ++ rest))).drop 4 = '\\' :: 'u' :: (v' ++ rest) := by
    rw [← hv.length_eq, List.drop_left]
  simp only [unicodeEscape, hexQuad_of_quad hv, hnotLow, hhigh, hdrop,
    hexQuad_of_quad hv', hlow]
  rfl

theorem escape_quad {quote : Char} (hmark : quote = '\'' ∨ quote = '"') {a b c d : Nat}
    {v : List Char} (hv : Quad a b c d v) (hsurrogate : a ≠ 0xD ∨ b < 8) (rest : List Char) :
    escape quote 'u' (v ++ rest) =
      ⟨Char.ofNat (((a * 16 + b) * 16 + c) * 16 + d), v.length + 1, none⟩ := by
  rw [escape_unicode hmark, unicodeEscape_quad hv hsurrogate, hv.length_eq]

theorem escape_pair {quote : Char} (hmark : quote = '\'' ∨ quote = '"') {b c d b' c' d' : Nat}
    {v v' : List Char} (hv : Quad 0xD b c d v) (hge : 8 ≤ b) (hlt : b < 0xC)
    (hv' : Quad 0xD b' c' d' v') (hge' : 0xC ≤ b') (rest : List Char) :
    escape quote 'u' (v ++ '\\' :: 'u' :: v' ++ rest) =
      ⟨Text.surrogatePair (((0xD * 16 + b) * 16 + c) * 16 + d)
        (((0xD * 16 + b') * 16 + c') * 16 + d'), (v ++ '\\' :: 'u' :: v').length + 1, none⟩ := by
  have hlength : (v ++ '\\' :: 'u' :: v').length = 10 := by
    rw [List.length_append, List.length_cons, List.length_cons, hv.length_eq, hv'.length_eq]
  rw [hlength, List.append_assoc, List.cons_append, List.cons_append, escape_unicode hmark,
    unicodeEscape_pair hv hge hlt hv' hge']

/-- What follows an escape `\u` that stands for a character. -/
theorem unicodeEscape_clean {l : List Char} (h : (unicodeEscape l).fault = none) :
    (∃ a b c d v rest, l = v ++ rest ∧ Quad a b c d v ∧ (a ≠ 0xD ∨ b < 8)) ∨
    ∃ b c d b' c' d' v v' rest, l = v ++ ('\\' :: 'u' :: (v' ++ rest)) ∧ Quad 0xD b c d v ∧
      8 ≤ b ∧ b < 0xC ∧ Quad 0xD b' c' d' v' ∧ 0xC ≤ b' := by
  unfold unicodeEscape at h
  split at h
  · cases h
  · rename_i high hhigh
    obtain ⟨a, b, c, d, v, rest, hv, rfl, hvalue⟩ := quad_of_hexQuad hhigh
    have hbounds := Quad.bounds hv
    split at h
    · cases h
    · rename_i hlow
      simp only [Text.isLowSurrogate, Bool.and_eq_true, decide_eq_true_eq] at hlow
      split at h
      · rename_i hsurrogate
        simp only [Text.isHighSurrogate, Bool.and_eq_true, decide_eq_true_eq] at hsurrogate
        obtain rfl : a = 0xD := by omega
        rw [← hv.length_eq, List.drop_left] at h
        split at h
        · rename_i more
          split at h
          · cases h
          · rename_i low hsecond
            obtain ⟨a', b', c', d', v', rest', hv', rfl, hvalue'⟩ := quad_of_hexQuad hsecond
            have hbounds' := Quad.bounds hv'
            split at h
            · rename_i hlow'
              simp only [Text.isLowSurrogate, Bool.and_eq_true, decide_eq_true_eq] at hlow'
              obtain rfl : a' = 0xD := by omega
              exact .inr ⟨b, c, d, b', c', d', v, v', rest', rfl, hv, by omega, by omega, hv',
                by omega⟩
            · cases h
        · cases h
      · rename_i hsurrogate
        simp only [Text.isHighSurrogate, Bool.and_eq_true, decide_eq_true_eq] at hsurrogate
        exact .inl ⟨a, b, c, d, v, rest, rfl, hv, by omega⟩

/-- What a backslash may be followed by. -/
theorem escape_clean {quote c : Char} {rest : List Char}
    (h : (escape quote c rest).fault = none) :
    (IsEscapable quote c ∧ (escape quote c rest).length = 1) ∨
    (c = 'u' ∧ escape quote c rest = unicodeEscape rest) := by
  unfold IsEscapable
  unfold escape at h ⊢
  repeat' split at h
  all_goals simp_all

/-- A body in which nothing is wrong. -/
theorem quoted_of_decodeFrom {quote : Char} (n : Nat) {w : List Char} (hn : w.length ≤ n)
    {offset : Nat} (hw : Escaped quote w) (hclean : (decodeFrom quote 0 offset w).2 = []) :
    Quoted quote w := by
  induction n generalizing w offset with
  | zero =>
    obtain rfl := List.length_eq_zero_iff.mp (Nat.le_zero.mp hn)
    exact .nil
  | succ n ih =>
    cases w with
    | nil => exact .nil
    | cons c rest =>
      by_cases hc : c = '\\'
      · subst hc
        cases rest with
        | nil => cases hclean
        | cons d more =>
          rw [decodeFrom, if_pos rfl] at hclean
          dsimp only at hclean
          rw [List.append_eq_nil_iff, Option.toList_eq_nil_iff, Option.map_eq_none_iff] at hclean
          obtain ⟨hfault, hrest⟩ := hclean
          rw [List.length_cons, List.length_cons] at hn
          rcases escape_clean hfault with ⟨hd, hlength⟩ | ⟨rfl, hunicode⟩
          · rw [hlength, decodeFrom] at hrest
            exact .escape hd (ih (by omega) hw.of_slash hrest)
          · rw [hunicode] at hfault hrest
            rcases unicodeEscape_clean hfault with
              ⟨a, b, c, d, v, tail, rfl, hv, hsurrogate⟩ |
              ⟨b, c, d, b', c', d', v, v', tail, rfl, hv, hge, hlt, hv', hge'⟩
            · have hskip := decodeFrom_skip quote ('u' :: v) tail (offset + 1)
              rw [List.length_cons, hv.length_eq] at hskip
              rw [unicodeEscape_quad hv hsurrogate, ← List.cons_append, hskip] at hrest
              refine .unicode hv hsurrogate (ih ?_ (hw.of_slash.of_quad hv) hrest)
              rw [List.length_append] at hn
              omega
            · have hskip := decodeFrom_skip quote ('u' :: v ++ '\\' :: 'u' :: v') tail (offset + 1)
              simp only [List.length_append, List.length_cons, hv.length_eq, hv'.length_eq,
                List.append_assoc, List.cons_append] at hskip
              rw [unicodeEscape_pair hv hge hlt hv' hge', hskip] at hrest
              have htail : Escaped quote tail :=
                (Escaped.of_slash (hw.of_slash.of_quad hv)).of_quad hv'
              have hrest := ih (by simp at hn; omega) htail hrest
              simpa using Quoted.pair hv hge hlt hv' hge' hrest
      · unfold decodeFrom at hclean
        simp only [if_neg hc] at hclean
        split at hclean
        · cases hclean
        · rename_i hcontrol
          refine .plain (by omega) (hw.ne hc) hc (ih ?_ (hw.of_cons hc) hclean)
          exact Nat.le_of_succ_le_succ hn

theorem body_quote (quote : Char) (rest : List Char) : body quote (quote :: rest) = ([], true) := by
  cases rest <;> simp [body]

theorem body_plain {quote c : Char} (hne : c ≠ quote) (hslash : c ≠ '\\') (rest : List Char) :
    body quote (c :: rest) = (c :: (body quote rest).1, (body quote rest).2) := by
  cases rest <;> simp [body, hne, hslash]

theorem body_slash {quote : Char} (hquote : '\\' ≠ quote) (c : Char) (rest : List Char) :
    body quote ('\\' :: c :: rest) = ('\\' :: c :: (body quote rest).1, (body quote rest).2) := by
  simp [body, hquote]

theorem body_quad {quote : Char} (hquote : Text.hexValue? quote = none) {a b c d : Nat}
    {v : List Char} (hv : Quad a b c d v) (rest : List Char) :
    body quote (v ++ rest) = (v ++ (body quote rest).1, (body quote rest).2) := by
  have hne {x : Char} {n : Nat} (hx : Text.hexValue? x = some n) : x ≠ quote := by
    rintro rfl
    rw [hquote] at hx
    cases hx
  obtain ⟨ha, hb, hc, hd⟩ := hv
  simp only [List.cons_append, List.nil_append, body_plain (hne ha) (hexValue_ne_slash ha),
    body_plain (hne hb) (hexValue_ne_slash hb), body_plain (hne hc) (hexValue_ne_slash hc),
    body_plain (hne hd) (hexValue_ne_slash hd)]

/-- What may stand between quotes is the body of its literal. -/
theorem body_quoted {quote : Char} (hmark : quote = '\'' ∨ quote = '"') {w : List Char}
    (hw : Quoted quote w) (rest : List Char) : body quote (w ++ quote :: rest) = (w, true) := by
  have hslash : '\\' ≠ quote := by rcases hmark with rfl | rfl <;> decide
  have hhex : Text.hexValue? quote = none := by rcases hmark with rfl | rfl <;> rfl
  induction hw with
  | nil => exact body_quote quote rest
  | plain _ hne hbackslash _ ih => rw [List.cons_append, body_plain hne hbackslash, ih]
  | escape _ _ ih => rw [List.cons_append, List.cons_append, body_slash hslash, ih]
  | unicode hv _ _ ih =>
    simp only [List.cons_append, List.append_assoc]
    rw [body_slash hslash, body_quad hhex hv, ih]
  | pair hv _ _ hv' _ _ ih =>
    simp only [List.cons_append, List.append_assoc]
    rw [body_slash hslash, body_quad hhex hv, body_slash hslash, body_quad hhex hv', ih]

theorem escape_of_escapable {quote c : Char} (h : IsEscapable quote c) (rest : List Char) :
    escape quote c rest = ⟨(escape quote c rest).char, 1, none⟩ := by
  unfold escape
  rcases h with rfl | rfl | rfl | rfl | rfl | rfl | rfl | rfl
  all_goals first | rfl | (repeat' split) <;> simp_all

/-- An escape of one mark. -/
theorem decodeFrom_mark {quote c : Char} (h : IsEscapable quote c) (offset : Nat)
    (w : List Char) :
    decodeFrom quote 0 offset ('\\' :: c :: w) =
      ((escape quote c w).char :: (decodeFrom quote 0 (offset + 1 + Text.byteLength [c]) w).1,
        (decodeFrom quote 0 (offset + 1 + Text.byteLength [c]) w).2) :=
  @decodeFrom_clean quote c _ [] w (escape_of_escapable h w) offset

/-- Nothing is wrong with what may stand between quotes. -/
theorem decodeFrom_quoted {quote : Char} (hmark : quote = '\'' ∨ quote = '"') {w : List Char}
    (hw : Quoted quote w) (offset : Nat) : (decodeFrom quote 0 offset w).2 = [] := by
  induction hw generalizing offset with
  | nil => rfl
  | plain hcontrol _ hbackslash _ ih => rw [decodeFrom_plain hbackslash hcontrol, ih]
  | escape hescapable _ ih => rw [decodeFrom_mark hescapable, ih]
  | @unicode _ _ _ _ v w hv hsurrogate _ ih =>
    rw [List.cons_append, List.cons_append, decodeFrom_clean (escape_quad hmark hv hsurrogate w),
      ih]
  | @pair _ _ _ _ _ _ v v' w hv hge hlt hv' hge' _ ih =>
    have hclean := decodeFrom_clean (escape_pair hmark hv hge hlt hv' hge' w) offset
    simp only [List.cons_append, List.append_assoc] at hclean ⊢
    rw [hclean, ih]

end StringLiteral

end JsonPath
