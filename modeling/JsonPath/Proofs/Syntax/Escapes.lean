import JsonPath.Proofs.Syntax.Strings
import JsonPath.Syntax.Escape

/-!
Decoding by positions gives what decoding by characters gives. A character of several bytes has
none that could be taken for a digit, a backslash or a letter, so the bytes of an escape are its
characters, and every escape stops between characters.
-/

namespace JsonPath

namespace Text

theorem utf8Size_of_ascii {c : Char} (h : c.toNat < 0x80) : c.utf8Size = 1 := by
  rw [Char.utf8Size, if_pos]
  exact UInt32.le_iff_toNat_le.mpr (Nat.le_of_lt_succ h)

theorem byteLength_eq_length {chars : List Char} (h : ∀ c ∈ chars, c.utf8Size = 1) :
    byteLength chars = chars.length := by
  induction chars with
  | nil => rfl
  | cons c rest ih =>
    rw [List.forall_mem_cons] at h
    rw [byteLength_cons, h.1, ih h.2, List.length_cons, Nat.add_comm]

theorem bytes_append (a b : List Char) : bytes (a ++ b) = bytes a ++ bytes b := List.flatMap_append

theorem bytes_length (chars : List Char) : (bytes chars).length = byteLength chars := by
  induction chars with
  | nil => rfl
  | cons c rest ih =>
    rw [byteLength_cons, ← ih, bytes, List.flatMap_cons, List.length_append,
      String.length_utf8EncodeChar]
    rfl

/-- The bytes after a part of a text are those of what follows it. -/
theorem bytes_drop (a b : List Char) : (bytes (a ++ b)).drop (byteLength a) = bytes b := by
  rw [bytes_append, ← bytes_length, List.drop_left]

theorem bytes_ascii {c : Char} (h : c.toNat < 0x80) (rest : List Char) :
    bytes (c :: rest) = c.toUInt8 :: bytes rest := by
  have hle : c.val.toNat ≤ 127 := Nat.le_of_lt_succ h
  simp only [bytes, List.flatMap_cons, String.utf8EncodeChar, hle, if_true]
  rfl

theorem ofUInt8_ascii {c : Char} (h : c.toNat < 0x80) : Char.ofUInt8 c.toUInt8 = c := by
  apply Char.ext
  apply UInt32.toNat_inj.mp
  change c.val.toUInt8.toUInt32.toNat = c.toNat
  rw [UInt8.toNat_toUInt32, UInt32.toNat_toUInt8]
  exact Nat.mod_eq_of_lt (Nat.lt_trans h (by decide))

theorem bytes_wide {c : Char} (h : 0x80 ≤ c.toNat) (rest : List Char) :
    ∃ byte more, bytes (c :: rest) = byte :: more ∧ 0x80 ≤ (Char.ofUInt8 byte).toNat := by
  have hnot : ¬c.val.toNat ≤ 127 := Nat.not_le.mpr h
  have hbyte {n : Nat} (hn : 0x80 ≤ n) (hlt : n < 256) :
      0x80 ≤ (Char.ofUInt8 (UInt8.ofNat n)).toNat := by
    change 0x80 ≤ (UInt8.ofNat n).toUInt32.toNat
    rwa [UInt8.toNat_toUInt32, UInt8.toNat_ofNat', Nat.mod_eq_of_lt hlt]
  rw [bytes, List.flatMap_cons]
  unfold String.utf8EncodeChar
  dsimp only
  rw [if_neg hnot]
  split
  · exact ⟨_, _, rfl, hbyte (by omega) (by omega)⟩
  split
  · exact ⟨_, _, rfl, hbyte (by omega) (by omega)⟩
  · exact ⟨_, _, rfl, hbyte (by omega) (by omega)⟩

/-- Characters of one byte are found among the bytes as they are among the characters. -/
theorem takeWhile_bytes {test : Char → Bool} (htest : ∀ c, test c = true → c.toNat < 0x80)
    (chars : List Char) :
    ((bytes chars).map Char.ofUInt8).takeWhile test = chars.takeWhile test := by
  induction chars with
  | nil => rfl
  | cons c rest ih =>
    by_cases h : c.toNat < 0x80
    · rw [bytes_ascii h, List.map_cons, ofUInt8_ascii h, List.takeWhile_cons, List.takeWhile_cons,
        ih]
    · obtain ⟨byte, more, hbytes, hbyte⟩ := bytes_wide (Nat.le_of_not_lt h) rest
      have hwide {d : Char} (hd : 0x80 ≤ d.toNat) : ¬test d = true := fun htrue =>
        Nat.not_lt.mpr hd (htest d htrue)
      rw [hbytes, List.map_cons, List.takeWhile_cons_of_neg (hwide hbyte),
        List.takeWhile_cons_of_neg (hwide (Nat.le_of_not_lt h))]

theorem head?_bytes {x : Char} (hx : x.toNat < 0x80) (chars : List Char) :
    (bytes chars).head? = some x.toUInt8 ↔ chars.head? = some x := by
  cases chars with
  | nil => exact Iff.intro (fun h => by cases h) (fun h => by cases h)
  | cons c rest =>
    rw [List.head?_cons, Option.some_inj]
    by_cases h : c.toNat < 0x80
    · rw [bytes_ascii h, List.head?_cons, Option.some_inj]
      constructor
      · intro heq
        rw [← ofUInt8_ascii h, heq, ofUInt8_ascii hx]
      · rintro rfl
        rfl
    · obtain ⟨byte, more, hbytes, hbyte⟩ := bytes_wide (Nat.le_of_not_lt h) rest
      rw [hbytes, List.head?_cons, Option.some_inj]
      constructor
      · rintro rfl
        rw [ofUInt8_ascii hx] at hbyte
        exact absurd hx (Nat.not_lt.mpr hbyte)
      · rintro rfl
        exact absurd hx h

/-- A hexadecimal digit. -/
def isHex (c : Char) : Bool := (hexValue? c).isSome

theorem isHex_lt {c : Char} (h : isHex c = true) : c.toNat < 0x80 := by
  have hval (a b : Char) : a ≤ b ↔ a.toNat ≤ b.toNat := Iff.rfl
  by_cases hlt : c.toNat < 0x80
  · exact hlt
  · exfalso
    unfold isHex hexValue? isDigit at h
    repeat' split at h
    all_goals simp only [Bool.and_eq_true, decide_eq_true_eq, hval, Char.reduceToNat,
      Option.isSome_none, Bool.false_eq_true] at *
    all_goals omega

theorem isHex_of_quad {a b c d : Nat} {v : List Char} (hv : Grammar.Quad a b c d v) :
    ∀ x ∈ v, isHex x = true := by
  obtain ⟨ha, hb, hc, hd⟩ := hv
  simp [isHex, ha, hb, hc, hd]

theorem hexQuad?_takeWhile (chars : List Char) :
    hexQuad? (chars.takeWhile isHex) = hexQuad? chars := by
  refine Option.ext fun n => ⟨fun h => ?_, fun h => ?_⟩
  · obtain ⟨a, b, c, d, v, rest, hv, htake, rfl⟩ := Grammar.quad_of_hexQuad h
    rw [← List.takeWhile_append_dropWhile (p := isHex) (l := chars), htake, List.append_assoc,
      Grammar.hexQuad_of_quad hv]
  · obtain ⟨a, b, c, d, v, rest, hv, rfl, rfl⟩ := Grammar.quad_of_hexQuad h
    rw [List.takeWhile_append_of_pos (isHex_of_quad hv), Grammar.hexQuad_of_quad hv]

end Text

namespace StringLiteral

open Grammar (Quad quad_of_hexQuad)
open Text (bytes bytes_drop)

variable {before more : List Char}

theorem hexDigitsAt?_eq {start : Nat} (hstart : start = Text.byteLength before) :
    hexDigitsAt? (bytes (before ++ more)) start = Text.hexQuad? more := by
  rw [hexDigitsAt?, hstart, bytes_drop, ← Text.hexQuad?_takeWhile,
    Text.takeWhile_bytes fun _ => Text.isHex_lt, Text.hexQuad?_takeWhile]

theorem hexStop_eq {start : Nat} (hstart : start = Text.byteLength before) :
    hexStop (bytes (before ++ more)) start = start + hexRun more := by
  have hle : start ≤ (bytes (before ++ more)).length := by
    rw [Text.bytes_length, Text.byteLength_append, hstart]
    exact Nat.le_add_right _ _
  have hdigits : ((bytes more).map Char.ofUInt8).takeWhile Text.isHex = more.takeWhile Text.isHex :=
    Text.takeWhile_bytes (fun _ => Text.isHex_lt) more
  have hcount : (((bytes more).take 4).takeWhile isHexByte).length = hexRun more := by
    change _ = ((more.take 4).takeWhile Text.isHex).length
    rw [← List.take_takeWhile, ← List.take_takeWhile, ← hdigits, List.takeWhile_map,
      ← List.map_take, List.length_map]
    rfl
  rw [hexStop, Nat.min_eq_left hle, hstart, bytes_drop, hcount]

/-- Digits are of one byte each. -/
theorem byteLength_hex {chars : List Char} (h : ∀ c ∈ chars, Text.isHex c = true) :
    Text.byteLength chars = chars.length :=
  Text.byteLength_eq_length fun c hc => Text.utf8Size_of_ascii (Text.isHex_lt (h c hc))

theorem byteLength_hexRun (more : List Char) :
    Text.byteLength (more.take (hexRun more)) = hexRun more ∧ hexRun more ≤ more.length := by
  have hprefix : (more.take 4).takeWhile Text.isHex <+: more :=
    (List.takeWhile_prefix _).trans (List.take_prefix _ _)
  have htake : more.take (hexRun more) = (more.take 4).takeWhile Text.isHex :=
    (List.prefix_iff_eq_take.mp hprefix).symm
  refine ⟨?_, hprefix.length_le⟩
  rw [htake, byteLength_hex fun c hc => List.all_eq_true.mp List.all_takeWhile c hc]
  rfl

theorem getElem?_bytes {start : Nat} (hstart : start = Text.byteLength before) {x : Char}
    (hx : x.toNat < 0x80) :
    (bytes (before ++ more))[start]? = some x.toUInt8 ↔ more.head? = some x := by
  rw [← List.head?_drop, hstart, bytes_drop, Text.head?_bytes hx]

/-- The marks of another escape come next. -/
theorem marks_iff (more : List Char) {start : Nat} (hstart : start = Text.byteLength before) :
    (bytes (before ++ more))[start]? = some '\\'.toUInt8 ∧
      (bytes (before ++ more))[start + 1]? = some 'u'.toUInt8 ↔
    ∃ rest, more = '\\' :: 'u' :: rest := by
  rw [getElem?_bytes hstart (by decide)]
  constructor
  · rintro ⟨hslash, hu⟩
    obtain ⟨rest, rfl⟩ := List.head?_eq_some_iff.mp hslash
    rw [← List.singleton_append, ← List.append_assoc, getElem?_bytes _ (by decide)] at hu
    · obtain ⟨rest, rfl⟩ := List.head?_eq_some_iff.mp hu
      exact ⟨rest, rfl⟩
    · rw [hstart, Text.byteLength_append]
      rfl
  · rintro ⟨rest, rfl⟩
    refine ⟨rfl, ?_⟩
    rw [← List.singleton_append, ← List.append_assoc, getElem?_bytes _ (by decide)]
    · rfl
    · rw [hstart, Text.byteLength_append]
      rfl

/-- The escape `\u` is read in the bytes as in the characters, which are of one byte each. -/
def ReadsAlike (before more : List Char) : Prop :=
  ∃ count, (unicodeEscape more).length = count + 1 ∧ count ≤ more.length ∧
    Text.byteLength (more.take count) = count ∧
    unicodeEscapeAt (bytes (before ++ '\\' :: 'u' :: more)) (Text.byteLength before) =
      ⟨(unicodeEscape more).char, Text.byteLength before + 2 + count, (unicodeEscape more).fault⟩

theorem append_marks (before more : List Char) :
    before ++ '\\' :: 'u' :: more = (before ++ ['\\', 'u']) ++ more ∧
      Text.byteLength before + 2 = Text.byteLength (before ++ ['\\', 'u']) :=
  ⟨(List.append_assoc before ['\\', 'u'] more).symm,
    (Text.byteLength_append before ['\\', 'u']).symm⟩

theorem byteLength_quad {a b c d : Nat} {v : List Char} (hv : Quad a b c d v) :
    Text.byteLength v = 4 :=
  (byteLength_hex (Text.isHex_of_quad hv)).trans hv.length_eq

/-- Past the first of two escapes. -/
theorem byteLength_second {a b c d : Nat} {v : List Char} (hv : Quad a b c d v) (count : Nat)
    (hle : count ≤ more.length) (hmore : Text.byteLength (more.take count) = count) :
    6 + count ≤ (v ++ '\\' :: 'u' :: more).length ∧
      Text.byteLength ((v ++ '\\' :: 'u' :: more).take (6 + count)) = 6 + count := by
  have hlength := hv.length_eq
  have htake : (v ++ '\\' :: 'u' :: more).take (6 + count) =
      v ++ '\\' :: 'u' :: more.take count := by
    have hsum : 6 + count = v.length + (count + 2) := by omega
    rw [hsum, List.take_length_add_append]
    rfl
  constructor
  · simp only [List.length_append, List.length_cons]
    omega
  · rw [htake, Text.byteLength_append, Text.byteLength_cons, Text.byteLength_cons,
      byteLength_quad hv, hmore]
    change 4 + (1 + (1 + count)) = _
    omega

/-- Two escapes, of which the first is half of a surrogate pair. -/
theorem readsAlike_pair {a b c d high : Nat} {v : List Char} (before more : List Char)
    (hv : Quad a b c d v) (hhigh : Text.hexQuad? (v ++ '\\' :: 'u' :: more) = some high)
    (hnotLow : ¬Text.isLowSurrogate high = true) (hsurrogate : Text.isHighSurrogate high = true) :
    ReadsAlike before (v ++ '\\' :: 'u' :: more) := by
  obtain ⟨hsplit, hstart⟩ := append_marks before (v ++ '\\' :: 'u' :: more)
  have hstop : Text.byteLength before + 2 + 4 = Text.byteLength (before ++ ['\\', 'u'] ++ v) := by
    rw [Text.byteLength_append _ v, byteLength_quad hv, ← hstart]
  obtain ⟨hsplit', hnext⟩ := append_marks (before ++ ['\\', 'u'] ++ v) more
  rw [← hstop] at hnext
  have hmarks := (marks_iff ('\\' :: 'u' :: more) hstop).mpr ⟨more, rfl⟩
  have hdrop : (v ++ '\\' :: 'u' :: more).drop 4 = '\\' :: 'u' :: more := by
    rw [← hv.length_eq, List.drop_left]
  rw [ReadsAlike, hsplit, unicodeEscapeAt, hexDigitsAt?_eq hstart, unicodeEscape, hhigh, hdrop,
    ← List.append_assoc (before ++ ['\\', 'u'])]
  dsimp only
  rw [if_neg hnotLow, if_neg hnotLow, if_pos hsurrogate, if_pos hsurrogate,
    if_pos (by rw [Bool.and_eq_true, decide_eq_true_eq, decide_eq_true_eq]; exact hmarks),
    hsplit', hexDigitsAt?_eq hnext, hexStop_eq hnext]
  generalize hlow : Text.hexQuad? more = low
  simp only [hlow]
  cases low with
  | none =>
    obtain ⟨hbytes, hle⟩ := byteLength_hexRun more
    obtain ⟨hle, hbytes⟩ := byteLength_second hv _ hle hbytes
    refine ⟨6 + hexRun more, ?_, hle, hbytes, ?_⟩
    · exact Nat.add_right_comm 6 1 (hexRun more)
    · rw [← Nat.add_assoc]
  | some low =>
    obtain ⟨a', b', c', d', v', rest', hv', rfl, -⟩ := quad_of_hexQuad hlow
    have hlength := hv'.length_eq
    have hfour : 4 ≤ (v' ++ rest').length := by
      rw [List.length_append]
      omega
    obtain ⟨hle, hbytes⟩ := byteLength_second hv 4 hfour
      (by rw [← hlength, List.take_left, byteLength_quad hv', hlength])
    cases hpair : Text.isLowSurrogate low
    all_goals
      simp only [hpair, Bool.false_eq_true, if_true, if_false]
      exact ⟨10, rfl, hle, hbytes, rfl⟩

theorem readsAlike (before more : List Char) : ReadsAlike before more := by
  obtain ⟨hsplit, hstart⟩ := append_marks before more
  cases hhigh : Text.hexQuad? more with
  | none =>
    obtain ⟨hbytes, hle⟩ := byteLength_hexRun more
    rw [ReadsAlike, hsplit, unicodeEscapeAt, hexDigitsAt?_eq hstart, hexStop_eq hstart,
      unicodeEscape, hhigh]
    exact ⟨hexRun more, Nat.add_comm _ _, hle, hbytes, rfl⟩
  | some high =>
    obtain ⟨a, b, c, d, v, rest, hv, rfl, -⟩ := quad_of_hexQuad hhigh
    have hlength := hv.length_eq
    have hle : 4 ≤ (v ++ rest).length := by
      rw [List.length_append]
      omega
    have hbytes : Text.byteLength ((v ++ rest).take 4) = 4 := by
      rw [← hlength, List.take_left, byteLength_quad hv, hlength]
    have hdrop : (v ++ rest).drop 4 = rest := by rw [← hlength, List.drop_left]
    by_cases hpair : ¬Text.isLowSurrogate high = true ∧ Text.isHighSurrogate high = true ∧
        ∃ more, rest = '\\' :: 'u' :: more
    · obtain ⟨hnotLow, hsurrogate, more, rfl⟩ := hpair
      exact readsAlike_pair before more hv hhigh hnotLow hsurrogate
    have hstop : Text.byteLength before + 2 + 4 = Text.byteLength (before ++ ['\\', 'u'] ++ v) := by
      rw [Text.byteLength_append _ v, byteLength_quad hv, ← hstart]
    have hmarks := marks_iff rest hstop
    rw [ReadsAlike, hsplit, unicodeEscapeAt, hexDigitsAt?_eq hstart, unicodeEscape, hhigh, hdrop,
      ← List.append_assoc (before ++ ['\\', 'u'])]
    dsimp only
    split
    · exact ⟨4, rfl, hle, hbytes, rfl⟩
    rename_i hnotLow
    split
    · rename_i hsurrogate
      have hsecond : ¬∃ more, rest = '\\' :: 'u' :: more :=
        fun h => hpair ⟨hnotLow, hsurrogate, h⟩
      rw [if_neg (by rw [Bool.and_eq_true, decide_eq_true_eq, decide_eq_true_eq]
                     exact mt hmarks.mp hsecond)]
      split
      · exact absurd ⟨_, rfl⟩ hsecond
      · exact ⟨4, rfl, hle, hbytes, rfl⟩
    · exact ⟨4, rfl, hle, hbytes, rfl⟩

theorem escape_eq (quote c : Char) (rest : List Char) :
    escape quote c rest =
      match plainEscape? quote c with
      | some char => ⟨char, 1, none⟩
      | none => if c = 'u' then unicodeEscape rest else ⟨c, 1, some (.unknown c)⟩ := by
  unfold escape plainEscape?
  iterate 8
    split
    · rfl
  rfl

/-- An escape read by positions is the escape read by characters. -/
theorem escapeAt_eq (quote d : Char) (before more : List Char) :
    ∃ count, (escape quote d more).length = count + 1 ∧ count ≤ more.length ∧
      escapeAt quote (bytes (before ++ '\\' :: d :: more)) (Text.byteLength before) d =
        ⟨(escape quote d more).char,
          Text.byteLength before + 1 + d.utf8Size + Text.byteLength (more.take count),
          (escape quote d more).fault⟩ := by
  rw [escape_eq, escapeAt]
  cases plainEscape? quote d with
  | some char => exact ⟨0, rfl, Nat.zero_le _, rfl⟩
  | none =>
    dsimp only
    split
    · rename_i hu
      subst hu
      obtain ⟨count, hlength, hle, hbytes, heq⟩ := readsAlike before more
      refine ⟨count, hlength, hle, ?_⟩
      rw [heq, hbytes]
      rfl
    · exact ⟨0, rfl, Nat.zero_le _, rfl⟩

/-- Passing over the characters before a position. -/
theorem indexed_dropWhile (start : Nat) {stop : Nat} (part rest : List Char)
    (hstop : stop = start + Text.byteLength part) :
    (Text.indexed start (part ++ rest)).dropWhile (fun next => next.1 < stop) =
      Text.indexed stop rest := by
  induction part generalizing start with
  | nil =>
    obtain rfl : stop = start := hstop
    cases rest with
    | nil => rfl
    | cons c rest =>
      rw [List.nil_append, Text.indexed, List.dropWhile_cons_of_neg (by simp)]
  | cons c part ih =>
    have hpos := c.utf8Size_pos
    rw [Text.byteLength_cons] at hstop
    rw [List.cons_append, Text.indexed, List.dropWhile_cons_of_pos (by simp; omega)]
    exact ih _ (by omega)

/-- After an escape of the character `d` and `count` more, decoding goes on behind them. -/
theorem decodeFrom_escape (quote d : Char) {more : List Char} (offset : Nat) {count : Nat}
    (hlength : (escape quote d more).length = count + 1) (hle : count ≤ more.length) :
    decodeFrom quote (escape quote d more).length offset (d :: more) =
      decodeFrom quote 0 (offset + d.utf8Size + Text.byteLength (more.take count))
        (more.drop count) := by
  have hskip := decodeFrom_skip quote (d :: more.take count) (more.drop count) offset
  rwa [List.length_cons, List.length_take, Nat.min_eq_left hle, ← hlength, List.cons_append,
    List.take_append_drop, Text.byteLength_cons, ← Nat.add_assoc] at hskip

/-- Decoding what is left of a body, which is no longer than `bound`. -/
theorem decodeAt_eq (quote : Char) (bound : Nat) (before : List Char) {rest : List Char}
    {offset : Nat}
    (hbound : rest.length ≤ bound) (hoffset : offset = Text.byteLength before) :
    decodeAt quote (bytes (before ++ rest)) (Text.indexed offset rest) =
      decodeFrom quote 0 offset rest := by
  induction bound generalizing before rest offset with
  | zero =>
    obtain rfl : rest = [] := List.eq_nil_of_length_eq_zero (Nat.le_zero.mp hbound)
    rw [Text.indexed, decodeAt, decodeFrom]
  | succ bound ih =>
    cases rest with
    | nil => rw [Text.indexed, decodeAt, decodeFrom]
    | cons c rest =>
      have hrest : rest.length ≤ bound := Nat.le_of_succ_le_succ hbound
      by_cases hslash : c = '\\'
      · subst hslash
        cases rest with
        | nil =>
          rw [Text.indexed, Text.indexed, decodeAt.eq_def, decodeFrom]
          dsimp only
          rw [if_pos rfl, if_pos rfl, Text.bytes_length, Text.byteLength_append, ← hoffset]
          rfl
        | cons d more =>
          obtain ⟨count, hlength, hle, hescape⟩ := escapeAt_eq quote d before more
          have hstop : Text.byteLength before + 1 +
              Text.byteLength ((d :: more).take (escape quote d more).length) =
                Text.byteLength before + 1 + d.utf8Size + Text.byteLength (more.take count) := by
            rw [hlength, List.take_succ_cons, Text.byteLength_cons, Nat.add_assoc _ d.utf8Size]
          have hskip := decodeFrom_escape quote d (Text.byteLength before + 1) hlength hle
          have hdrop := indexed_dropWhile (Text.byteLength before + 1 + d.utf8Size)
            (more.take count) (more.drop count) rfl
          rw [List.take_append_drop] at hdrop
          have hmore : (more.drop count).length ≤ bound :=
            Nat.le_trans (List.drop_suffix _ _).length_le (Nat.le_of_succ_le hrest)
          have hoffset' : Text.byteLength before + 1 + d.utf8Size +
              Text.byteLength (more.take count) =
              Text.byteLength (before ++ '\\' :: d :: more.take count) := by
            simp [Nat.add_assoc]
            rfl
          have hnext := ih _ hmore hoffset'
          rw [List.append_assoc, List.cons_append, List.cons_append, List.take_append_drop] at hnext
          rw [Text.indexed, Text.indexed, decodeAt.eq_def, decodeFrom]
          dsimp only
          rw [if_pos rfl, if_pos rfl, hoffset, hescape, hstop, hskip, ← hnext, ← hdrop]
          rfl
      · have hoffset' : offset + c.utf8Size = Text.byteLength (before ++ [c]) := by simp [hoffset]
        have hnext := ih _ hrest hoffset'
        rw [List.append_assoc, List.singleton_append] at hnext
        rw [Text.indexed, decodeAt.eq_def]
        conv => rhs; unfold decodeFrom
        dsimp only
        rw [if_neg hslash, if_neg hslash, hnext]

/-- Decoding a body by positions decodes it. -/
theorem unescape_eq_decode (quote : Char) (body : List Char) :
    unescape quote body = decode quote body :=
  decodeAt_eq quote body.length [] (Nat.le_refl _) rfl

end StringLiteral

end JsonPath
