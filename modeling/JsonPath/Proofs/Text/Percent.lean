import JsonPath.Proofs.Text.Utf8

/-!
Percent-encoded texts. Decoding goes over the bytes of a text from the left, puts a byte in the
place of each escape, keeps the other bytes and reads all as UTF-8. So it gives back every text from
its encoding, whatever characters are encoded and in whichever case the digits are written. For an
escape it also takes a `%` with a plus sign and one digit after it, which no encoding writes.
-/

namespace JsonPath.Text

variable {bytes out : List Nat}

/-! ### Escapes -/

/-- The byte of a hexadecimal digit in either case, and the value of the digit. -/
inductive HexDigit : (byte value : Nat) → Prop
  | decimal {n : Nat} (lt : n < 10) : HexDigit (0x30 + n) n
  | upper {n : Nat} (lt : n < 6) : HexDigit (0x41 + n) (10 + n)
  | lower {n : Nat} (lt : n < 6) : HexDigit (0x61 + n) (10 + n)

/-- The bytes of two hexadecimal digits, and the number that they denote. -/
inductive HexPair : (first second value : Nat) → Prop
  | mk {a b m n : Nat} (high : HexDigit a m) (low : HexDigit b n) : HexPair a b (m * 16 + n)

/-- What decoding takes for the rest of an escape. -/
inductive TakenPair : (first second value : Nat) → Prop
  | digits {a b v : Nat} (pair : HexPair a b v) : TakenPair a b v
  | sign {b v : Nat} (low : HexDigit b v) : TakenPair 0x2B b v

/-- The bytes with every escape replaced by the byte that it denotes, going from the left: each `%`
is the start of an escape if the two bytes after it are a pair. -/
inductive Unescaped (pair : Nat → Nat → Nat → Prop) : (bytes out : List Nat) → Prop
  | nil : Unescaped pair [] []
  | escape {a b v : Nat} {rest out : List Nat} (taken : pair a b v)
      (tail : Unescaped pair rest out) : Unescaped pair (0x25 :: a :: b :: rest) (v :: out)
  | kept {x : Nat} {rest out : List Nat}
      (plain : x = 0x25 → ∀ a b more v, rest = a :: b :: more → ¬ pair a b v)
      (tail : Unescaped pair rest out) : Unescaped pair (x :: rest) (x :: out)

/-! ### Digits -/

theorem hexValue_eq_some_iff {c : Char} {n : Nat} : hexValue? c = some n ↔ HexDigit c.toNat n := by
  have hle (a b : Char) : a ≤ b ↔ a.toNat ≤ b.toNat := Iff.rfl
  unfold hexValue? isDigit
  simp only [Bool.and_eq_true, decide_eq_true_eq, hle, Char.reduceToNat]
  generalize c.toNat = b
  constructor
  · intro h
    split at h
    · obtain ⟨m, rfl⟩ : ∃ m, b = 0x30 + m := Nat.exists_eq_add_of_le (by omega)
      obtain rfl : m = n := by simpa using h
      exact .decimal (by omega)
    split at h
    · obtain ⟨m, rfl⟩ : ∃ m, b = 0x61 + m := Nat.exists_eq_add_of_le (by omega)
      obtain rfl : 10 + m = n := by have := Option.some_inj.mp h; omega
      exact .lower (by omega)
    split at h
    · obtain ⟨m, rfl⟩ : ∃ m, b = 0x41 + m := Nat.exists_eq_add_of_le (by omega)
      obtain rfl : 10 + m = n := by have := Option.some_inj.mp h; omega
      exact .upper (by omega)
    · cases h
  · intro h
    cases h with
    | decimal lt => rw [if_pos (by omega), Nat.add_sub_cancel_left]
    | upper lt =>
      rw [if_neg (by omega), if_neg (by omega), if_pos (by omega)]
      exact congrArg some (by omega)
    | lower lt =>
      rw [if_neg (by omega), if_pos (by omega)]
      exact congrArg some (by omega)

theorem HexDigit.lt {b n : Nat} (h : HexDigit b n) : b < 0x80 := by
  cases h <;> omega

theorem HexDigit.ne_plus {b n : Nat} (h : HexDigit b n) : b ≠ '+'.toNat := by
  have hplus : '+'.toNat = 0x2B := rfl
  cases h <;> omega

theorem hexValue_ofNat_eq_some_iff {b n : Nat} :
    hexValue? (Char.ofNat b) = some n ↔ HexDigit b n := by
  by_cases hvalid : b.isValidChar
  · have hnumber : (Char.ofNat b).toNat = b := by
      rw [Char.ofNat, dif_pos hvalid]
      rfl
    rw [hexValue_eq_some_iff, hnumber]
  · have hzero : Char.ofNat b = '\x00' := dif_neg hvalid
    rw [hzero]
    constructor
    · intro h
      cases h
    · intro h
      exact absurd (.inl (Nat.lt_trans h.lt (by decide))) hvalid

/-- A pair is taken just when its value is found. -/
theorem percentValue_eq_some_iff {a b v : Nat} : percentValue? a b = some v ↔ TakenPair a b v := by
  simp only [percentValue?, Option.bind_eq_bind, Option.bind_eq_some_iff,
    hexValue_ofNat_eq_some_iff]
  constructor
  · rintro ⟨n, hlow, h⟩
    split at h
    · rename_i hplus
      subst hplus
      obtain rfl := Option.some_inj.mp h
      exact .sign hlow
    · simp only [Option.bind_eq_some_iff, hexValue_ofNat_eq_some_iff, Option.some_inj] at h
      obtain ⟨m, hhigh, rfl⟩ := h
      exact .digits (.mk hhigh hlow)
  · rintro (⟨hhigh, hlow⟩ | hlow)
    · refine ⟨_, hlow, ?_⟩
      rw [if_neg hhigh.ne_plus]
      simp only [Option.bind_eq_some_iff, hexValue_ofNat_eq_some_iff]
      exact ⟨_, hhigh, rfl⟩
    · exact ⟨_, hlow, if_pos rfl⟩

/-! ### Decoding bytes -/

theorem percentDecodeBytes_escape {a b v : Nat} (h : TakenPair a b v) (rest : List Nat) :
    percentDecodeBytes (0x25 :: a :: b :: rest) = v :: percentDecodeBytes rest := by
  rw [percentDecodeBytes, percentValue_eq_some_iff.mpr h]

theorem percentDecodeBytes_kept {x : Nat} {rest : List Nat}
    (h : x = 0x25 → ∀ a b more v, rest = a :: b :: more → ¬ TakenPair a b v) :
    percentDecodeBytes (x :: rest) = x :: percentDecodeBytes rest := by
  by_cases hx : x = 0x25
  · subst hx
    match rest, h with
    | [], _ | [_], _ => rfl
    | a :: b :: more, h =>
      cases hvalue : percentValue? a b with
      | some v => exact absurd (percentValue_eq_some_iff.mp hvalue) (h rfl a b more v rfl)
      | none => rw [percentDecodeBytes, hvalue]
  · rw [percentDecodeBytes]
    rintro _ _ _ rfl
    exact absurd rfl hx

theorem unescaped_percentDecodeBytes (bytes : List Nat) :
    Unescaped TakenPair bytes (percentDecodeBytes bytes) := by
  induction bytes using percentDecodeBytes.induct with
  | case1 a b rest v hvalue ih =>
    have htaken := percentValue_eq_some_iff.mp hvalue
    rw [percentDecodeBytes_escape htaken]
    exact .escape htaken ih
  | case2 a b rest hvalue ih =>
    have hplain : 0x25 = 0x25 → ∀ x y more v, a :: b :: rest = x :: y :: more →
        ¬ TakenPair x y v := by
      rintro - _ _ _ v ⟨⟩ htaken
      rw [percentValue_eq_some_iff.mpr htaken] at hvalue
      cases hvalue
    rw [percentDecodeBytes_kept hplain]
    exact .kept hplain ih
  | case3 b rest hshape ih =>
    have hplain : b = 0x25 → ∀ x y more v, rest = x :: y :: more → ¬ TakenPair x y v :=
      fun hb x y more _ hrest => absurd hrest (hshape x y more hb)
    rw [percentDecodeBytes_kept hplain]
    exact .kept hplain ih
  | case4 => exact .nil

theorem percentDecodeBytes_eq_iff :
    percentDecodeBytes bytes = out ↔ Unescaped TakenPair bytes out := by
  constructor
  · rintro rfl
    exact unescaped_percentDecodeBytes bytes
  · intro h
    induction h with
    | nil => rfl
    | escape taken _ ih => rw [percentDecodeBytes_escape taken, ih]
    | kept plain _ ih => rw [percentDecodeBytes_kept plain, ih]

/-- What counts as a pair matters only for the bytes after a `%`. -/
theorem Unescaped.congr {pair pair' : Nat → Nat → Nat → Prop} (h : Unescaped pair bytes out)
    (hpair : ∀ a b v, [0x25, a, b] <:+: bytes → (pair a b v ↔ pair' a b v)) :
    Unescaped pair' bytes out := by
  induction h with
  | nil => exact .nil
  | @escape a b v rest out taken tail ih =>
    refine .escape ((hpair a b v ⟨[], rest, rfl⟩).mp taken) (ih fun x y z hxy => hpair x y z ?_)
    exact hxy.trans ⟨[0x25, a, b], [], by simp⟩
  | @kept x rest out plain tail ih =>
    refine .kept ?_ (ih fun a b v hab => hpair a b v (hab.trans ⟨[x], [], by simp⟩))
    rintro rfl a b more v rfl htaken
    exact plain rfl a b more v rfl ((hpair a b v ⟨[], more, rfl⟩).mpr htaken)

/-- Without a plus sign and a digit after a `%`, the escapes are those of two digits. -/
theorem unescaped_hexPair_iff (h : ∀ b n, HexDigit b n → ¬ [0x25, 0x2B, b] <:+: bytes) :
    Unescaped TakenPair bytes out ↔ Unescaped HexPair bytes out := by
  have hpair (a b v : Nat) (hab : [0x25, a, b] <:+: bytes) : TakenPair a b v ↔ HexPair a b v := by
    constructor
    · rintro (hdigits | hlow)
      · exact hdigits
      · exact absurd hab (h b v hlow)
    · exact .digits
  constructor
  · exact fun hout => hout.congr hpair
  · exact fun hout => hout.congr fun a b v hab => (hpair a b v hab).symm

/-! ### Encoded texts -/

/-- Bytes, and escapes that denote them. -/
inductive ByteEscapes : (bytes : List Nat) → (text : List Char) → Prop
  | nil : ByteEscapes [] []
  | cons {a b : Char} {m n : Nat} {bytes : List Nat} {text : List Char}
      (high : HexDigit a.toNat m) (low : HexDigit b.toNat n) (rest : ByteEscapes bytes text) :
      ByteEscapes ((m * 16 + n) :: bytes) ('%' :: a :: b :: text)

/-- A text, and the text percent-encoded: some characters are left as they are, of the others every
byte is written as an escape. A `%` is never left. -/
inductive PercentEncoded : (text encoded : List Char) → Prop
  | nil : PercentEncoded [] []
  | kept {c : Char} {s t : List Char} (ne : c ≠ '%') (rest : PercentEncoded s t) :
      PercentEncoded (c :: s) (c :: t)
  | escaped {c : Char} {s t u : List Char} (escapes : ByteEscapes (utf8 [c]) u)
      (rest : PercentEncoded s t) : PercentEncoded (c :: s) (u ++ t)

theorem ne_percent_of_mem_utf8 {c : Char} (hc : c ≠ '%') {b : Nat} (hb : b ∈ utf8 [c]) :
    b ≠ 0x25 := by
  rintro rfl
  rcases utf8_cases c with ⟨-, hbytes⟩ | ⟨hsize, hbytes⟩ | ⟨hsize, hbytes⟩ | ⟨hsize, hbytes⟩ <;>
    rw [hbytes] at hb
  · exact hc (Char.ext (UInt32.toNat_inj.mp (List.mem_singleton.mp hb).symm))
  all_goals
    simp only [List.mem_cons, List.not_mem_nil, or_false] at hb
    omega

theorem percentDecodeBytes_append_of_ne (h : ∀ b ∈ bytes, b ≠ 0x25) (rest : List Nat) :
    percentDecodeBytes (bytes ++ rest) = bytes ++ percentDecodeBytes rest := by
  induction bytes with
  | nil => rfl
  | cons b bytes ih =>
    rw [List.forall_mem_cons] at h
    rw [List.cons_append, percentDecodeBytes_kept fun hb => absurd hb h.1, ih h.2, List.cons_append]

theorem ByteEscapes.percentDecodeBytes {text : List Char} (h : ByteEscapes bytes text)
    (rest : List Nat) :
    percentDecodeBytes (utf8 text ++ rest) = bytes ++ percentDecodeBytes rest := by
  induction h with
  | nil => rfl
  | cons high low _ ih =>
    rw [utf8_cons, utf8_one (by decide), utf8_cons, utf8_one high.lt, utf8_cons, utf8_one low.lt]
    simp only [List.cons_append, List.nil_append]
    rw [← ih]
    exact percentDecodeBytes_escape (.digits (.mk high low)) _

/-- Decoding an encoded text gives its bytes. -/
theorem PercentEncoded.percentDecodeBytes {s t : List Char} (h : PercentEncoded s t) :
    percentDecodeBytes (utf8 t) = utf8 s := by
  induction h with
  | nil => rfl
  | @kept c s t ne _ ih =>
    rw [utf8_cons c t, percentDecodeBytes_append_of_ne fun b => ne_percent_of_mem_utf8 ne, ih,
      ← utf8_cons]
  | @escaped c s t u escapes _ ih =>
    rw [utf8_append, escapes.percentDecodeBytes, ih, ← utf8_cons]

theorem PercentEncoded.percentDecode {s t : List Char} (h : PercentEncoded s t) :
    percentDecode t = s := by
  rw [Text.percentDecode, h.percentDecodeBytes, ofUtf8_utf8]

theorem lt_of_mem_utf8 {c : Char} {b : Nat} (hb : b ∈ utf8 [c]) : b < 0x100 := by
  simp only [utf8, List.flatMap_cons, List.flatMap_nil, List.append_nil, List.mem_map] at hb
  obtain ⟨x, -, rfl⟩ := hb
  exact x.toNat_lt

theorem byteEscapes_percentByte (h : ∀ b ∈ bytes, b < 0x100) :
    ByteEscapes bytes (bytes.flatMap percentByte) := by
  have hdigit : ∀ n < 16, hexValue? (hexDigit n).toUpper = some n := by decide
  induction bytes with
  | nil => exact .nil
  | cons b bytes ih =>
    rw [List.forall_mem_cons] at h
    have hescape := ByteEscapes.cons (hexValue_eq_some_iff.mp (hdigit (b / 16) (by omega)))
      (hexValue_eq_some_iff.mp (hdigit (b % 16) (by omega))) (ih h.2)
    rw [Nat.div_add_mod' b 16] at hescape
    exact hescape

/-- Encoding a set of characters that `%` is in. -/
theorem percentEncoded_percentEncode {encoded : Char → Bool} (h : encoded '%' = true)
    (s : List Char) : PercentEncoded s (percentEncode encoded s) := by
  induction s with
  | nil => exact .nil
  | cons c s ih =>
    have hcons : percentEncode encoded (c :: s) =
        (if encoded c || 0x80 ≤ c.toNat then (utf8 [c]).flatMap percentByte else [c]) ++
          percentEncode encoded s := List.flatMap_cons ..
    rw [hcons]
    split
    · exact .escaped (byteEscapes_percentByte fun b => lt_of_mem_utf8) ih
    · refine .kept ?_ ih
      rintro rfl
      simp_all

/-- Decoding is exact. The decoded text is what the bytes are read as after every escape has been
replaced by its byte and all other bytes have been kept; an escape is a `%` and two hexadecimal
digits unless a plus sign and a digit come after a `%` somewhere. An encoding of a text is decoded
to the text. -/
theorem percentDecode_exact (s : List Char) :
    (∀ text, percentDecode s = text ↔
      ∃ bytes, Unescaped TakenPair (utf8 s) bytes ∧ Reads bytes text) ∧
    ((∀ b n, HexDigit b n → ¬ [0x25, 0x2B, b] <:+: utf8 s) → ∀ text, percentDecode s = text ↔
      ∃ bytes, Unescaped HexPair (utf8 s) bytes ∧ Reads bytes text) ∧
    (∀ t, PercentEncoded s t → percentDecode t = s) ∧
    ∀ encoded, encoded '%' = true → percentDecode (percentEncode encoded s) = s := by
  have hread (text : List Char) : percentDecode s = text ↔
      ∃ bytes, Unescaped TakenPair (utf8 s) bytes ∧ Reads bytes text := by
    simp only [← percentDecodeBytes_eq_iff, ← ofUtf8_eq_iff, percentDecode, exists_eq_left']
  refine ⟨hread, ?_, fun t h => h.percentDecode, fun encoded h => ?_⟩
  · intro h text
    simp only [hread, unescaped_hexPair_iff h]
  · exact (percentEncoded_percentEncode h s).percentDecode

theorem percentDecode_exact_twoBytes :
    (∀ b n, HexDigit b n → ¬ [0x25, 0x2B, b] <:+: utf8 ['%', 'c', '3', '%', 'B', 'C', '%', '4']) ∧
    (∃ bytes, Unescaped HexPair (utf8 ['%', 'c', '3', '%', 'B', 'C', '%', '4']) bytes ∧
      Reads bytes ['ü', '%', '4']) ∧
    PercentEncoded ['ü', '%'] ['%', 'c', '3', '%', 'B', 'C', '%', '2', '5'] ∧
    percentDecode ['%', 'c', '3', '%', 'B', 'C', '%', '2', '5'] = ['ü', '%'] ∧
    percentDecode (percentEncode (· == '%') ['ü', '%']) = ['ü', '%'] := by
  have hsign : ∀ b n, HexDigit b n →
      ¬ [0x25, 0x2B, b] <:+: utf8 ['%', 'c', '3', '%', 'B', 'C', '%', '4'] :=
    fun b _ _ h => absurd (h.subset (show 0x2B ∈ [0x25, 0x2B, b] by simp)) (by decide)
  have hdecoded := ((percentDecode_exact ['%', 'c', '3', '%', 'B', 'C', '%', '4']).2.1 hsign
    ['ü', '%', '4']).mp (by decide)
  have hdigit {c : Char} {n : Nat} (h : hexValue? c = some n) : HexDigit c.toNat n :=
    hexValue_eq_some_iff.mp h
  have humlaut : ByteEscapes [0xC * 16 + 0x3, 0xB * 16 + 0xC] ['%', 'c', '3', '%', 'B', 'C'] :=
    .cons (hdigit (by decide)) (hdigit (by decide))
      (.cons (hdigit (by decide)) (hdigit (by decide)) .nil)
  have hpercent : ByteEscapes [0x2 * 16 + 0x5] ['%', '2', '5'] :=
    .cons (hdigit (by decide)) (hdigit (by decide)) .nil
  have hencoded : PercentEncoded ['ü', '%'] ['%', 'c', '3', '%', 'B', 'C', '%', '2', '5'] :=
    .escaped (c := 'ü') humlaut (.escaped (c := '%') hpercent .nil)
  obtain ⟨-, -, hinverse, hinverse'⟩ := percentDecode_exact ['ü', '%']
  exact ⟨hsign, hdecoded, hencoded, hinverse _ hencoded, hinverse' _ (by decide)⟩

/-- A plus sign and a digit after a `%` are read as an escape, though they are not two digits. -/
theorem percentDecode_sign :
    percentDecode ['%', '+', 'f'] = ['\x0f'] ∧
    (∃ bytes, Unescaped HexPair (utf8 ['%', '+', 'f']) bytes ∧ Reads bytes ['%', '+', 'f']) ∧
    ¬ ∃ bytes, Unescaped HexPair (utf8 ['%', '+', 'f']) bytes ∧ Reads bytes ['\x0f'] := by
  have hpair (v : Nat) : ¬ HexPair 0x2B 0x66 v := by
    rintro ⟨hhigh, -⟩
    exact hhigh.ne_plus rfl
  refine ⟨by decide, ⟨utf8 ['%', '+', 'f'], .kept ?_ (.kept ?_ (.kept ?_ .nil)), reads_utf8 _⟩, ?_⟩
  · rintro - _ _ _ v ⟨⟩
    exact hpair v
  · rintro ⟨⟩
  · rintro ⟨⟩
  · rintro ⟨bytes, hbytes, hreads⟩
    cases hbytes with
    | escape taken => exact hpair _ taken
    | kept _ tail =>
      cases tail with
      | kept _ tail =>
        cases tail with
        | kept _ tail =>
          cases tail
          exact absurd ((reads_utf8 ['%', '+', 'f']).eq hreads) (by decide)

end JsonPath.Text
