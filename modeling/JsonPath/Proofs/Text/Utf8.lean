import JsonPath.Text.Percent

/-!
Reading UTF-8. Bytes that encode characters are read as these characters. Where no character is
encoded, the longest run of bytes that begins one, or a single byte that begins none, is read as one
replacement character. Every sequence of bytes is read in this way and in no other.
-/

namespace JsonPath.Text

variable {c : Char} {bytes : List Nat}

/-! ### Characters and their bytes -/

/-- No character has the number of half of a surrogate pair. -/
theorem toNat_not_surrogate (c : Char) : c.toNat < 0xD800 ∨ 0xDFFF < c.toNat :=
  c.valid.imp id And.left

theorem toNat_lt (c : Char) : c.toNat < 0x110000 := by
  rcases c.valid with h | h
  · exact Nat.lt_trans h (by decide)
  · exact h.2

theorem exists_char {n : Nat} (hlt : n < 0x110000) (hsurrogate : n < 0xD800 ∨ 0xDFFF < n) :
    ∃ c : Char, c.toNat = n :=
  ⟨Char.ofNatAux n (hsurrogate.imp id fun h => ⟨h, hlt⟩), rfl⟩

theorem utf8_append (s t : List Char) : utf8 (s ++ t) = utf8 s ++ utf8 t := List.flatMap_append

theorem utf8_cons (c : Char) (rest : List Char) : utf8 (c :: rest) = utf8 [c] ++ utf8 rest :=
  utf8_append [c] rest

/-! A character has as many bytes as its number needs. -/

theorem utf8_one (h : c.toNat < 0x80) : utf8 [c] = [c.toNat] := by
  have hone : c.val.toNat ≤ 0x7F := Nat.le_of_lt_succ h
  simp only [utf8, List.flatMap_cons, List.flatMap_nil, List.append_nil, String.utf8EncodeChar]
  rw [if_pos hone, List.map_singleton, UInt8.toNat_ofNat', Nat.mod_eq_of_lt (by omega)]
  rfl

theorem utf8_two (h : 0x80 ≤ c.toNat ∧ c.toNat < 0x800) :
    utf8 [c] = [0xC0 + c.toNat / 0x40, 0x80 + c.toNat % 0x40] := by
  have hval : c.val.toNat = c.toNat := rfl
  simp only [utf8, List.flatMap_cons, List.flatMap_nil, List.append_nil, String.utf8EncodeChar]
  rw [if_neg (by omega), if_pos (by omega), hval]
  simp
  omega

theorem utf8_three (h : 0x800 ≤ c.toNat ∧ c.toNat < 0x10000) :
    utf8 [c] = [0xE0 + c.toNat / 0x1000, 0x80 + c.toNat / 0x40 % 0x40, 0x80 + c.toNat % 0x40] := by
  have hval : c.val.toNat = c.toNat := rfl
  simp only [utf8, List.flatMap_cons, List.flatMap_nil, List.append_nil, String.utf8EncodeChar]
  rw [if_neg (by omega), if_neg (by omega), if_pos (by omega), hval]
  simp
  omega

theorem utf8_four (h : 0x10000 ≤ c.toNat) :
    utf8 [c] = [0xF0 + c.toNat / 0x40000, 0x80 + c.toNat / 0x1000 % 0x40,
      0x80 + c.toNat / 0x40 % 0x40, 0x80 + c.toNat % 0x40] := by
  have hlt := toNat_lt c
  have hval : c.val.toNat = c.toNat := rfl
  simp only [utf8, List.flatMap_cons, List.flatMap_nil, List.append_nil, String.utf8EncodeChar]
  rw [if_neg (by omega), if_neg (by omega), if_neg (by omega), hval]
  simp
  omega

theorem utf8_cases (c : Char) :
    (c.toNat < 0x80 ∧ utf8 [c] = [c.toNat]) ∨
    ((0x80 ≤ c.toNat ∧ c.toNat < 0x800) ∧
      utf8 [c] = [0xC0 + c.toNat / 0x40, 0x80 + c.toNat % 0x40]) ∨
    ((0x800 ≤ c.toNat ∧ c.toNat < 0x10000) ∧
      utf8 [c] = [0xE0 + c.toNat / 0x1000, 0x80 + c.toNat / 0x40 % 0x40, 0x80 + c.toNat % 0x40]) ∨
    (0x10000 ≤ c.toNat ∧ utf8 [c] = [0xF0 + c.toNat / 0x40000, 0x80 + c.toNat / 0x1000 % 0x40,
      0x80 + c.toNat / 0x40 % 0x40, 0x80 + c.toNat % 0x40]) := by
  have hsize : c.toNat < 0x80 ∨ (0x80 ≤ c.toNat ∧ c.toNat < 0x800) ∨
      (0x800 ≤ c.toNat ∧ c.toNat < 0x10000) ∨ 0x10000 ≤ c.toNat := by omega
  exact hsize.imp (fun h => ⟨h, utf8_one h⟩) <| Or.imp (fun h => ⟨h, utf8_two h⟩) <|
    Or.imp (fun h => ⟨h, utf8_three h⟩) fun h => ⟨h, utf8_four h⟩

/-- The bytes of a character tell where they end. -/
theorem utf8_append_inj {c d : Char} {more more' : List Nat}
    (h : utf8 [c] ++ more = utf8 [d] ++ more') : c = d ∧ more = more' := by
  have hchar (heq : c.toNat = d.toNat) : c = d := Char.ext (UInt32.toNat_inj.mp heq)
  rcases utf8_cases c with ⟨hc, hcbytes⟩ | ⟨hc, hcbytes⟩ | ⟨hc, hcbytes⟩ | ⟨hc, hcbytes⟩ <;>
  rcases utf8_cases d with ⟨hd, hdbytes⟩ | ⟨hd, hdbytes⟩ | ⟨hd, hdbytes⟩ | ⟨hd, hdbytes⟩ <;>
  · rw [hcbytes, hdbytes] at h
    simp only [List.cons_append, List.nil_append, List.cons.injEq] at h
    have hclt := toNat_lt c
    have hdlt := toNat_lt d
    first
    | (exfalso; omega)
    | exact ⟨hchar (by omega), by simp only [h]⟩

/-! ### Reading bytes -/

/-- At the front of some bytes no character is encoded, and `part` is the longest run there that
begins a character, or a single byte. -/
structure Broken (part rest : List Nat) : Prop where
  ne : part ≠ []
  begins : part.length = 1 ∨ ∃ c, part <+: utf8 [c]
  longest : ∀ b, rest.head? = some b → ∀ c, ¬ part ++ [b] <+: utf8 [c]
  none : ∀ c, ¬ utf8 [c] <+: part ++ rest

/-- The text that some bytes are read as. -/
inductive Reads : List Nat → List Char → Prop
  | nil : Reads [] []
  | char {c : Char} {bytes : List Nat} {text : List Char} (rest : Reads bytes text) :
      Reads (utf8 [c] ++ bytes) (c :: text)
  | broken {part bytes : List Nat} {text : List Char} (broken : Broken part bytes)
      (rest : Reads bytes text) : Reads (part ++ bytes) (replacement :: text)

theorem reads_utf8 (text : List Char) : Reads (utf8 text) text := by
  induction text with
  | nil => exact .nil
  | cons c rest ih =>
    rw [utf8_cons]
    exact .char ih

theorem utf8_ne_nil (c : Char) : utf8 [c] ≠ [] := by
  rcases utf8_cases c with ⟨-, h⟩ | ⟨-, h⟩ | ⟨-, h⟩ | ⟨-, h⟩ <;> rw [h] <;>
    exact List.cons_ne_nil _ _

/-- Of two runs that are broken off at one place, neither is longer than the other. -/
theorem Broken.length_le {part rest part' rest' : List Nat} (h : Broken part rest)
    (h' : Broken part' rest') (heq : part ++ rest = part' ++ rest') :
    part'.length ≤ part.length := by
  refine Nat.le_of_not_lt fun hlt => ?_
  obtain ⟨more, rfl⟩ := List.prefix_of_prefix_length_le (List.prefix_append part rest)
    (heq ▸ List.prefix_append part' rest') (by omega)
  rw [List.append_assoc, List.append_cancel_left_eq] at heq
  cases more with
  | nil => simp at hlt
  | cons b more =>
    rcases h'.begins with hone | ⟨c, hc⟩
    · have hpos := List.length_pos_iff.mpr h.ne
      rw [List.length_append, List.length_cons] at hone
      omega
    · refine h.longest b (by rw [heq]; rfl) c (List.IsPrefix.trans ⟨more, ?_⟩ hc)
      rw [List.append_assoc, List.singleton_append]

theorem Broken.eq {part rest part' rest' : List Nat} (h : Broken part rest)
    (h' : Broken part' rest') (heq : part ++ rest = part' ++ rest') : part = part' ∧ rest = rest' :=
  List.append_inj heq (Nat.le_antisymm (h'.length_le h heq.symm) (h.length_le h' heq))

/-- Bytes are read as one text only. -/
theorem Reads.eq {text text' : List Char} (h : Reads bytes text) (h' : Reads bytes text') :
    text = text' := by
  induction h generalizing text' with
  | nil =>
    generalize hbytes : ([] : List Nat) = bytes at h'
    cases h' with
    | nil => rfl
    | char => exact absurd (List.append_eq_nil_iff.mp hbytes.symm).1 (utf8_ne_nil _)
    | broken broken => exact absurd (List.append_eq_nil_iff.mp hbytes.symm).1 broken.ne
  | @char c bytes text _ ih =>
    generalize hbytes : utf8 [c] ++ bytes = bytes' at h'
    cases h' with
    | nil => exact absurd (List.append_eq_nil_iff.mp hbytes).1 (utf8_ne_nil c)
    | char rest =>
      obtain ⟨rfl, rfl⟩ := utf8_append_inj hbytes
      rw [ih rest]
    | broken broken => exact absurd ⟨bytes, hbytes⟩ (broken.none c)
  | @broken part bytes text broken _ ih =>
    generalize hbytes : part ++ bytes = bytes' at h'
    cases h' with
    | nil => exact absurd (List.append_eq_nil_iff.mp hbytes).1 broken.ne
    | @char c bytes' _ => exact absurd ⟨bytes', hbytes.symm⟩ (broken.none c)
    | broken broken' rest =>
      obtain ⟨rfl, rfl⟩ := broken.eq broken' hbytes
      rw [ih rest]

/-! ### Characters of which some bytes have been read -/

/-- The bytes lie within the bounds, one each. -/
def Fills : (bounds : List (Nat × Nat)) → (bytes : List Nat) → Prop
  | [], [] => True
  | (low, high) :: bounds, b :: bytes => (low ≤ b ∧ b ≤ high) ∧ Fills bounds bytes
  | _, _ => False

/-- The number that continuation bytes make of the value so far. -/
def continued (value : Nat) (bytes : List Nat) : Nat :=
  bytes.foldl (fun value b => value * 64 + (b - 0x80)) value

theorem continued_cons (value b : Nat) (bytes : List Nat) :
    continued value (b :: bytes) = continued (value * 64 + (b - 0x80)) bytes := List.foldl_cons ..

/-- `part` is the beginning of characters: of those whose other bytes lie within the bounds. -/
structure Begun (part : List Nat) (p : Partial) : Prop where
  bounds_ne : p.bounds ≠ []
  fillable : ∃ more, Fills p.bounds more
  completes : ∀ more, Fills p.bounds more →
    ∃ c : Char, c.toNat = continued p.value more ∧ utf8 [c] = part ++ more
  fills : ∀ c more, utf8 [c] = part ++ more → Fills p.bounds more

namespace Begun

variable {part : List Nat} {value low high b : Nat} {bounds : List (Nat × Nat)}

/-- One more byte within its bounds. -/
theorem next (h : Begun part ⟨value, (low, high) :: bounds⟩) (hb : low ≤ b ∧ b ≤ high)
    (hbounds : bounds ≠ []) : Begun (part ++ [b]) ⟨value * 64 + (b - 0x80), bounds⟩ where
  bounds_ne := hbounds
  fillable := by
    obtain ⟨more, hmore⟩ := h.fillable
    cases more with
    | nil => exact hmore.elim
    | cons _ more => exact ⟨more, hmore.2⟩
  completes more hmore := by
    obtain ⟨c, hc, hbytes⟩ := h.completes (b :: more) ⟨hb, hmore⟩
    rw [continued_cons] at hc
    exact ⟨c, hc, by rw [hbytes, List.append_assoc, List.singleton_append]⟩
  fills c more hc := by
    rw [List.append_assoc, List.singleton_append] at hc
    exact (h.fills c _ hc).2

/-- The last byte. -/
theorem last (h : Begun part ⟨value, [(low, high)]⟩) (hb : low ≤ b ∧ b ≤ high) :
    utf8 [Char.ofNat (value * 64 + (b - 0x80))] = part ++ [b] := by
  obtain ⟨c, hc, hbytes⟩ := h.completes [b] ⟨hb, trivial⟩
  have hnumber : c.toNat = value * 64 + (b - 0x80) := hc
  rw [← hnumber, Char.ofNat_toNat, hbytes]

/-- Without a byte within its bounds the character is broken off. -/
theorem broken {rest : List Nat} (h : Begun part ⟨value, (low, high) :: bounds⟩) (hne : part ≠ [])
    (hrest : ∀ b, rest.head? = some b → ¬ (low ≤ b ∧ b ≤ high)) : Broken part rest := by
  obtain ⟨more, hmore⟩ := h.fillable
  obtain ⟨d, -, hd⟩ := h.completes more hmore
  refine ⟨hne, .inr ⟨d, more, hd.symm⟩, ?_, ?_⟩
  · rintro b hb c ⟨tail, htail⟩
    rw [List.append_assoc, List.singleton_append] at htail
    exact hrest b hb (h.fills c _ htail.symm).1
  · rintro c ⟨tail, htail⟩
    rcases List.append_eq_append_iff.mp htail with ⟨extra, hpart, -⟩ | ⟨extra, hc, hrest'⟩
    · -- The character would end inside `part`, of which `d` has bytes more.
      have hbytes : utf8 [c] ++ (extra ++ more) = utf8 [d] ++ [] := by
        rw [List.append_nil, hd, hpart, List.append_assoc]
      have hnil := (List.append_eq_nil_iff.mp (utf8_append_inj hbytes).2).2
      rw [hnil] at hmore
      exact hmore
    · have hextra := h.fills c extra hc
      cases extra with
      | nil => exact hextra
      | cons b extra => exact hrest b (by rw [hrest']; rfl) hextra.1

end Begun

/-! ### First bytes -/

theorem fills_cons_iff {low high : Nat} {bounds : List (Nat × Nat)} {more : List Nat} :
    Fills ((low, high) :: bounds) more ↔
      ∃ b rest, more = b :: rest ∧ (low ≤ b ∧ b ≤ high) ∧ Fills bounds rest := by
  cases more with
  | nil => exact ⟨False.elim, fun ⟨_, _, h, _⟩ => by cases h⟩
  | cons b rest =>
    constructor
    · intro h
      exact ⟨b, rest, rfl, h⟩
    · rintro ⟨_, _, heq, h⟩
      cases heq
      exact h

theorem fills_nil_iff {more : List Nat} : Fills [] more ↔ more = [] := by
  cases more <;> simp [Fills]

theorem begun_two {b : Nat} (hb : 0xC2 ≤ b ∧ b ≤ 0xDF) :
    Begun [b] ⟨b - 0xC0, [(0x80, 0xBF)]⟩ where
  bounds_ne := List.cons_ne_nil _ _
  fillable := ⟨[0x80], by simp [Fills]⟩
  completes more hmore := by
    simp only [fills_cons_iff, fills_nil_iff] at hmore
    obtain ⟨x, _, rfl, hx, rfl⟩ := hmore
    have hnumber : continued (b - 0xC0) [x] = (b - 0xC0) * 64 + (x - 0x80) := rfl
    obtain ⟨c, hc⟩ := exists_char (n := continued (b - 0xC0) [x]) (by omega) (by omega)
    refine ⟨c, hc, ?_⟩
    rw [utf8_two (by omega)]
    simp only [List.cons_append, List.nil_append, List.cons.injEq, and_true]
    omega
  fills c more hc := by
    simp only [fills_cons_iff, fills_nil_iff]
    have hlt := toNat_lt c
    rcases utf8_cases c with ⟨h, hbytes⟩ | ⟨h, hbytes⟩ | ⟨h, hbytes⟩ | ⟨h, hbytes⟩ <;>
    · rw [hbytes, List.cons_append, List.nil_append, List.cons.injEq] at hc
      obtain ⟨hfirst, rfl⟩ := hc
      first
      | (exfalso; omega)
      | exact ⟨_, _, rfl, by omega, rfl⟩

theorem begun_three {b low high : Nat} (hb : 0xE0 ≤ b ∧ b ≤ 0xEF)
    (hlow : b = 0xE0 ∧ low = 0xA0 ∨ b ≠ 0xE0 ∧ low = 0x80)
    (hhigh : b = 0xED ∧ high = 0x9F ∨ b ≠ 0xED ∧ high = 0xBF) :
    Begun [b] ⟨b - 0xE0, [(low, high), (0x80, 0xBF)]⟩ where
  bounds_ne := List.cons_ne_nil _ _
  fillable := ⟨[low, 0x80], by simp only [Fills, and_true]; omega⟩
  completes more hmore := by
    simp only [fills_cons_iff, fills_nil_iff] at hmore
    obtain ⟨x, _, rfl, hx, y, _, rfl, hy, rfl⟩ := hmore
    have hnumber : continued (b - 0xE0) [x, y] =
        ((b - 0xE0) * 64 + (x - 0x80)) * 64 + (y - 0x80) := rfl
    obtain ⟨c, hc⟩ := exists_char (n := continued (b - 0xE0) [x, y]) (by omega) (by omega)
    refine ⟨c, hc, ?_⟩
    rw [utf8_three (by omega)]
    simp only [List.cons_append, List.nil_append, List.cons.injEq, and_true]
    omega
  fills c more hc := by
    simp only [fills_cons_iff, fills_nil_iff]
    have hlt := toNat_lt c
    have hsurrogate := toNat_not_surrogate c
    rcases utf8_cases c with ⟨h, hbytes⟩ | ⟨h, hbytes⟩ | ⟨h, hbytes⟩ | ⟨h, hbytes⟩ <;>
    · rw [hbytes, List.cons_append, List.nil_append, List.cons.injEq] at hc
      obtain ⟨hfirst, rfl⟩ := hc
      first
      | (exfalso; omega)
      | exact ⟨_, _, rfl, by omega, _, _, rfl, by omega, rfl⟩

theorem begun_four {b low high : Nat} (hb : 0xF0 ≤ b ∧ b ≤ 0xF4)
    (hlow : b = 0xF0 ∧ low = 0x90 ∨ b ≠ 0xF0 ∧ low = 0x80)
    (hhigh : b = 0xF4 ∧ high = 0x8F ∨ b ≠ 0xF4 ∧ high = 0xBF) :
    Begun [b] ⟨b - 0xF0, [(low, high), (0x80, 0xBF), (0x80, 0xBF)]⟩ where
  bounds_ne := List.cons_ne_nil _ _
  fillable := ⟨[low, 0x80, 0x80], by simp only [Fills, and_true]; omega⟩
  completes more hmore := by
    simp only [fills_cons_iff, fills_nil_iff] at hmore
    obtain ⟨x, _, rfl, hx, y, _, rfl, hy, z, _, rfl, hz, rfl⟩ := hmore
    have hnumber : continued (b - 0xF0) [x, y, z] =
        (((b - 0xF0) * 64 + (x - 0x80)) * 64 + (y - 0x80)) * 64 + (z - 0x80) := rfl
    obtain ⟨c, hc⟩ := exists_char (n := continued (b - 0xF0) [x, y, z]) (by omega) (by omega)
    refine ⟨c, hc, ?_⟩
    rw [utf8_four (by omega)]
    simp only [List.cons_append, List.nil_append, List.cons.injEq, and_true]
    omega
  fills c more hc := by
    simp only [fills_cons_iff, fills_nil_iff]
    have hlt := toNat_lt c
    rcases utf8_cases c with ⟨h, hbytes⟩ | ⟨h, hbytes⟩ | ⟨h, hbytes⟩ | ⟨h, hbytes⟩ <;>
    · rw [hbytes, List.cons_append, List.nil_append, List.cons.injEq] at hc
      obtain ⟨hfirst, rfl⟩ := hc
      first
      | (exfalso; omega)
      | exact ⟨_, _, rfl, by omega, _, _, rfl, by omega, _, _, rfl, by omega, rfl⟩

/-- What the first byte of a character tells. -/
inductive First (b : Nat) : List Char × Option Partial → Prop
  | whole {c : Char} (bytes : utf8 [c] = [b]) : First b ([c], none)
  | begun {p : Partial} (begun : Begun [b] p) : First b ([], some p)
  | broken (never : ∀ c more, utf8 [c] ≠ b :: more) : First b ([replacement], none)

theorem first_firstByte (b : Nat) : First b (firstByte b) := by
  unfold firstByte
  dsimp only
  split
  · rename_i h
    obtain ⟨c, hc⟩ := exists_char (n := b) (by omega) (by omega)
    rw [← hc, Char.ofNat_toNat]
    exact .whole (utf8_one (by omega))
  split
  · exact .begun (begun_two ‹_›)
  split
  · rename_i h
    subst h
    exact .begun (begun_three (by omega) (by omega) (by omega))
  split
  · rename_i h
    subst h
    exact .begun (begun_three (by omega) (by omega) (by omega))
  split
  · exact .begun (begun_three (by omega) (by omega) (by omega))
  split
  · rename_i h
    subst h
    exact .begun (begun_four (by omega) (by omega) (by omega))
  split
  · exact .begun (begun_four (by omega) (by omega) (by omega))
  split
  · rename_i h
    subst h
    exact .begun (begun_four (by omega) (by omega) (by omega))
  · refine .broken fun c more hc => ?_
    have hlt := toNat_lt c
    rcases utf8_cases c with ⟨h, hbytes⟩ | ⟨h, hbytes⟩ | ⟨h, hbytes⟩ | ⟨h, hbytes⟩ <;>
    · rw [hbytes, List.cons.injEq] at hc
      omega

/-! ### Reading to the end -/

/-- A single byte that begins no character. -/
theorem broken_single {b : Nat} (h : ∀ c more, utf8 [c] ≠ b :: more) (rest : List Nat) :
    Broken [b] rest where
  ne := List.cons_ne_nil _ _
  begins := .inl rfl
  longest _ _ c := fun ⟨tail, htail⟩ => h c _ htail.symm
  none c := by
    rintro ⟨tail, htail⟩
    cases hbytes : utf8 [c] with
    | nil => exact utf8_ne_nil c hbytes
    | cons x more =>
      rw [hbytes, List.cons_append, List.cons_append, List.cons.injEq] at htail
      exact h c more (by rw [hbytes, htail.1])

/-- Bytes are read as they are between characters, and after the bytes of an unfinished one. -/
theorem reads_ofUtf8From (bytes : List Nat) :
    Reads bytes (ofUtf8From none bytes) ∧
      ∀ part p, part ≠ [] → Begun part p → Reads (part ++ bytes) (ofUtf8From (some p) bytes) := by
  induction bytes with
  | nil =>
    refine ⟨.nil, ?_⟩
    rintro part ⟨value, _ | ⟨⟨low, high⟩, bounds⟩⟩ hne h
    · exact absurd rfl h.bounds_ne
    · exact .broken (h.broken hne fun _ hb => by cases hb) .nil
  | cons b bytes ih =>
    have hfirst : Reads (b :: bytes) (ofUtf8From none (b :: bytes)) := by
      have hnext : nextByte none b = firstByte b := rfl
      rw [ofUtf8From, hnext]
      have hb := first_firstByte b
      generalize firstByte b = first at hb ⊢
      cases hb with
      | @whole c hbytes =>
        have hread := Reads.char (c := c) ih.1
        rw [hbytes] at hread
        exact hread
      | begun h => exact ih.2 [b] _ (List.cons_ne_nil _ _) h
      | broken never => exact .broken (broken_single never bytes) ih.1
    refine ⟨hfirst, ?_⟩
    rintro part ⟨value, _ | ⟨⟨low, high⟩, bounds⟩⟩ hne h
    · exact absurd rfl h.bounds_ne
    by_cases hb : low ≤ b ∧ b ≤ high
    · have hbytes : part ++ b :: bytes = part ++ [b] ++ bytes := by
        rw [List.append_assoc, List.singleton_append]
      rw [ofUtf8From, nextByte, if_pos hb, hbytes]
      cases bounds with
      | nil =>
        rw [← h.last hb]
        exact .char ih.1
      | cons bound bounds =>
        exact ih.2 _ _ (by simp) (h.next hb (List.cons_ne_nil _ _))
    · have hbroken : Broken part (b :: bytes) := by
        refine h.broken hne fun x hx => ?_
        obtain rfl : b = x := Option.some_inj.mp hx
        exact hb
      rw [ofUtf8From, nextByte, if_neg hb]
      exact .broken hbroken hfirst

/-- Reading UTF-8: every sequence of bytes has the one text that it is read as. -/
theorem ofUtf8_eq_iff {text : List Char} : ofUtf8 bytes = text ↔ Reads bytes text := by
  constructor
  · rintro rfl
    exact (reads_ofUtf8From bytes).1
  · intro h
    exact (reads_ofUtf8From bytes).1.eq h

/-- The bytes of a text are read as the text. -/
theorem ofUtf8_utf8 (text : List Char) : ofUtf8 (utf8 text) = text :=
  ofUtf8_eq_iff.mpr (reads_utf8 text)

end JsonPath.Text
