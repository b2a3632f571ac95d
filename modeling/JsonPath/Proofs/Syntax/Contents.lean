import JsonPath.Proofs.Syntax.Literals
import JsonPath.Proofs.Text.Utf8

/-!
What string literals stand for. The contents that the grammar allows between two quotes are those
in which decoding finds nothing wrong, and then it gives the text that the rules of the grammar say
they stand for. What it finds wrong in other contents it reports in order, each fault with the
characters that make it up and none of another's.
-/

namespace JsonPath.StringLiteral

open Grammar (Quad Quoted IsEscapable)

variable {quote : Char} {w v : List Char}

/-- A mark that stands for one character when a backslash comes before it. -/
inductive Brief (quote : Char) : (mark value : Char) → Prop
  | backspace : Brief quote 'b' '\x08'
  | formFeed : Brief quote 'f' '\x0c'
  | lineFeed : Brief quote 'n' '\n'
  | carriageReturn : Brief quote 'r' '\r'
  | tab : Brief quote 't' '\t'
  | slash : Brief quote '/' '/'
  | backslash : Brief quote '\\' '\\'
  | quote : Brief quote quote quote

/-- What contents of a literal stand for: a character for itself, an escape for the character with
the number that its digits denote, two escapes for the character that they encode in UTF-16. -/
inductive Denotes (quote : Char) : (contents value : List Char) → Prop
  | nil : Denotes quote [] []
  | plain {c : Char} {w v : List Char} (control : 0x20 ≤ c.toNat) (ne : c ≠ quote)
      (backslash : c ≠ '\\') (rest : Denotes quote w v) : Denotes quote (c :: w) (c :: v)
  | escape {c x : Char} {w v : List Char} (brief : Brief quote c x) (rest : Denotes quote w v) :
      Denotes quote ('\\' :: c :: w) (x :: v)
  | unicode {a b c d : Nat} {x : Char} {u w v : List Char} (digits : Quad a b c d u)
      (number : x.toNat = ((a * 16 + b) * 16 + c) * 16 + d) (rest : Denotes quote w v) :
      Denotes quote ('\\' :: 'u' :: (u ++ w)) (x :: v)
  | pair {b c d b' c' d' : Nat} {x : Char} {u u' w v : List Char} (high : Quad 0xD b c d u)
      (high_ge : 8 ≤ b) (high_lt : b < 0xC) (low : Quad 0xD b' c' d' u') (low_ge : 0xC ≤ b')
      (number : x.toNat = 0x10000 + (((b - 8) * 16 + c) * 16 + d) * 0x400 +
        (((b' - 0xC) * 16 + c') * 16 + d')) (rest : Denotes quote w v) :
      Denotes quote ('\\' :: 'u' :: (u ++ '\\' :: 'u' :: u' ++ w)) (x :: v)

/-! ### The text of faultless contents -/

theorem Brief.escapable {c x : Char} (h : Brief quote c x) : IsEscapable quote c := by
  cases h <;> simp [IsEscapable]

theorem Brief.escape_char (hmark : quote = '\'' ∨ quote = '"') {c x : Char}
    (h : Brief quote c x) (rest : List Char) : (escape quote c rest).char = x := by
  rcases hmark with rfl | rfl <;> cases h <;> rfl

theorem exists_brief {c : Char} (h : IsEscapable quote c) : ∃ x, Brief quote c x := by
  rcases h with rfl | rfl | rfl | rfl | rfl | rfl | rfl | rfl
  · exact ⟨_, .backspace⟩
  · exact ⟨_, .formFeed⟩
  · exact ⟨_, .lineFeed⟩
  · exact ⟨_, .carriageReturn⟩
  · exact ⟨_, .tab⟩
  · exact ⟨_, .slash⟩
  · exact ⟨_, .backslash⟩
  · exact ⟨_, .quote⟩

/-- Only contents that the grammar allows stand for a text. -/
theorem Denotes.quoted (h : Denotes quote w v) : Quoted quote w := by
  induction h with
  | nil => exact .nil
  | plain control ne backslash _ ih => exact .plain control ne backslash ih
  | escape brief _ ih => exact .escape brief.escapable ih
  | @unicode a b c d x u w v digits number _ ih =>
    have hbounds := digits.bounds
    have hsurrogate := Text.toNat_not_surrogate x
    rw [← List.cons_append, ← List.cons_append]
    exact .unicode digits (by omega) ih
  | pair high high_ge high_lt low low_ge _ _ ih =>
    have hquoted := Quoted.pair high high_ge high_lt low low_ge ih
    simpa only [List.cons_append, List.append_assoc] using hquoted

/-- All contents that the grammar allows stand for a text. -/
theorem exists_denotes (h : Quoted quote w) : ∃ v, Denotes quote w v := by
  induction h with
  | nil => exact ⟨[], .nil⟩
  | plain control ne backslash _ ih =>
    obtain ⟨v, hv⟩ := ih
    exact ⟨_, .plain control ne backslash hv⟩
  | escape escapable _ ih =>
    obtain ⟨v, hv⟩ := ih
    obtain ⟨x, hx⟩ := exists_brief escapable
    exact ⟨_, .escape hx hv⟩
  | @unicode a b c d u w digits surrogate _ ih =>
    obtain ⟨v, hv⟩ := ih
    have hbounds := digits.bounds
    obtain ⟨x, hx⟩ := Text.exists_char (n := ((a * 16 + b) * 16 + c) * 16 + d) (by omega) (by omega)
    exact ⟨_, .unicode digits hx hv⟩
  | @pair b c d b' c' d' u u' w high high_ge high_lt low low_ge _ ih =>
    obtain ⟨v, hv⟩ := ih
    have hbounds := high.bounds
    have hbounds' := low.bounds
    obtain ⟨x, hx⟩ := Text.exists_char (n := 0x10000 + (((b - 8) * 16 + c) * 16 + d) * 0x400 +
      (((b' - 0xC) * 16 + c') * 16 + d')) (by omega) (by omega)
    have hdenotes := Denotes.pair high high_ge high_lt low low_ge hx hv
    exact ⟨_, by simpa only [List.cons_append, List.append_assoc] using hdenotes⟩

/-- Contents are decoded to the text that they stand for. -/
theorem Denotes.decodeFrom_eq (hmark : quote = '\'' ∨ quote = '"') (h : Denotes quote w v)
    (offset : Nat) : decodeFrom quote 0 offset w = (v, []) := by
  induction h generalizing offset with
  | nil => rfl
  | plain control _ backslash _ ih => rw [decodeFrom_plain backslash control, ih]
  | escape brief _ ih => rw [decodeFrom_mark brief.escapable, brief.escape_char hmark, ih]
  | @unicode a b c d x u w v digits number _ ih =>
    have hbounds := digits.bounds
    have hsurrogate := Text.toNat_not_surrogate x
    rw [decodeFrom_clean (escape_quad hmark digits (by omega) w), ih, ← number,
      Char.ofNat_toNat]
  | @pair b c d b' c' d' x u u' w v high high_ge high_lt low low_ge number _ ih =>
    have hvalue : Text.surrogatePair (((0xD * 16 + b) * 16 + c) * 16 + d)
        (((0xD * 16 + b') * 16 + c') * 16 + d') = x := by
      have hbounds := high.bounds
      have hbounds' := low.bounds
      have hnumber : 0x10000 + (((0xD * 16 + b) * 16 + c) * 16 + d - 0xD800) * 0x400 +
          (((0xD * 16 + b') * 16 + c') * 16 + d' - 0xDC00) = x.toNat := by omega
      rw [Text.surrogatePair, hnumber, Char.ofNat_toNat]
    rw [decodeFrom_clean (escape_pair hmark high high_ge high_lt low low_ge w), ih, hvalue]

/-- Decoding finds nothing wrong exactly with what the grammar allows between quotes. -/
theorem decode_faults_eq_nil_iff (hmark : quote = '\'' ∨ quote = '"') (hw : Escaped quote w) :
    (decode quote w).2 = [] ↔ Quoted quote w :=
  ⟨quoted_of_decodeFrom _ (Nat.le_refl _) hw, fun h => decodeFrom_quoted hmark h 0⟩

theorem decode_eq_iff (hmark : quote = '\'' ∨ quote = '"') (hw : Escaped quote w) :
    decode quote w = (v, []) ↔ Denotes quote w v := by
  constructor
  · intro hdecode
    have hquoted := (decode_faults_eq_nil_iff hmark hw).mp (by rw [hdecode])
    obtain ⟨v', hv'⟩ := exists_denotes hquoted
    have hdecode' : decode quote w = (v', []) := hv'.decodeFrom_eq hmark 0
    obtain rfl : v' = v := congrArg Prod.fst (hdecode'.symm.trans hdecode)
    exact hv'
  · intro h
    exact h.decodeFrom_eq hmark 0

/-! ### The places of faults -/

/-- The faults that are found from a position on do not begin before it, are of some length, and
follow each other. -/
structure Follow (position : Nat) (faults : List (Located EscapeFault)) : Prop where
  start_ge : ∀ f ∈ faults, position ≤ f.range.start
  start_lt : ∀ f ∈ faults, f.range.start < f.range.stop
  ordered : faults.Pairwise fun f g => f.range.stop ≤ g.range.start

namespace Follow

variable {position next : Nat} {faults : List (Located EscapeFault)}

theorem nil (position : Nat) : Follow position [] :=
  ⟨List.forall_mem_nil _, List.forall_mem_nil _, .nil⟩

theorem mono (h : Follow next faults) (hle : position ≤ next) : Follow position faults where
  start_ge f hf := Nat.le_trans hle (h.start_ge f hf)
  start_lt := h.start_lt
  ordered := h.ordered

theorem cons (h : Follow next faults) (fault : EscapeFault) (hlt : position < next) :
    Follow position (⟨fault, ⟨position, next⟩⟩ :: faults) where
  start_ge := List.forall_mem_cons.mpr
    ⟨Nat.le_refl _, (h.mono (Nat.le_of_lt hlt)).start_ge⟩
  start_lt := List.forall_mem_cons.mpr ⟨hlt, h.start_lt⟩
  ordered := .cons h.start_ge h.ordered

/-- With the fault of the escape before, if it has one. -/
theorem optional (h : Follow next faults) (fault : Option EscapeFault) (hlt : position < next) :
    Follow position ((fault.map fun f => ⟨f, ⟨position, next⟩⟩).toList ++ faults) := by
  cases fault with
  | none => exact h.mono (Nat.le_of_lt hlt)
  | some fault => exact h.cons fault hlt

end Follow

theorem decodeFrom_follow (quote : Char) (skip offset : Nat) (rest : List Char) :
    Follow (offset + Text.byteLength (rest.take skip)) (decodeFrom quote skip offset rest).2 := by
  fun_induction decodeFrom quote skip offset rest with
  | case1 => exact .nil _
  | case2 skip offset c rest ih =>
    rwa [List.take_succ_cons, Text.byteLength_cons, ← Nat.add_assoc]
  | case3 offset => exact (Follow.nil _).cons _ (Nat.lt_succ_self _)
  | case4 offset d more e chars faults hrest stop ih =>
    rw [hrest] at ih
    exact ih.optional _ (Nat.lt_of_lt_of_le (Nat.lt_succ_self offset) (Nat.le_add_right _ _))
  | case5 offset c rest hslash chars faults hrest hcontrol ih =>
    rw [hrest] at ih
    have hsize : c.utf8Size = 1 := Text.utf8Size_of_ascii (Nat.lt_trans hcontrol (by decide))
    rw [hsize] at ih
    exact ih.cons _ (Nat.lt_succ_self _)
  | case6 offset c rest hslash chars faults hrest hcontrol ih =>
    rw [hrest] at ih
    exact ih.mono (Nat.le_add_right _ _)

/-- Faults in the contents of a literal: each has characters of its own, and they are in order. -/
structure InOrder (contents : List Char) (faults : List (Located EscapeFault)) : Prop where
  bounds : ∀ f ∈ faults,
    f.range.start < f.range.stop ∧ f.range.stop ≤ (Text.bytes contents).length
  /-- Both ends of a range lie between characters. -/
  spans : ∀ f ∈ faults, ∃ part, f.range.Spans contents part
  ordered : faults.Pairwise fun f g =>
    f.range.start < g.range.start ∧ f.range.stop ≤ g.range.start

theorem inOrder_decode (quote : Char) (contents : List Char) :
    InOrder contents (decode quote contents).2 := by
  have hfollow := decodeFrom_follow quote 0 0 contents
  refine ⟨fun f hf => ⟨hfollow.start_lt f hf, ?_⟩, decode_spans quote contents, ?_⟩
  · obtain ⟨part, before, after, htext, -, hstop⟩ := decode_spans quote contents f hf
    rw [Text.bytes_length, htext, Text.byteLength_append, hstop]
    exact Nat.le_add_right _ _
  · refine hfollow.ordered.imp_of_mem fun {f g} hf _ hle => ⟨?_, hle⟩
    exact Nat.lt_of_lt_of_le (hfollow.start_lt f hf) hle

/-- Decoding is exact. Contents in which the quote stands only after a backslash are found to be
in order exactly if the grammar allows them, and then they are decoded to the text that they
stand for. Of all contents the faults are reported in order and at characters of the contents. -/
theorem unescape_exact (hmark : quote = '\'' ∨ quote = '"') (contents : List Char) :
    (Escaped quote contents →
      ((unescape quote contents).2 = [] ↔ Quoted quote contents) ∧
      ∀ value, unescape quote contents = (value, []) ↔ Denotes quote contents value) ∧
    InOrder contents (unescape quote contents).2 := by
  rw [unescape_eq_decode]
  refine ⟨fun hescaped => ⟨decode_faults_eq_nil_iff hmark hescaped, fun value => ?_⟩,
    inOrder_decode quote contents⟩
  exact decode_eq_iff hmark hescaped

/-- Two halves of a surrogate pair, a quote and a letter of two bytes. -/
def pairAndQuote : List Char :=
  ['\\', 'u', 'D', '8', '3', '4', '\\', 'u', 'd', 'd', '1', 'e', '\\', '"', 'é']

theorem unescape_exact_pairAndQuote :
    Escaped '"' pairAndQuote ∧ Quoted '"' pairAndQuote ∧
      unescape '"' pairAndQuote = ([Char.ofNat 0x1D11E, '"', 'é'], []) := by
  have hhigh : Quad 0xD 8 3 4 ['D', '8', '3', '4'] := .mk rfl rfl rfl rfl
  have hlow : Quad 0xD 0xD 1 0xE ['d', 'd', '1', 'e'] := .mk rfl rfl rfl rfl
  have hdenotes : Denotes '"' pairAndQuote [Char.ofNat 0x1D11E, '"', 'é'] :=
    .pair hhigh (by decide) (by decide) hlow (by decide) rfl
      (.escape .quote (.plain (by decide) (by decide) (by decide) .nil))
  have hescaped : Escaped '"' pairAndQuote := by
    refine .pair ?_
    iterate 4 refine .plain (by decide) (by decide) ?_
    refine .pair ?_
    iterate 4 refine .plain (by decide) (by decide) ?_
    exact .pair (.last (by decide))
  obtain ⟨hexact, -⟩ := unescape_exact (.inr rfl : '"' = '\'' ∨ '"' = '"') pairAndQuote
  obtain ⟨hfaultless, hvalue⟩ := hexact hescaped
  have hunescape := (hvalue _).mpr hdenotes
  exact ⟨hescaped, hfaultless.mp (congrArg Prod.snd hunescape), hunescape⟩

end JsonPath.StringLiteral
