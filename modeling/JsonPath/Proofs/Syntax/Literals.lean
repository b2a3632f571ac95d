import JsonPath.Proofs.Syntax.Escapes
import JsonPath.Proofs.Syntax.Numbers
import JsonPath.Proofs.Syntax.Tracking

/-!
Reading numbers, strings and names by positions. Here the positions run ahead of the parser, which
takes a whole literal at once, and the ranges of what is reported lie inside the literal.
-/

namespace JsonPath

open JsonPath.Parser (IntegerText NumberText minusOf unsigned)

namespace Text

theorem isDigit_lt {c : Char} (h : isDigit c = true) : c.toNat < 0x80 := by
  simp only [isDigit, Bool.and_eq_true, decide_eq_true_eq] at h
  have hle : c.toNat ≤ '9'.toNat := h.2
  exact Nat.lt_of_le_of_lt hle (by decide)

theorem byteLength_digits (chars : List Char) :
    byteLength (chars.takeWhile isDigit) = (chars.takeWhile isDigit).length :=
  byteLength_eq_length fun c hc =>
    utf8Size_of_ascii (isDigit_lt (List.all_eq_true.mp List.all_takeWhile c hc))

end Text

namespace Cursor

variable {c : Cursor} {source part : List Char}

/-- The cursor with one more fault, if there is one. -/
def note? (c : Cursor) (fault : Option SyntaxFault) (range : Range) : Cursor :=
  match fault with
  | some fault => c.note fault range
  | none => c

theorem note?_pass (c : Cursor) (fault : Option SyntaxFault) (range : Range) (count : Nat) :
    (c.note? fault range).pass count = (c.pass count).note? fault range := by
  cases fault <;> rfl

@[simp] theorem note?_rest (c : Cursor) (fault : Option SyntaxFault) (range : Range) :
    (c.note? fault range).rest = c.rest := by
  cases fault <;> rfl

@[simp] theorem note?_offset (c : Cursor) (fault : Option SyntaxFault) (range : Range) :
    (c.note? fault range).offset = c.offset := by
  cases fault <;> rfl

@[simp] theorem note?_ahead (c : Cursor) (fault : Option SyntaxFault) (range : Range)
    (count : Nat) : (c.note? fault range).ahead count = c.ahead count := by
  cases fault <;> rfl

theorem On.note? (h : c.On source) (fault : Option SyntaxFault) {range : Range}
    (hrange : range.Spans source part) : (c.note? fault range).On source := by
  cases fault with
  | none => exact h
  | some fault => exact h.note fault hrange

theorem isAt_singleton (c : Cursor) (x : Char) : c.isAt [x] = decide (c.rest.head? = some x) := by
  rw [isAt]
  cases c.rest with
  | nil => rfl
  | cons y rest =>
    rw [List.isPrefixOf, List.isPrefixOf, Bool.and_true, List.head?_cons]
    by_cases h : x = y
    · simp [h]
    · simp [h, Ne.symm h]

theorem isAt_pair {c : Cursor} {x : Char} {more : List Char} (hrest : c.rest = x :: more)
    (y : Char) : c.isAt [x, y] = decide (more.head? = some y) := by
  have hsecond := isAt_singleton (c.pass 1) y
  simpa only [isAt, pass, hrest, List.drop_one, List.tail_cons, List.isPrefixOf, beq_self_eq_true,
    Bool.true_and] using hsecond

/-- After a minus sign, if there is one. -/
theorem pass_minus (c : Cursor) : (c.pass (minusOf c.rest).length).rest = unsigned c.rest := by
  rw [minusOf, unsigned, pass]
  by_cases h : c.rest.head? = some '-' <;> simp [h]

/-- After a minus sign, if there is one, and digits. -/
theorem pass_digits (c : Cursor) :
    (c.pass (minusOf c.rest ++ (unsigned c.rest).takeWhile Text.isDigit).length).rest =
      (unsigned c.rest).dropWhile Text.isDigit := by
  rw [pass]
  have hdrop := congrArg (List.drop (minusOf c.rest ++
    (unsigned c.rest).takeWhile Text.isDigit).length) (Parser.digits_append c.rest)
  rw [List.drop_left] at hdrop
  exact hdrop.symm

end Cursor

namespace Scan

variable {source : List Char} {c : Cursor}

/-! ### Reports and garbage -/

theorem reportFound_follows (wanted : Wanted) (c : Cursor) :
    Follows source (reportFound wanted) (Parser.reportFound wanted) c :=
  .step found_apply id (.step nextRange_apply id fun hc =>
    FollowsAt.error (.expected wanted c.found) (fun hc => ⟨_, hc.ahead_spans 1⟩) hc)

theorem rejectBlanks_follows (fault : SyntaxFault) (c : Cursor) :
    Follows source (rejectBlanks fault) (Parser.rejectBlanks fault) c := by
  intro hc
  have hblanks : ∃ part, (c.ahead c.blanks).Spans source part := ⟨_, hc.ahead_spans _⟩
  refine FollowsAt.skipBoth ?_ hc
  split
  · exact .error fault fun _ => hblanks
  · exact .pure ()

theorem skipGarbage_follows (wanted : Wanted) (stops : List Char) (c : Cursor) :
    Follows source (skipGarbage wanted stops) (Parser.skipGarbage wanted stops) c := by
  refine .position (.bumpWhile (.position ?_))
  have htake := Text.take_takeWhile_length (fun x => !stops.contains x) c.rest
  have hparser : Parser.skipGarbage wanted stops c =
      if (c.rest.takeWhile fun x => !stops.contains x).isEmpty then ((), c)
      else ((), (c.pass (c.rest.takeWhile fun x => !stops.contains x).length).note
        (.expected wanted (.text (c.rest.takeWhile fun x => !stops.contains x)))
        (c.ahead (c.rest.takeWhile fun x => !stops.contains x).length)) := rfl
  generalize c.rest.takeWhile (fun x => !stops.contains x) = garbage at htake hparser ⊢
  intro hc hd
  have hahead := hc.ahead_spans garbage.length
  cases garbage with
  | nil =>
    rw [if_neg (by simp), hparser]
    exact ⟨by simp; rfl, hc, Nat.le_refl _⟩
  | cons x more =>
    have hoffset : (c.pass (x :: more).length).offset =
        c.offset + Text.byteLength (x :: more) := by
      rw [Cursor.pass, htake]
    have hpos : c.offset < (c.pass (x :: more).length).offset := by
      have := x.utf8Size_pos
      rw [hoffset, Text.byteLength_cons]
      omega
    rw [if_pos hpos, hparser]
    rw [htake] at hahead
    refine ⟨?_, hd.note _ hahead, (Cursor.Run.garbage c _ _).length_le⟩
    refine (bind_apply (range_apply hahead _)).trans ((bind_apply (slice_apply hahead _)).trans ?_)
    exact error_apply _ hahead

end Scan

/-! ### Numbers -/

namespace Parser

namespace IntegerText

/-- What is wrong with the digits of an index at a cursor. -/
def digitsFault (t : IntegerText) (c : Cursor) : Option SyntaxFault :=
  if t.digits.isEmpty then some (.expected .integer (c.pass t.wholeLength).found)
  else if 1 < t.digits.length && t.digits.head? = some '0' then some (.leadingZeros .integer)
  else if t.negative && t.digits = ['0'] then some .negativeZero
  else none

def tailFault (t : IntegerText) : Option SyntaxFault :=
  if t.tail.isEmpty then none else some .decimalIndex

def length (t : IntegerText) : Nat := t.wholeLength + t.tail.length

/-- A cursor with what is wrong with an index that begins there. -/
def check (t : IntegerText) (c : Cursor) : Cursor :=
  (c.note? (t.digitsFault c) (c.ahead t.wholeLength)).note? t.tailFault (c.ahead t.length)

end IntegerText

/-- An index is reported and then taken as a whole. -/
theorem integer_apply {c : Cursor} {t : IntegerText} (ht : IntegerText.ofChars c.rest = t) :
    integer c =
      (⟨(take .number t.length (t.check c)).1, t.value⟩,
        (take .number t.length (t.check c)).2) := by
  unfold integer IntegerText.check IntegerText.digitsFault IntegerText.tailFault
  rw [get_bind, ht]
  dsimp only
  split
  · cases t.tail.isEmpty <;> rfl
  split
  · cases t.tail.isEmpty <;> rfl
  split
  · cases t.tail.isEmpty <;> rfl
  · cases t.tail.isEmpty <;> rfl

end Parser

namespace Scan

variable {source : List Char} {c : Cursor}

theorem minus_apply (hc : c.On source) :
    minus source c.place =
      .ok (decide (c.rest.head? = some '-'), (c.pass (minusOf c.rest).length).place) := by
  refine (bind_apply (isAt_apply hc _)).trans ?_
  rw [Cursor.isAt_singleton, minusOf]
  by_cases h : c.rest.head? = some '-'
  · simp only [h, decide_true, if_true]
    exact bind_apply (bump_apply hc)
  · simp only [h, decide_false, if_false, List.length_nil, Cursor.pass_zero]
    rfl

/-- Over the digits after a minus sign, if there is one. -/
theorem bumpDigits_apply {digits : List Char} {whole : Nat}
    (hdigits : (unsigned c.rest).takeWhile Text.isDigit = digits)
    (hwhole : whole = (minusOf c.rest ++ digits).length) (hc : c.On source) :
    bumpWhile Text.isDigit source (c.pass (minusOf c.rest).length).place =
      .ok (digits.length, (c.pass whole).place) := by
  have hbytes := Text.byteLength_digits (unsigned c.rest)
  rw [bumpWhile_apply _ (hc.pass _), Cursor.pass_minus, Cursor.pass_pass, hbytes, hdigits, hwhole,
    List.length_append]

theorem checkInteger_apply (t : IntegerText) (hc : c.On source) :
    checkInteger c.offset t.digits.length (c.pass t.wholeLength).offset t.negative t.digits
        source (c.pass t.wholeLength).place =
      .ok ((), ((c.note? (t.digitsFault c) (c.ahead t.wholeLength)).pass t.wholeLength).place) := by
  have hrange := range_apply (hc.ahead_spans t.wholeLength)
  have herror (fault : SyntaxFault) := error_apply (c := c.pass t.wholeLength) fault
    (hc.ahead_spans t.wholeLength)
  have hempty : (t.digits.length = 0) = (t.digits.isEmpty = true) := by simp
  rw [Cursor.note?_pass, checkInteger, IntegerText.digitsFault]
  simp only [hempty]
  split
  · exact (bind_apply (found_apply (hc.pass _))).trans
      ((bind_apply rfl).trans ((bind_apply (hrange _)).trans (herror _)))
  split
  · exact (bind_apply (hrange _)).trans (herror _)
  split
  · exact (bind_apply (hrange _)).trans (herror _)
  · rfl

theorem decimalTail_apply {t : IntegerText} (ht : IntegerText.ofChars c.rest = t)
    (hc : c.On source) :
    decimalTail c.offset source (c.pass t.wholeLength).place =
      .ok ((), ((c.note? t.tailFault (c.ahead t.length)).pass t.length).place) := by
  have hrest : (c.pass t.wholeLength).rest = (unsigned c.rest).dropWhile Text.isDigit := by
    rw [← ht, IntegerText.wholeLength_ofChars, Cursor.pass_digits]
  have htail : t.tail = IntegerText.tailOf (c.pass t.wholeLength).rest := by
    rw [hrest, ← ht]
    rfl
  have hd := hc.pass t.wholeLength
  have hrange := range_apply (hc.ahead_spans t.length)
  have herror := error_apply (c := c.pass t.length) .decimalIndex (hc.ahead_spans t.length)
  have hlength : c.pass t.length = (c.pass t.wholeLength).pass t.tail.length :=
    (c.pass_pass _ _).symm
  have hstop : (c.ahead t.length).stop = (c.pass t.length).offset := rfl
  rw [Cursor.note?_pass, IntegerText.tailFault]
  rw [hstop] at hrange
  refine (bind_apply (peek_apply hd)).trans ?_
  cases hnext : (c.pass t.wholeLength).rest with
  | nil =>
    rw [htail, hnext] at hlength ⊢
    rw [hlength]
    simp [IntegerText.tailOf]
    rfl
  | cons x more =>
    have hmore : ((c.pass t.wholeLength).pass 1).rest = more := by
      simpa [Cursor.pass] using congrArg List.tail hnext
    rw [hnext, IntegerText.tailOf] at htail
    dsimp only [List.head?_cons]
    split
    · rename_i hmark
      rw [if_pos hmark] at htail
      have hpassed : ((c.pass t.wholeLength).pass 1).pass
          (((c.pass t.wholeLength).pass 1).rest.takeWhile
            fun c => Text.isDigit c || c = '+' || c = '-').length = c.pass t.length := by
        rw [hlength, Cursor.pass_pass _ 1, hmore, htail, List.length_cons, Nat.add_comm 1]
      refine (bind_apply (bump_apply hd)).trans ?_
      refine (bind_apply (bumpWhile_apply _ (hd.pass 1))).trans ?_
      rw [hpassed]
      refine (bind_apply (a := (c.pass t.length).offset) rfl).trans ?_
      refine (bind_apply (hrange _)).trans (herror.trans ?_)
      rw [htail]
      rfl
    · rename_i hmark
      rw [if_neg hmark] at htail
      rw [hlength, htail]
      simp
      rfl

theorem integer_follows (c : Cursor) : Follows source integer Parser.integer c := by
  intro hc _
  obtain ⟨t, ht⟩ : ∃ t, IntegerText.ofChars c.rest = t := ⟨_, rfl⟩
  have hdigits : (unsigned c.rest).takeWhile Text.isDigit = t.digits := by
    rw [← ht]
    rfl
  have hwhole : t.wholeLength = (minusOf c.rest ++ t.digits).length := by
    rw [← hdigits, ← ht, IntegerText.wholeLength_ofChars]
  have hnegative : decide (c.rest.head? = some '-') = t.negative := by
    rw [← ht]
    rfl
  have hslice (place : Place) :
      slice (c.pass (minusOf c.rest).length).offset (c.pass t.wholeLength).offset source place =
        .ok (t.digits, place) := by
    have hspans := (hc.pass (minusOf c.rest).length).ahead_spans t.digits.length
    rw [Cursor.pass_minus, ← hdigits, Text.take_takeWhile_length, hdigits] at hspans
    rw [hwhole, List.length_append, ← Cursor.pass_pass]
    exact slice_apply hspans place
  have hnoted := hc.note? (t.digitsFault c) (hc.ahead_spans t.wholeLength)
  have hchecked : (t.check c).On source := hnoted.note? t.tailFault (hc.ahead_spans t.length)
  have hrest : (t.check c).rest = c.rest := by simp [IntegerText.check]
  have htail := decimalTail_apply (t := t) (by rw [Cursor.note?_rest, ht]) hnoted
  rw [Cursor.note?_offset, Cursor.note?_ahead] at htail
  have htoken := token_apply .number t.length hchecked
  rw [IntegerText.check, Cursor.note?_offset, Cursor.note?_offset] at htoken
  rw [Parser.integer_apply ht]
  refine ⟨?_, hchecked.take .number t.length, ?_⟩
  · refine (bind_apply (a := c.offset) rfl).trans ((bind_apply (minus_apply hc)).trans ?_)
    refine (bind_apply (a := (c.pass (minusOf c.rest).length).offset) rfl).trans ?_
    refine (bind_apply (bumpDigits_apply hdigits hwhole hc)).trans ?_
    rw [hnegative]
    refine (bind_apply (a := (c.pass t.wholeLength).offset) rfl).trans ?_
    refine (bind_apply (hslice _)).trans ((bind_apply (checkInteger_apply t hc)).trans ?_)
    refine (bind_apply (slice_apply (hc.ahead_spans t.wholeLength) _)).trans ?_
    exact (bind_apply htail).trans ((bind_apply htoken).trans rfl)
  · rw [← hrest]
    exact (Cursor.Run.token (t.check c) .number t.length).length_le

theorem bound?_follows (c : Cursor) : Follows source bound? Parser.bound? c := by
  refine .peekBoth ?_
  cases c.rest.head? with
  | none => exact .pure none
  | some x =>
    dsimp only
    split
    · exact .map (integer_follows c)
    · exact .pure none

end Scan

namespace Parser

namespace NumberText

/-- What is wrong with the digits of a number at a cursor. -/
def digitsFault (t : NumberText) (c : Cursor) : Option SyntaxFault :=
  if t.digits.isEmpty then some (.expected .number (c.pass t.wholeLength).found)
  else if 1 < t.digits.length && t.digits.head? = some '0' then some (.leadingZeros .number)
  else none

def fractionFault (fraction : Option (List Char)) : Option SyntaxFault :=
  if fraction = some [] then some .missingFraction else none

def exponentFault (exponent : Option (List Char × List Char)) : Option SyntaxFault :=
  if exponent.any fun e => e.2.isEmpty then some .missingExponent else none

/-- A cursor with what is wrong with a number that begins there. -/
def check (t : NumberText) (c : Cursor) : Cursor :=
  ((c.note? (t.digitsFault c) (c.ahead t.wholeLength)).note?
    (fractionFault t.fraction) (c.ahead t.fractionLength)).note?
      (exponentFault t.exponent) (c.ahead t.length)

end NumberText

/-- A number is reported and then taken as a whole. -/
theorem numberLiteral_apply {c d : Cursor} {t : NumberText}
    (hd : d = { c with nextId := c.nextId + 1 }) (ht : NumberText.ofChars d.rest = t) :
    numberLiteral c =
      (.literal c.nextId (take .number t.length (t.check d)).1
        (numberValue (take .number t.length (t.check d)).1.text),
        (take .number t.length (t.check d)).2) := by
  unfold numberLiteral NumberText.check NumberText.digitsFault NumberText.fractionFault
    NumberText.exponentFault
  have hid : freshId c = (c.nextId, d) := by rw [hd]; rfl
  rw [bind_apply, hid, get_bind, ht]
  cases t.exponent.any fun e => e.2.isEmpty <;> by_cases hfraction : t.fraction = some []
  all_goals
    simp only [hfraction, if_true, if_false]
    split
    · rfl
    split
    · rfl
    · rfl

end Parser

namespace Scan

variable {source : List Char} {c : Cursor}

theorem head?_digits (chars : List Char) :
    (chars.takeWhile Text.isDigit).head? = some '0' ↔ chars.head? = some '0' := by
  rw [List.head?_takeWhile, Option.filter_eq_some_iff]
  exact and_iff_left rfl

theorem wholePart_apply {t : NumberText} (ht : NumberText.ofChars c.rest = t)
    (hc : c.On source) :
    wholePart c.offset source (c.pass (minusOf c.rest).length).place =
      .ok ((), ((c.note? (t.digitsFault c) (c.ahead t.wholeLength)).pass t.wholeLength).place) := by
  have hdigits : (unsigned c.rest).takeWhile Text.isDigit = t.digits := by
    rw [← ht]
    rfl
  have hwhole : t.wholeLength = (minusOf c.rest ++ t.digits).length := by
    rw [← hdigits, ← ht, NumberText.wholeLength_ofChars]
  have hrange := range_apply (hc.ahead_spans t.wholeLength)
  have herror (fault : SyntaxFault) := error_apply (c := c.pass t.wholeLength) fault
    (hc.ahead_spans t.wholeLength)
  refine (bind_apply (a := (c.pass (minusOf c.rest).length).offset) rfl).trans ?_
  refine (bind_apply (bumpDigits_apply hdigits hwhole hc)).trans ?_
  have hempty : (t.digits.length = 0) = (t.digits.isEmpty = true) := by simp
  have hzero : (t.digits.head? = some '0') = ((unsigned c.rest).head? = some '0') := by
    rw [← hdigits, head?_digits]
  rw [Cursor.note?_pass, NumberText.digitsFault]
  simp only [hempty, hzero, Bool.and_eq_true, decide_eq_true_eq]
  split
  · exact (bind_apply (found_apply (hc.pass _))).trans
      ((bind_apply rfl).trans ((bind_apply (hrange _)).trans (herror _)))
  by_cases hlong : 1 < t.digits.length
  · have hslice := slice_apply (hc.pass (minusOf c.rest).length).rest_spans
    rw [Cursor.pass_minus] at hslice
    simp only [hlong, if_true, true_and]
    refine (bind_apply (a := Text.byteLength source) rfl).trans ((bind_apply (hslice _)).trans ?_)
    split
    · exact (bind_apply rfl).trans ((bind_apply (hrange _)).trans (herror _))
    · rfl
  · simp only [hlong, if_false, false_and]
    rfl

/-- Over digits which must not be missing, after so many characters of a number. -/
theorem bumpRequired_apply (fault : SyntaxFault) (count : Nat) {digits : List Char}
    (hdigits : (c.pass count).rest.takeWhile Text.isDigit = digits) (hc : c.On source) :
    (do
      let digits ← bumpWhile Text.isDigit
      if digits = 0 then error fault (← range c.offset (← position)) else return ())
        source (c.pass count).place =
      .ok ((), ((c.note? (if digits = [] then some fault else none)
        (c.ahead (count + digits.length))).pass (count + digits.length)).place) := by
  have hrange := range_apply (hc.ahead_spans (count + digits.length))
  have herror := error_apply (c := c.pass (count + digits.length)) fault
    (hc.ahead_spans (count + digits.length))
  have hbytes := Text.byteLength_digits (c.pass count).rest
  refine (bind_apply (bumpWhile_apply _ (hc.pass count))).trans ?_
  rw [hbytes, hdigits, Cursor.pass_pass, Cursor.note?_pass]
  have hempty : (digits.length = 0) = (digits = []) := by simp
  simp only [hempty]
  split
  · exact (bind_apply rfl).trans ((bind_apply (hrange _)).trans herror)
  · rfl

/-- Over a fraction, if there is one, after so many characters of a number. -/
theorem fractionPart_apply (count : Nat) (fraction : Option (List Char))
    (hfraction : NumberText.fractionOf (c.pass count).rest = fraction) (hc : c.On source) :
    fractionPart c.offset source (c.pass count).place =
      .ok ((), ((c.note? (NumberText.fractionFault fraction)
        (c.ahead (count + NumberText.fractionSize fraction))).pass
          (count + NumberText.fractionSize fraction)).place) := by
  have hd := hc.pass count
  refine (bind_apply (isAt_apply hd _)).trans ?_
  rw [Cursor.isAt_singleton]
  by_cases hpoint : (c.pass count).rest.head? = some '.'
  · obtain ⟨more, hrest⟩ := List.head?_eq_some_iff.mp hpoint
    have hmore : (c.pass (count + 1)).rest = more := by
      rw [← Cursor.pass_pass]
      simpa [Cursor.pass] using congrArg List.tail hrest
    rw [hrest, NumberText.fractionOf] at hfraction
    subst hfraction
    simp only [hpoint, decide_true, if_true]
    refine (bind_apply (bump_apply hd)).trans ?_
    rw [Cursor.pass_pass, NumberText.fractionSize, ← Nat.add_assoc]
    refine (bumpRequired_apply .missingFraction (count + 1) (by rw [hmore]) hc).trans ?_
    simp only [NumberText.fractionFault, Option.some_inj]
  · have hnone : NumberText.fractionOf (c.pass count).rest = none := by
      unfold NumberText.fractionOf
      split
      · rename_i more hrest
        exact absurd (by rw [hrest, List.head?_cons]) hpoint
      · rfl
    simp only [hpoint, decide_false, ← hfraction, hnone]
    rfl

theorem exponentSign_apply (hc : c.On source) :
    exponentSign source c.place =
      .ok ((), (c.pass (NumberText.signOf c.rest).length).place) := by
  refine (bind_apply (peek_apply hc)).trans ?_
  rw [NumberText.signOf]
  cases hnext : c.rest.head? with
  | none =>
    rw [List.length_nil, Cursor.pass_zero]
    rfl
  | some x =>
    dsimp only
    split
    · rename_i hsign
      have hsign : x = '+' ∨ x = '-' := by simpa using hsign
      rcases hsign with rfl | rfl <;> exact bind_apply (bump_apply hc)
    · rename_i hsign
      have hnone : x ≠ '+' ∧ x ≠ '-' := by simpa using hsign
      split
      · rename_i h
        exact absurd (Option.some.inj h) hnone.1
      · rename_i h
        exact absurd (Option.some.inj h) hnone.2
      · rw [List.length_nil, Cursor.pass_zero]
        rfl

/-- Over an exponent, if there is one, after so many characters of a number. -/
theorem exponentPart_apply (count : Nat) (exponent : Option (List Char × List Char))
    (hexponent : NumberText.exponentOf (c.pass count).rest = exponent) (hc : c.On source) :
    exponentPart c.offset source (c.pass count).place =
      .ok ((), ((c.note? (NumberText.exponentFault exponent)
        (c.ahead (count + NumberText.exponentSize exponent))).pass
          (count + NumberText.exponentSize exponent)).place) := by
  have hd := hc.pass count
  refine (bind_apply (peek_apply hd)).trans ?_
  cases hrest : (c.pass count).rest with
  | nil =>
    rw [hrest, NumberText.exponentOf] at hexponent
    subst hexponent
    rfl
  | cons x more =>
    have hmore : (c.pass (count + 1)).rest = more := by
      rw [← Cursor.pass_pass]
      simpa [Cursor.pass] using congrArg List.tail hrest
    rw [hrest, NumberText.exponentOf] at hexponent
    subst hexponent
    dsimp only [List.head?_cons]
    split
    · refine (bind_apply (bump_apply hd)).trans ?_
      rw [Cursor.pass_pass]
      refine (bind_apply (exponentSign_apply (hc.pass _))).trans ?_
      rw [Cursor.pass_pass, hmore, NumberText.exponentSize, ← Nat.add_assoc, ← Nat.add_assoc]
      have hdrop : (c.pass (count + 1 + (NumberText.signOf more).length)).rest =
          more.drop (NumberText.signOf more).length := by
        rw [← Cursor.pass_pass, Cursor.pass, hmore]
      refine (bumpRequired_apply .missingExponent _ (by rw [hdrop]) hc).trans ?_
      simp only [NumberText.exponentFault, Option.any_some, List.isEmpty_iff]
    · rfl

theorem numberLiteral_follows (c : Cursor) :
    Follows source numberLiteral Parser.numberLiteral c := by
  intro hc _
  obtain ⟨d, hd⟩ : ∃ d : Cursor, d = { c with nextId := c.nextId + 1 } := ⟨_, rfl⟩
  obtain ⟨t, ht⟩ : ∃ t, NumberText.ofChars d.rest = t := ⟨_, rfl⟩
  have hon : d.On source := hd ▸ hc.element
  have hwhole := hon.note? (t.digitsFault d) (hon.ahead_spans t.wholeLength)
  have hfraction := hwhole.note? (NumberText.fractionFault t.fraction)
    (hon.ahead_spans t.fractionLength)
  have hchecked : (t.check d).On source :=
    hfraction.note? (NumberText.exponentFault t.exponent) (hon.ahead_spans t.length)
  have hrest : (t.check d).rest = c.rest := by
    simp [NumberText.check, hd]
  have hafter : (d.pass t.wholeLength).rest = (unsigned d.rest).dropWhile Text.isDigit := by
    rw [← ht, NumberText.wholeLength_ofChars, Cursor.pass_digits]
  have hpoint : NumberText.fractionOf (d.pass t.wholeLength).rest = t.fraction := by
    rw [hafter, ← ht]
    rfl
  have hmark : NumberText.exponentOf (d.pass t.fractionLength).rest = t.exponent := by
    rw [NumberText.fractionLength, ← Cursor.pass_pass, Cursor.pass, hafter, ← ht]
    rfl
  have hid : freshId source c.place = .ok (c.nextId, d.place) := by rw [hd]; rfl
  have hfractionPart := fractionPart_apply t.wholeLength t.fraction
    (by rw [Cursor.note?_pass, Cursor.note?_rest, hpoint]) hwhole
  have hexponentPart := exponentPart_apply t.fractionLength t.exponent
    (by rw [Cursor.note?_pass, Cursor.note?_pass, Cursor.note?_rest, Cursor.note?_rest, hmark])
    hfraction
  have htoken := token_apply .number t.length hchecked
  rw [NumberText.check] at htoken
  simp only [Cursor.note?_offset, Cursor.note?_ahead] at hfractionPart hexponentPart htoken
  rw [Parser.numberLiteral_apply hd ht]
  refine ⟨?_, hchecked.take .number t.length, ?_⟩
  · refine (bind_apply hid).trans ((bind_apply (a := d.offset) rfl).trans ?_)
    refine (bind_apply (minus_apply hon)).trans ((bind_apply (wholePart_apply ht hon)).trans ?_)
    refine (bind_apply hfractionPart).trans ((bind_apply hexponentPart).trans ?_)
    exact (bind_apply htoken).trans rfl
  · rw [← hrest]
    exact (Cursor.Run.token (t.check d) .number t.length).length_le

end Scan

/-! ### Names and strings -/

theorem Range.spans_append {chars before part : List Char} (after : List Char) {start stop : Nat}
    (hchars : chars = before ++ part ++ after) (hstart : start = Text.byteLength before)
    (hstop : stop = start + Text.byteLength part) : (⟨start, stop⟩ : Range).Spans chars part :=
  ⟨before, after, hchars, hstart, by rw [hstop, hstart, Text.byteLength_append]⟩

/-- What stands at a range of a part of a text stands in the text, as far on as the part does. -/
theorem Range.Spans.shift {r inner : Range} {chars part piece : List Char}
    (h : r.Spans chars part) (hinner : inner.Spans part piece) :
    (⟨r.start + inner.start, r.start + inner.stop⟩ : Range).Spans chars piece := by
  obtain ⟨before, after, rfl, hstart, -⟩ := h
  obtain ⟨before', after', rfl, hstart', hstop'⟩ := hinner
  refine ⟨before ++ before', after' ++ after, by simp, ?_, ?_⟩
  · rw [hstart, hstart', Text.byteLength_append]
  · rw [hstart, hstop', List.append_assoc, Text.byteLength_append before]

namespace StringLiteral

/-- The number of characters of a body and the closing quote, if there is one. -/
def bodyLength (quote : Char) (chars : List Char) : Nat :=
  (body quote chars).1.length + if (body quote chars).2 then 1 else 0

theorem body_unclosed (quote : Char) (l : List Char) (hclosed : (body quote l).2 = false) :
    (body quote l).1 = l := by
  fun_induction body quote l with
  | case1 => rfl
  | case2 => cases hclosed
  | case3 => rfl
  | case4 => cases hclosed
  | case5 d rest chars closed hbody hne ih =>
    rw [hbody] at ih
    simpa using ih hclosed
  | case6 c d rest hne hslash chars closed hbody ih =>
    rw [hbody] at ih
    simpa using ih hclosed

/-- The faults of a body lie inside it. -/
theorem decodeFrom_spans (quote : Char) {skip offset : Nat} {chars before rest : List Char}
    (hchars : chars = before ++ rest) (hoffset : offset = Text.byteLength before) :
    ∀ fault ∈ (decodeFrom quote skip offset rest).2, ∃ part, fault.range.Spans chars part := by
  fun_induction decodeFrom quote skip offset rest generalizing before with
  | case1 => exact List.forall_mem_nil _
  | case2 skip offset c rest ih =>
    have hchars' : chars = (before ++ [c]) ++ rest := by simp [hchars]
    exact ih hchars' (by simp [hoffset])
  | case3 offset =>
    refine List.forall_mem_singleton.mpr ⟨['\\'], ?_⟩
    exact Range.spans_append [] (by simp [hchars]) hoffset rfl
  | case4 offset d more e chars' faults hrest stop =>
    rename_i ih
    have hchars' : chars = (before ++ ['\\']) ++ d :: more := by simp [hchars]
    have hfaults := ih hchars' (by rw [hoffset, Text.byteLength_append]; rfl)
    rw [hrest] at hfaults
    refine List.forall_mem_append.mpr ⟨fun fault hfault => ?_, hfaults⟩
    obtain ⟨what, -, rfl⟩ := Option.map_eq_some_iff.mp (Option.mem_toList.mp hfault)
    refine ⟨'\\' :: (d :: more).take e.length, Range.spans_append
      ((d :: more).drop e.length) ?_ hoffset ?_⟩
    · rw [hchars, List.append_assoc, List.cons_append, List.take_append_drop]
    · rw [Text.byteLength_cons, ← Nat.add_assoc]
      rfl
  | case5 offset c rest hslash chars' faults hrest hcontrol ih =>
    have hchars' : chars = (before ++ [c]) ++ rest := by simp [hchars]
    have hfaults := ih hchars' (by simp [hoffset])
    rw [hrest] at hfaults
    refine List.forall_mem_cons.mpr ⟨⟨[c], ?_⟩, hfaults⟩
    have hsize : c.utf8Size = 1 := Text.utf8Size_of_ascii (Nat.lt_trans hcontrol (by decide))
    exact Range.spans_append rest (by simp [hchars]) hoffset (by simp [hsize])
  | case6 offset c rest hslash chars' faults hrest hcontrol ih =>
    have hchars' : chars = (before ++ [c]) ++ rest := by simp [hchars]
    have hfaults := ih hchars' (by simp [hoffset])
    rw [hrest] at hfaults
    exact hfaults

theorem decode_spans (quote : Char) (body : List Char) :
    ∀ fault ∈ (decode quote body).2, ∃ part, fault.range.Spans body part :=
  decodeFrom_spans quote (List.nil_append body).symm rfl

end StringLiteral

namespace Scan

open StringLiteral (body bodyLength body_quote body_plain body_slash)

variable {source : List Char} {c : Cursor}

theorem stringBody_apply {quote : Char} (hslash : '\\' ≠ quote) {rounds : Nat}
    (hc : c.On source) (hrounds : c.rest.length < rounds) :
    stringBody quote rounds source c.place =
      .ok ((body quote c.rest).2, (c.pass (bodyLength quote c.rest)).place) := by
  induction rounds generalizing c with
  | zero => omega
  | succ rounds ih =>
    refine (bind_apply (a := c.offset) rfl).trans ((bind_apply (peek_apply hc)).trans ?_)
    cases hrest : c.rest with
    | nil => simp [body, bodyLength]; rfl
    | cons x more =>
      have hnext : (c.pass 1).rest = more := by simp [Cursor.pass, hrest]
      have hlt : (c.pass 1).rest.length < c.rest.length := by simp [hnext, hrest]
      dsimp only [List.head?_cons]
      split
      · rename_i hx
        subst hx
        refine (bind_apply (bump_apply hc)).trans ((bind_apply (bump_apply (hc.pass 1))).trans ?_)
        cases more with
        | nil =>
          rw [Cursor.pass_of_rest_nil hnext]
          refine (bind_apply (advanced_apply hc (hc.pass 1) hlt)).trans ?_
          rw [ih (hc.pass 1) (by omega), hnext]
          simp [bodyLength, body, hslash]
        | cons y more =>
          have hnext' : (c.pass 2).rest = more := by simp [Cursor.pass, hrest]
          have hlt' : (c.pass 2).rest.length < c.rest.length := by
            rw [hnext', hrest, List.length_cons, List.length_cons]
            omega
          rw [Cursor.pass_pass]
          refine (bind_apply (advanced_apply hc (hc.pass 2) hlt')).trans ?_
          rw [ih (hc.pass 2) (by omega), Cursor.pass_pass, hnext', bodyLength, bodyLength,
            body_slash hslash]
          have hlength (n k : Nat) : 2 + (n + k) = n + 1 + 1 + k := by omega
          rw [hlength]
          rfl
      split
      · rename_i hx
        subst hx
        refine (bind_apply (bump_apply hc)).trans ?_
        rw [bodyLength, body_quote]
        rfl
      · rename_i hx hquote
        refine (bind_apply (bump_apply hc)).trans ?_
        refine (bind_apply (advanced_apply hc (hc.pass 1) hlt)).trans ?_
        rw [ih (hc.pass 1) (by omega), Cursor.pass_pass, hnext, bodyLength, bodyLength,
          body_plain hquote hx, List.length_cons, Nat.add_right_comm, Nat.add_comm]

/-- A fault of a decoded body is reported as far on as the body stands. -/
theorem reportEscapes_bind {α : Type} {count : Nat} {inside : Range} {part : List Char}
    {faults : List (Located EscapeFault)} {f : Unit → Scan α} {g : PUnit → Parser α}
    (hinside : inside.Spans source part)
    (hfaults : ∀ fault ∈ faults, ∃ piece, fault.range.Spans part piece)
    (h : ∀ d : Cursor, d.rest = c.rest → d.offset = c.offset →
      FollowsAt source (d.pass count) (f ()) (g ⟨⟩) d) :
    FollowsAt source (c.pass count) (reportEscapes inside.start faults >>= f)
      (forIn faults PUnit.unit (fun fault _ => do
        Parser.report (.escape fault.what)
          ⟨inside.start + fault.range.start, inside.start + fault.range.stop⟩
        return .yield PUnit.unit) >>= g) c := by
  induction faults generalizing c with
  | nil => exact h c rfl rfl
  | cons fault rest ih =>
    rw [List.forall_mem_cons] at hfaults
    obtain ⟨⟨piece, hpiece⟩, hrest⟩ := hfaults
    simp only [List.forIn_cons, bind_assoc, pure_bind, reportEscapes]
    have hspans := hinside.shift hpiece
    exact .range (fun _ => hspans) (.report (fun _ => ⟨piece, hspans⟩) (ih hrest h))

/-- Past the closing quote, the body between the quotes is decoded. -/
theorem stringEnd_follows (quote : Char) (count : Nat) {inside : Range} {chars : List Char}
    (hinside : inside.Spans source chars) :
    FollowsAt source (c.pass count)
      (do
        let body ← slice inside.start inside.stop
        let (value, faults) := StringLiteral.unescape quote body
        reportEscapes inside.start faults
        return (← token .string c.offset, String.ofList value))
      (do
        let (value, faults) := StringLiteral.decode quote chars
        for fault in faults do
          Parser.report (.escape fault.what)
            ⟨inside.start + fault.range.start, inside.start + fault.range.stop⟩
        return (← Parser.take .string count, String.ofList value)) c := by
  have hdecode := StringLiteral.decode_spans quote chars
  refine .slice (fun _ => hinside) ?_
  rw [StringLiteral.unescape_eq_decode]
  generalize StringLiteral.decode quote chars = decoded at *
  refine reportEscapes_bind hinside hdecode fun d _ hoffset => ?_
  rw [← hoffset]
  exact .token_bind fun _ _ _ => .pure _

/-- A literal between quotes of the kind that comes next. -/
theorem stringLiteral_follows {quote : Char} (hmark : quote = '\'' ∨ quote = '"')
    (hquote : c.rest.head? = some quote) :
    Follows source stringLiteral (Parser.stringLiteral quote) c := by
  intro hc _
  obtain ⟨rest, hrest⟩ := List.head?_eq_some_iff.mp hquote
  have hslash : '\\' ≠ quote := by rcases hmark with rfl | rfl <;> decide
  have hsize : quote.utf8Size = 1 := by rcases hmark with rfl | rfl <;> rfl
  have hd := hc.pass 1
  have hnext : (c.pass 1).rest = rest := by simp [Cursor.pass, hrest]
  have hstart : c.offset + 1 = (c.pass 1).offset := by simp [Cursor.pass, hrest, hsize]
  have hparser : c.rest.drop 1 = rest := by rw [hrest, List.drop_one, List.tail_cons]
  have hrounds : (c.pass 1).rest.length < source.length + 1 := Nat.lt_succ_of_le hd.length_le
  have hbody := stringBody_apply hslash hd hrounds
  rw [Cursor.pass_pass, hnext, bodyLength, ← Nat.add_assoc] at hbody
  have hunclosed := StringLiteral.body_unclosed quote rest
  have hclosed := StringLiteral.body_take quote rest
  refine FollowsAt.position (.bump ?_) hc hc
  rw [hquote]
  refine .budget (.step (fun _ => hbody) (fun _ => hc.pass _) (.position ?_))
  unfold Parser.stringLiteral
  refine FollowsAt.get ?_
  rw [hparser]
  generalize body quote rest = found at *
  obtain ⟨chars, closed⟩ := found
  cases closed with
  | false =>
    obtain rfl := hunclosed rfl
    have hinside := hd.ahead_spans chars.length
    rw [hnext, List.take_length] at hinside
    have hstop : (c.pass (1 + chars.length)).offset = ((c.pass 1).ahead chars.length).stop := by
      rw [← Cursor.pass_pass]
      rfl
    refine .range (fun _ => hc.ahead_spans _) (.report (fun _ => ⟨_, hc.ahead_spans _⟩) ?_)
    simp only [Bool.false_eq_true, if_false, Nat.add_zero, hstart, hstop]
    exact stringEnd_follows quote _ hinside
  | true =>
    obtain ⟨after, hafter⟩ := hclosed rfl
    have hinside := hd.ahead_spans chars.length
    rw [hnext, ← hafter, List.append_assoc, List.take_left] at hinside
    have hstop : (c.pass (1 + chars.length + 1)).offset - 1 =
        ((c.pass 1).ahead chars.length).stop := by
      have hquoted : ((c.pass 1).pass chars.length).rest = quote :: after := by
        rw [Cursor.pass, hnext, ← hafter, List.append_assoc, List.drop_left]
        rfl
      rw [← Cursor.pass_pass, ← Cursor.pass_pass, Cursor.pass, hquoted]
      simp [Cursor.pass, Cursor.ahead, hsize]
    simp only [if_true, Bool.not_true, Bool.false_eq_true, if_false, hstart, hstop]
    exact stringEnd_follows quote _ hinside

/-- A string in quotes becomes a part of the query. -/
theorem quoted_follows (make : Nat → Token → String → α) {quote : Char}
    (hmark : quote = '\'' ∨ quote = '"') (hquote : c.rest.head? = some quote) :
    Follows source
      (do
        let id ← Scan.freshId
        let found ← stringLiteral
        return make id found.1 found.2)
      (do
        let id ← Parser.freshId
        let found ← Parser.stringLiteral quote
        return make id found.1 found.2) c :=
  .freshId fun _ => .bind (stringLiteral_follows hmark hquote) fun _ _ _ _ => .pure _

theorem shorthandSelector_follows (after : TokenKind) (c : Cursor) :
    Follows source (shorthandSelector after) (Parser.shorthandSelector after) c := by
  refine .freshId fun id => ?_
  generalize { c with nextId := c.nextId + 1 : Cursor } = d
  refine .peek ?_
  have hmissing : Follows source
      (do Scan.reportFound (.shorthand after); return Selector.missing id (← Scan.missing .name))
      (do Parser.reportFound (.shorthand after)
          return Selector.missing id (← Parser.missing .name)) d :=
    .bind (reportFound_follows _ d) fun _ e _ _ => .bind (.missing _) fun _ _ _ _ => .pure _
  refine FollowsAt.get ?_
  cases hrest : d.rest with
  | nil => exact hmissing
  | cons x more =>
    have hnext : d.rest.head? = some x := by rw [hrest, List.head?_cons]
    dsimp only [List.head?_cons]
    by_cases hstar : x = '*'
    · subst hstar
      exact .eat_bind (Cursor.byteLength_take_one hnext) fun _ _ _ => .pure _
    rw [if_neg hstar]
    split
    · rename_i hfirst
      have hname : Parser.isNameChar x = true := by simp [Parser.isNameChar, hfirst]
      have hlength : 1 + (more.takeWhile Parser.isNameChar).length =
          (d.rest.takeWhile Parser.isNameChar).length := by
        rw [hrest, List.takeWhile_cons_of_pos hname, List.length_cons, Nat.add_comm]
      simp only [hfirst, if_true, hlength]
      exact .position (.bumpWhile (.token_bind fun _ _ _ => .pure _))
    · rename_i hfirst
      simp only [hfirst]
      exact hmissing

end Scan

end JsonPath
