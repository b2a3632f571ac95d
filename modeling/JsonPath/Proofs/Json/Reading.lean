import JsonPath.Json.Reader
import JsonPath.Proofs.Syntax.Numbers

/-!
What is read from the text of a number. The digits that do not fit 64 bits are only counted, a
whole number without such digits is kept as it is, and any other one becomes a double, unless it is
out of range.
-/

namespace JsonPath.Json

namespace Reader

open Grammar

variable {α β : Type}

/-! ### Readers and the text that is left -/

/-- The result of a reader without the places in the text. -/
def forget : Except ReadError (α × Source) → Except ReadFault (α × List Char)
  | .ok (a, s) => .ok (a, s.rest)
  | .error e => .error e.fault

/-- From the text the reader takes a value and leaves a rest, or fails. -/
def Yields (p : Reader α) (w : List Char) (outcome : Except ReadFault (α × List Char)) : Prop :=
  ∀ s : Source, s.rest = w → forget (p.run s) = outcome

section Steps

variable {p : Reader α} {f : α → Reader β} {w rest : List Char} {a : α}

theorem Yields.bind {outcome : Except ReadFault (β × List Char)} (hp : Yields p w (.ok (a, rest)))
    (hf : Yields (f a) rest outcome) : Yields (p >>= f) w outcome := by
  intro s hs
  have hrun := hp s hs
  rw [StateT.run_bind]
  cases h : p.run s with
  | error e =>
    rw [h] at hrun
    cases hrun
  | ok next =>
    obtain ⟨b, s'⟩ := next
    rw [h] at hrun
    cases hrun
    exact hf s' rfl

theorem Yields.failed {fault : ReadFault} (hp : Yields p w (.error fault)) :
    Yields (p >>= f) w (.error fault) := by
  intro s hs
  have hrun := hp s hs
  rw [StateT.run_bind]
  cases h : p.run s with
  | error e =>
    rw [h] at hrun
    cases hrun
    rfl
  | ok next =>
    rw [h] at hrun
    cases hrun

theorem Yields.atSource {f : Source → Reader β} {outcome : Except ReadFault (β × List Char)}
    (hf : ∀ s : Source, s.rest = w → Yields (f s) w outcome) : Yields (get >>= f) w outcome :=
  fun s hs => hf s hs s hs

theorem yields_pure (a : α) (w : List Char) : Yields (pure a) w (.ok (a, w)) := by
  rintro s rfl
  rfl

theorem yields_fail (fault : ReadFault) (w : List Char) :
    Yields (fail fault : Reader α) w (.error fault) := by
  rintro s rfl
  rfl

theorem yields_peek (w : List Char) : Yields peek w (.ok (w.head?, w)) := by
  rintro s rfl
  rfl

theorem rest_advance (s : Source) : s.advance.rest = s.rest.tail := by
  obtain ⟨rest, line, column⟩ := s
  cases rest with
  | nil => rfl
  | cons c rest =>
    rw [Source.advance]
    split <;> rfl

theorem yields_skip (w : List Char) : Yields skip w (.ok ((), w.tail)) := by
  rintro s rfl
  exact congrArg (fun rest => Except.ok ((), rest)) (rest_advance s)

theorem rest_advances (passed : List Char) (s : Source) :
    (passed.foldl (fun s _ => s.advance) s).rest = s.rest.drop passed.length := by
  induction passed generalizing s with
  | nil => rfl
  | cons _ passed ih =>
    rw [List.foldl_cons, ih, rest_advance, List.length_cons, List.drop_tail]

theorem yields_digits {v : List Char} (hv : ∀ c ∈ v, IsDigit c) (hrest : Parser.EndsDigits rest) :
    Yields digits (v ++ rest) (.ok (v, rest)) := by
  intro s hs
  have htake := (Parser.takeWhile_digits hv hrest).1
  change forget (.ok (s.rest.takeWhile Text.isDigit, _)) = _
  rw [forget, rest_advances, hs, htake, List.drop_left]

/-- There is nothing to pass over before a number, nor at the end. -/
theorem takeWhile_blanks (hw : ∀ c, w.head? = some c → c = '-' ∨ IsDigit c) :
    (w.takeWhile fun c => c = ' ' || c = '\n' || c = '\t' || c = '\r') = [] := by
  cases w with
  | nil => rfl
  | cons c rest =>
    refine List.takeWhile_cons_of_neg ?_
    rcases hw c rfl with rfl | hdigit
    · simp
    · simp only [Bool.or_eq_true, decide_eq_true_eq, not_or]
      refine ⟨⟨⟨?_, ?_⟩, ?_⟩, ?_⟩ <;> (rintro rfl; simp [IsDigit] at hdigit)

theorem yields_peekToken (hw : ∀ c, w.head? = some c → c = '-' ∨ IsDigit c) :
    Yields peekToken w (.ok (w.head?, w)) := by
  have hblanks : Yields skipBlanks w (.ok ((), w)) := by
    rintro s rfl
    have hnone := takeWhile_blanks hw
    change forget (.ok ((), List.foldl _ s _)) = _
    rw [hnone]
    rfl
  exact hblanks.bind (yields_peek w)

end Steps

/-! ### Parts of a number -/

/-- The outcome of reading what is a number, or nothing if that is out of range. -/
def settle (result : Option α) (rest : List Char) : Except ReadFault (α × List Char) :=
  match result with
  | some a => .ok (a, rest)
  | none => .error .numberOutOfRange

/-- The number that digits denote after a number. -/
def decimalFrom (value : Nat) (digits : List Char) : Nat :=
  digits.foldl (fun n c => n * 10 + (c.toNat - 48)) value

/-- The double of the decimal notation. -/
def decimal? (negative : Bool) (significand : Nat) (scale : Int) : Option Number :=
  (Double.ofDecimal? negative significand scale).map .double

/-- The double scaled up or down by an exponent. -/
def scaled? (negative : Bool) (significand : Nat) (scale : Int) (down : Bool)
    (digits : List Char) : Option Number :=
  if Text.decimalValue digits < 2 ^ 31 then
    decimal? negative significand
      (if down then scale - Text.decimalValue digits else scale + Text.decimalValue digits)
  else if significand ≠ 0 && !down then none
  else some (.double (Double.zero negative))

/-- The number without fraction and exponent. -/
def whole? (negative : Bool) (significand : Nat) (scale : Int) : Option Number :=
  if negative && significand = 0 then some (.double (Double.zero true))
  else if scale ≠ 0 then decimal? negative significand scale
  else some (.ofInt (if negative then -significand else significand))

section Parts

variable (negative : Bool) (significand : Nat) (scale : Int)

theorem yields_double (w : List Char) :
    Yields (double negative significand scale) w
      (settle (decimal? negative significand scale) w) := by
  rw [double, decimal?]
  cases Double.ofDecimal? negative significand scale with
  | some d => exact yields_pure (Number.double d) w
  | none => exact yields_fail .numberOutOfRange w

theorem yields_whole (w : List Char) :
    Yields (whole negative significand scale) w (settle (whole? negative significand scale) w) := by
  unfold whole whole?
  split
  · exact yields_pure _ w
  · split
    · exact yields_double negative significand scale w
    · exact yields_pure _ w

theorem le_decimalFrom (value : Nat) (digits : List Char) : value ≤ decimalFrom value digits := by
  induction digits generalizing value with
  | nil => exact Nat.le_refl _
  | cons c rest ih =>
    have hnext := ih (value * 10 + (c.toNat - 48))
    have hle : value ≤ value * 10 + (c.toNat - 48) := by omega
    exact Nat.le_trans hle hnext

/-- An exponent of 31 bits is read digit by digit. -/
theorem yields_exponentDigits {large : Reader Unit} {digits : List Char}
    (hdigits : ∀ c ∈ digits, IsDigit c) (value : Nat) {rounds : Nat}
    (hrounds : digits.length ≤ rounds) (hsmall : decimalFrom value digits < 2 ^ 31) :
    Yields (exponentDigits large rounds value) digits
      (.ok (some (decimalFrom value digits), [])) := by
  induction digits generalizing value rounds with
  | nil =>
    cases rounds with
    | zero => exact yields_pure _ []
    | succ rounds => exact (yields_peek []).bind (yields_pure _ [])
  | cons c rest ih =>
    obtain ⟨rounds, rfl⟩ : ∃ n, rounds = n + 1 := ⟨rounds - 1, by simp at hrounds; omega⟩
    have hnext : value * 10 + (c.toNat - 48) < 2 ^ 31 :=
      Nat.lt_of_le_of_lt (le_decimalFrom _ rest) hsmall
    have hrest := ih (fun d hd => hdigits d (List.mem_cons_of_mem _ hd)) _
      (Nat.le_of_succ_le_succ hrounds) hsmall
    refine (yields_peek (c :: rest)).bind ?_
    change Yields (if Text.isDigit c then _ else _) _ _
    rw [if_pos (isDigit_iff.mpr (hdigits c (List.mem_cons_self ..)))]
    refine (yields_skip (c :: rest)).bind ?_
    change Yields (if value * 10 + (c.toNat - 48) < 2 ^ 31 then _ else _) _ _
    rw [if_pos hnext]
    exact hrest

/-- A longer one is passed over, if it does not make the number too large. -/
theorem yields_exponentDigits_large {large : Reader Unit} {digits : List Char}
    (hdigits : ∀ c ∈ digits, IsDigit c) {value : Nat} (hvalue : value < 2 ^ 31) {rounds : Nat}
    (hrounds : digits.length ≤ rounds) (hlarge : 2 ^ 31 ≤ decimalFrom value digits)
    {outcome : Except ReadFault (Option Nat × List Char)}
    (hrest : ∀ rest, (∀ c ∈ rest, IsDigit c) →
      Yields (do large; let _ ← Reader.digits; return none) rest outcome) :
    Yields (exponentDigits large rounds value) digits outcome := by
  induction digits generalizing value rounds with
  | nil => exact absurd hlarge (Nat.not_le_of_lt hvalue)
  | cons c rest ih =>
    obtain ⟨rounds, rfl⟩ : ∃ n, rounds = n + 1 := ⟨rounds - 1, by simp at hrounds; omega⟩
    have hdigits' : ∀ d ∈ rest, IsDigit d := fun d hd => hdigits d (List.mem_cons_of_mem _ hd)
    refine (yields_peek (c :: rest)).bind ?_
    change Yields (if Text.isDigit c then _ else _) _ _
    rw [if_pos (isDigit_iff.mpr (hdigits c (List.mem_cons_self ..)))]
    refine (yields_skip (c :: rest)).bind ?_
    change Yields (if value * 10 + (c.toNat - 48) < 2 ^ 31 then _ else _) _ _
    by_cases hnext : value * 10 + (c.toNat - 48) < 2 ^ 31
    · rw [if_pos hnext]
      exact ih hdigits' hnext (Nat.le_of_succ_le_succ hrounds) hlarge
    · rw [if_neg hnext]
      exact hrest rest hdigits'

theorem endsDigits_nil : Parser.EndsDigits [] := by
  intro c hc
  cases hc

theorem yields_digits_all {digits : List Char} (hdigits : ∀ c ∈ digits, IsDigit c) :
    Yields Reader.digits digits (.ok (digits, [])) := by
  have hyields := yields_digits hdigits endsDigits_nil
  rwa [List.append_nil] at hyields

theorem yields_scaled {digits : List Char} (hdigits : Digits digits) (down : Bool) :
    Yields (scaled negative significand scale down) digits
      (settle (scaled? negative significand scale down digits) []) := by
  obtain ⟨hne, hall⟩ := hdigits
  obtain ⟨c, rest, rfl⟩ := List.exists_cons_of_ne_nil hne
  have hdigit := isDigit_iff.mpr (hall c (List.mem_cons_self ..))
  unfold scaled scaled?
  refine (yields_peek (c :: rest)).bind ?_
  change Yields (if !Text.isDigit c then _ else _) _ _
  rw [hdigit, Bool.not_true, if_neg Bool.false_ne_true]
  refine Yields.atSource fun s hs => ?_
  have hrounds : (c :: rest).length ≤ s.rest.length := Nat.le_of_eq (by rw [hs])
  by_cases hsmall : Text.decimalValue (c :: rest) < 2 ^ 31
  · rw [if_pos hsmall]
    exact (yields_exponentDigits hall 0 hrounds hsmall).bind (yields_double _ _ _ [])
  · have hlarge : 2 ^ 31 ≤ decimalFrom 0 (c :: rest) := Nat.le_of_not_lt hsmall
    rw [if_neg hsmall]
    by_cases hout : (significand ≠ 0 && !down) = true
    · rw [if_pos hout, if_pos hout]
      refine Yields.failed (yields_exponentDigits_large hall (by decide) hrounds hlarge ?_)
      exact fun rest _ => Yields.failed (yields_fail _ rest)
    · rw [if_neg hout, if_neg hout]
      refine Yields.bind (a := none)
        (yields_exponentDigits_large hall (by decide) hrounds hlarge ?_) (yields_pure _ [])
      exact fun rest hrest => (yields_pure () rest).bind
        ((yields_digits_all hrest).bind (yields_pure none []))

/-- An exponent is its mark, a sign, if there is one, and digits. -/
theorem yields_exponent {mark : Char} {sign digits : List Char} (hsign : ExponentSign sign)
    (hdigits : Digits digits) :
    Yields (exponent negative significand scale) (mark :: (sign ++ digits))
      (settle (scaled? negative significand scale (decide (sign = ['-'])) digits) []) := by
  refine (yields_skip _).bind ((yields_peek _).bind ?_)
  cases hsign with
  | none =>
    obtain ⟨c, rest, rfl⟩ := List.exists_cons_of_ne_nil hdigits.1
    have hc := hdigits.2 c (List.mem_cons_self ..)
    have hplus : c ≠ '+' := by rintro rfl; exact absurd hc (by simp [IsDigit])
    have hminus : c ≠ '-' := by rintro rfl; exact absurd hc (by simp [IsDigit])
    have hscaled := yields_scaled negative significand scale hdigits false
    simpa [hplus, hminus] using hscaled
  | plus => exact (yields_skip _).bind (yields_scaled negative significand scale hdigits false)
  | minus => exact (yields_skip _).bind (yields_scaled negative significand scale hdigits true)

end Parts

/-! ### Whole numbers, fractions and exponents -/

open JsonPath.Parser

/-- The digits that fit 64 bits, and the power of ten of the last of them. -/
def kept (t : NumberText) : Nat × Int :=
  let (whole, count) := significant 0 t.digits
  let (significand, count') := significant whole (t.fraction.getD [])
  (significand, t.digits.length - count - count')

/-- The double with an exponent, if there is one. -/
def finished? (negative : Bool) (significand : Nat) (scale : Int) :
    Option (List Char × List Char) → Option Number
  | none => decimal? negative significand scale
  | some (sign, digits) => scaled? negative significand scale (decide (sign = ['-'])) digits

/-- The number that is read, none if it is out of range. -/
def number? (t : NumberText) : Option Number :=
  if t.fraction = none ∧ t.exponent = none then whole? t.negative (kept t).1 (kept t).2
  else finished? t.negative (kept t).1 (kept t).2 t.exponent

section Numbers

variable {negative : Bool} {v f e : List Char}

theorem head_exponent (he : Exponent e) :
    e = [] ∨ ∃ mark rest, e = mark :: rest ∧ (mark = 'e' ∨ mark = 'E') := by
  cases he with
  | none => exact .inl rfl
  | some letter => exact .inr ⟨_, _, rfl, letter⟩

theorem endsDigits_exponent (he : Exponent e) : EndsDigits e := by
  have hends := NumberText.endsDigits_exponent he endsDigits_nil
  rwa [List.append_nil] at hends

theorem exponentOf_eq {mark : Char} {sign digits : List Char} (letter : mark = 'e' ∨ mark = 'E')
    (hsign : ExponentSign sign) (hdigits : Digits digits) :
    NumberText.exponentOf (mark :: sign ++ digits) = some (sign, digits) := by
  have hof := NumberText.exponentOf_some letter hsign hdigits endsDigits_nil
  rwa [List.append_nil] at hof

/-- A fraction is its point and its digits. -/
theorem yields_fraction {part : List Char} (hpart : Digits part) (he : Exponent e)
    (negative : Bool) (whole : Nat) (scale : Int) :
    Yields (fraction negative whole scale) ('.' :: (part ++ e))
      (settle (finished? negative (significant whole part).1
        (scale - (significant whole part).2) (NumberText.exponentOf e)) []) := by
  refine (yields_skip _).bind ?_
  refine (yields_digits hpart.2 (endsDigits_exponent he)).bind ?_
  rw [if_neg (by simpa using hpart.1)]
  refine (yields_peek e).bind ?_
  cases he with
  | none => exact yields_double _ _ _ []
  | some letter hsign hdigits =>
    rw [exponentOf_eq letter hsign hdigits]
    rcases letter with rfl | rfl
    · exact yields_exponent _ _ _ hsign hdigits
    · exact yields_exponent _ _ _ hsign hdigits

theorem fractionOf_eq {part : List Char} (hpart : Digits part) :
    NumberText.fractionOf ('.' :: part) = some part := by
  have htake := (takeWhile_digits hpart.2 endsDigits_nil).1
  rw [List.append_nil] at htake
  rw [NumberText.fractionOf, htake]

theorem kept_whole (negative : Bool) (lead : List Char)
    (exponent : Option (List Char × List Char)) :
    kept ⟨negative, lead, none, exponent⟩ =
      ((significant 0 lead).1, (lead.length : Int) - (significant 0 lead).2) := by
  simp [kept, significant]

theorem number?_whole (negative : Bool) (lead : List Char) :
    number? ⟨negative, lead, none, none⟩ =
      whole? negative (significant 0 lead).1 ((lead.length : Int) - (significant 0 lead).2) := by
  rw [number?, if_pos ⟨rfl, rfl⟩, kept_whole]

theorem number?_exponent (negative : Bool) (lead : List Char) (exponent : List Char × List Char) :
    number? ⟨negative, lead, none, some exponent⟩ =
      finished? negative (significant 0 lead).1 ((lead.length : Int) - (significant 0 lead).2)
        (some exponent) := by
  rw [number?, if_neg (by simp), kept_whole]

theorem number?_fraction (negative : Bool) (lead part : List Char)
    (exponent : Option (List Char × List Char)) :
    number? ⟨negative, lead, some part, exponent⟩ =
      finished? negative (significant (significant 0 lead).1 part).1
        ((lead.length : Int) - (significant 0 lead).2 -
          (significant (significant 0 lead).1 part).2) exponent := by
  rw [number?, if_neg (by simp)]
  rfl

theorem yields_afterDigits (hf : Fraction f) (he : Exponent e) (negative : Bool)
    (lead : List Char) :
    Yields (afterDigits negative lead) (f ++ e)
      (settle (number? ⟨negative, lead, NumberText.fractionOf f, NumberText.exponentOf e⟩) []) := by
  refine (yields_peek (f ++ e)).bind ?_
  cases hf with
  | @some part hpart =>
    rw [fractionOf_eq hpart, number?_fraction]
    exact yields_fraction hpart he negative _ _
  | none =>
    cases he with
    | none =>
      change Yields _ _ (settle (number? ⟨negative, lead, none, none⟩) [])
      rw [number?_whole]
      exact yields_whole _ _ _ []
    | some letter hsign hdigits =>
      rw [exponentOf_eq letter hsign hdigits]
      change Yields _ _ (settle (number? ⟨negative, lead, none, some _⟩) [])
      rw [number?_exponent]
      rcases letter with rfl | rfl
      · exact yields_exponent _ _ _ hsign hdigits
      · exact yields_exponent _ _ _ hsign hdigits

/-- A number after its sign. -/
theorem yields_number (hv : Whole v) (hf : Fraction f) (he : Exponent e) (negative : Bool) :
    Yields (number negative) (v ++ (f ++ e))
      (settle (number? ⟨negative, v, NumberText.fractionOf f, NumberText.exponentOf e⟩) []) := by
  refine (yields_peek _).bind ?_
  cases hv with
  | zero => exact (yields_skip _).bind (yields_afterDigits hf he negative ['0'])
  | @positive c w first ne rest =>
    have hall : ∀ d ∈ c :: w, IsDigit d := fun d hd =>
      (List.mem_cons.mp hd).elim (fun h => h ▸ first) (rest d)
    have hends := NumberText.endsDigits_fraction hf (endsDigits_exponent he)
    change Yields (if !Text.isDigit c then _ else if c = '0' then _ else _) _ _
    rw [isDigit_iff.mpr first, Bool.not_true, if_neg Bool.false_ne_true, if_neg ne]
    exact (yields_digits hall hends).bind (yields_afterDigits hf he negative (c :: w))

end Numbers

/-! ### Documents that are numbers -/

section Documents

variable {s v f e w : List Char}

theorem fractionOf_append (hf : Fraction f) (he : Exponent e) :
    NumberText.fractionOf (f ++ e) = NumberText.fractionOf f ∧
      (f ++ e).drop (NumberText.fractionSize (NumberText.fractionOf (f ++ e))) = e := by
  cases hf with
  | none =>
    have hnone : NumberText.fractionOf e = none := by
      rcases head_exponent he with rfl | ⟨mark, rest, rfl, rfl | rfl⟩ <;> rfl
    rw [List.nil_append, hnone]
    exact ⟨rfl, rfl⟩
  | @some part hpart =>
    have htake := (takeWhile_digits hpart.2 (endsDigits_exponent he)).1
    rw [fractionOf_eq hpart, List.cons_append, NumberText.fractionOf, htake]
    refine ⟨rfl, ?_⟩
    rw [NumberText.fractionSize, Nat.add_comm, List.drop_succ_cons, List.drop_left]

theorem head_minus (w : List Char) :
    decide (w.head? = some '-') = decide (minusOf w = ['-']) := by
  by_cases h : w.head? = some '-' <;> simp [minusOf, h]

/-- A number is taken apart into what it is made of. -/
theorem ofChars_number (hs : Sign s) (hv : Whole v) (hf : Fraction f) (he : Exponent e) :
    NumberText.ofChars (s ++ v ++ f ++ e) =
      ⟨decide (s = ['-']), v, NumberText.fractionOf f, NumberText.exponentOf e⟩ := by
  obtain ⟨-, hdigits, -⟩ := Whole.digits hv
  obtain ⟨hminus, hunsigned⟩ := unsigned_sign hs hv (f ++ e)
  obtain ⟨htake, hdrop⟩ := takeWhile_digits hdigits
    (NumberText.endsDigits_fraction hf (endsDigits_exponent he))
  obtain ⟨hfraction, hrest⟩ := fractionOf_append hf he
  rw [hfraction] at hrest
  rw [List.append_assoc (s ++ v), NumberText.ofChars, head_minus, hminus]
  simp only [hunsigned, htake, hdrop, hfraction, hrest]

theorem Yields.map {p : Reader α} {result : Option α} {rest : List Char} (g : α → β)
    (hp : Yields p w (settle result rest)) :
    Yields (do return g (← p)) w (settle (result.map g) rest) := by
  cases result with
  | some a => exact hp.bind (yields_pure (g a) rest)
  | none => exact hp.failed

/-- A number is a value by itself. -/
theorem yields_value (hw : Grammar.Number w) (depth : Nat) :
    Yields (value depth) w (settle ((number? (NumberText.ofChars w)).map Json.number) []) := by
  obtain ⟨hs, hv, hf, he⟩ := hw
  rename_i s v f e
  rw [ofChars_number hs hv hf he, List.append_assoc (s ++ v)]
  obtain ⟨nested, hnested⟩ : ∃ nested, value depth = valueWith nested := by
    cases depth <;> exact ⟨_, rfl⟩
  rw [hnested]
  cases hs with
  | minus =>
    refine (yields_peekToken ?_).bind ((yields_skip _).bind ?_)
    · intro c hc
      cases hc
      exact .inl rfl
    · exact Yields.map Json.number (yields_number hv hf he true)
  | none =>
    obtain ⟨hne, hdigits, -⟩ := Whole.digits hv
    obtain ⟨c, rest, rfl⟩ := List.exists_cons_of_ne_nil hne
    have hc := hdigits c (List.mem_cons_self ..)
    refine (yields_peekToken ?_).bind ?_
    · intro d hd
      cases hd
      exact .inr hc
    · rw [List.nil_append, List.cons_append, List.head?_cons]
      have hnumber := yields_number hv hf he false
      split
      case h_9 _ d _ _ _ _ _ _ _ hd =>
        cases hd
        rw [if_pos (isDigit_iff.mpr hc)]
        exact Yields.map Json.number hnumber
      case h_1 hd => cases hd
      -- no other value begins with a digit
      all_goals
        rename_i hd
        cases hd
        simp [IsDigit] at hc

theorem yields_document (hw : Grammar.Number w) :
    Yields document w (settle ((number? (NumberText.ofChars w)).map Json.number) []) := by
  have hvalue := yields_value hw 127
  unfold document
  cases hnumber : (number? (NumberText.ofChars w)).map Json.number with
  | none =>
    rw [hnumber] at hvalue
    exact hvalue.failed
  | some n =>
    rw [hnumber] at hvalue
    refine hvalue.bind ((yields_peekToken ?_).bind (yields_pure n []))
    intro c hc
    cases hc

end Documents

end Reader

section Documents

variable {text : String} {n : Number}

/-- The text of a number is read as the number, -/
theorem read_number (htext : Grammar.Number text.toList)
    (hn : Reader.number? (Parser.NumberText.ofChars text.toList) = some n) :
    read text = .ok (.number n) := by
  have hdocument := Reader.yields_document htext (Source.ofChars text.toList) rfl
  rw [hn] at hdocument
  rw [read]
  cases hrun : Reader.document.run (Source.ofChars text.toList) with
  | error e =>
    rw [hrun] at hdocument
    cases hdocument
  | ok result =>
    rw [hrun] at hdocument
    injection hdocument with hresult
    injection hresult with hvalue
    exact congrArg Except.ok hvalue

/-- or it is out of range. -/
theorem read_number_none (htext : Grammar.Number text.toList)
    (hn : Reader.number? (Parser.NumberText.ofChars text.toList) = none) :
    ∃ e, read text = .error e ∧ e.fault = .numberOutOfRange := by
  have hdocument := Reader.yields_document htext (Source.ofChars text.toList) rfl
  rw [hn] at hdocument
  rw [read]
  cases hrun : Reader.document.run (Source.ofChars text.toList) with
  | error e =>
    rw [hrun] at hdocument
    refine ⟨e, rfl, ?_⟩
    injection hdocument
  | ok result =>
    rw [hrun] at hdocument
    cases hdocument

end Documents

end JsonPath.Json
