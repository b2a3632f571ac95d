import JsonPath.Text

/-!
Texts as bytes. Reading UTF-8 never fails: a sequence of bytes that cannot be continued to a
character is read as one replacement character, and reading goes on with the byte that broke it.
In percent-encoding bytes are written as `%` and two hexadecimal digits.
-/

namespace JsonPath.Text

/-- The bytes of some characters. -/
def utf8 (chars : List Char) : List Nat :=
  chars.flatMap fun c => (String.utf8EncodeChar c).map (·.toNat)

/-- The character that stands for bytes that are not UTF-8. -/
def replacement : Char := Char.ofNat 0xFFFD

/-- A character of which some bytes have been read: the value so far and the bounds of each
byte that is still to come. -/
structure Partial where
  value : Nat
  bounds : List (Nat × Nat)

/-- What the first byte of a character tells: a whole character, or how to go on. -/
def firstByte (b : Nat) : List Char × Option Partial :=
  let more (value : Nat) (bounds : List (Nat × Nat)) : List Char × Option Partial :=
    ([], some ⟨value, bounds⟩)
  let tail := (0x80, 0xBF)
  if b < 0x80 then ([Char.ofNat b], none)
  else if 0xC2 ≤ b ∧ b ≤ 0xDF then more (b - 0xC0) [tail]
  else if b = 0xE0 then more 0 [(0xA0, 0xBF), tail]
  else if b = 0xED then more 0xD [(0x80, 0x9F), tail]
  else if 0xE1 ≤ b ∧ b ≤ 0xEF then more (b - 0xE0) [tail, tail]
  else if b = 0xF0 then more 0 [(0x90, 0xBF), tail, tail]
  else if 0xF1 ≤ b ∧ b ≤ 0xF3 then more (b - 0xF0) [tail, tail, tail]
  else if b = 0xF4 then more 4 [(0x80, 0x8F), tail, tail]
  else ([replacement], none)

/-- The characters that end with a byte, and the character that it leaves unfinished. -/
def nextByte (unfinished : Option Partial) (b : Nat) : List Char × Option Partial :=
  match unfinished with
  | some ⟨value, (low, high) :: rest⟩ =>
    if low ≤ b ∧ b ≤ high then
      let value := value * 64 + (b - 0x80)
      if rest.isEmpty then ([Char.ofNat value], none) else ([], some ⟨value, rest⟩)
    else
      let (chars, unfinished) := firstByte b
      (replacement :: chars, unfinished)
  | _ => firstByte b

def ofUtf8From (unfinished : Option Partial) : List Nat → List Char
  | [] => if unfinished.isSome then [replacement] else []
  | b :: rest =>
    let (chars, unfinished) := nextByte unfinished b
    chars ++ ofUtf8From unfinished rest

/-- The characters that some bytes stand for. -/
def ofUtf8 (bytes : List Nat) : List Char := ofUtf8From none bytes

/-- A byte as `%` and two hexadecimal digits. -/
def percentByte (b : Nat) : List Char :=
  ['%', (hexDigit (b / 16)).toUpper, (hexDigit (b % 16)).toUpper]

/-- Encodes the characters of a set and all beyond ASCII. -/
def percentEncode (encoded : Char → Bool) (chars : List Char) : List Char :=
  chars.flatMap fun c =>
    if encoded c || 0x80 ≤ c.toNat then (utf8 [c]).flatMap percentByte else [c]

/-- The value of two characters after a `%`: two hexadecimal digits, or a plus sign and
one. -/
def percentValue? (a b : Nat) : Option Nat := do
  let low ← hexValue? (Char.ofNat b)
  if a = '+'.toNat then some low
  else
    let high ← hexValue? (Char.ofNat a)
    some (high * 16 + low)

/-- Replaces each encoded byte by that byte. -/
def percentDecodeBytes : List Nat → List Nat
  | 0x25 :: a :: b :: rest =>
    match percentValue? a b with
    | some value => value :: percentDecodeBytes rest
    | none => 0x25 :: percentDecodeBytes (a :: b :: rest)
  | b :: rest => b :: percentDecodeBytes rest
  | [] => []

/-- The text that a percent-encoded text stands for. -/
def percentDecode (chars : List Char) : List Char := ofUtf8 (percentDecodeBytes (utf8 chars))

end JsonPath.Text
