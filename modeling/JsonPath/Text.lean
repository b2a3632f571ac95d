/-!
Characters and text: lengths in UTF-8 bytes, decimal and hexadecimal digits, and lists of
texts put together with a separator.
-/

namespace JsonPath.Text

-- An empty sum is the same here and where algebra brings in a zero of its own.
local instance (priority := high) natZero : Zero Nat := ⟨0⟩

/-- The number of bytes of some characters in UTF-8. -/
def byteLength (chars : List Char) : Nat := (chars.map Char.utf8Size).sum

@[simp] theorem byteLength_nil : byteLength [] = 0 := rfl

@[simp] theorem byteLength_cons (c : Char) (rest : List Char) :
    byteLength (c :: rest) = c.utf8Size + byteLength rest := by
  simp [byteLength]

@[simp] theorem byteLength_append (a b : List Char) :
    byteLength (a ++ b) = byteLength a + byteLength b := by
  simp [byteLength]

/-- A decimal digit. -/
def isDigit (c : Char) : Bool := '0' ≤ c && c ≤ '9'

def isLowerLetter (c : Char) : Bool := 'a' ≤ c && c ≤ 'z'

def isLetter (c : Char) : Bool := isLowerLetter c || ('A' ≤ c && c ≤ 'Z')

/-- The value of a hexadecimal digit in either case. -/
def hexValue? (c : Char) : Option Nat :=
  if isDigit c then some (c.toNat - 48)
  else if 'a' ≤ c && c ≤ 'f' then some (c.toNat - 87)
  else if 'A' ≤ c && c ≤ 'F' then some (c.toNat - 55)
  else none

/-- The number four hexadecimal digits at the start of a text denote. -/
def hexQuad? : List Char → Option Nat
  | a :: b :: c :: d :: _ => do
    let a ← hexValue? a
    let b ← hexValue? b
    let c ← hexValue? c
    let d ← hexValue? d
    some (((a * 16 + b) * 16 + c) * 16 + d)
  | _ => none

/-- The number that decimal digits denote. -/
def decimalValue (digits : List Char) : Nat :=
  digits.foldl (fun n c => n * 10 + (c.toNat - 48)) 0

/-- A lowercase hexadecimal digit. -/
def hexDigit (n : Nat) : Char := Nat.digitChar n

/-- `\u00` and two lowercase hexadecimal digits, for a character below 256. -/
def unicodeEscape (c : Char) : String :=
  "\\u00" ++ String.ofList [hexDigit (c.toNat / 16), hexDigit (c.toNat % 16)]

def isHighSurrogate (n : Nat) : Bool := 0xD800 ≤ n && n ≤ 0xDBFF

def isLowSurrogate (n : Nat) : Bool := 0xDC00 ≤ n && n ≤ 0xDFFF

/-- The character that a surrogate pair stands for. -/
def surrogatePair (high low : Nat) : Char :=
  Char.ofNat (0x10000 + (high - 0xD800) * 0x400 + (low - 0xDC00))

/-- Spaces, `n` of them. -/
def spaces (n : Nat) : String := String.ofList (List.replicate n ' ')

end JsonPath.Text
