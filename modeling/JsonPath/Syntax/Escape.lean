import JsonPath.Syntax.StringLiteral

/-!
The contents of string literals by positions. The characters of a body come with the positions at
which they begin, and the digits of an escape are looked for among the bytes of the body.
-/

namespace JsonPath

namespace Text

/-- The bytes of a text in UTF-8. -/
def bytes (chars : List Char) : List UInt8 := chars.flatMap String.utf8EncodeChar

/-- The characters of a text with their positions, from the given one on. -/
def indexed : (start : Nat) → List Char → List (Nat × Char)
  | _, [] => []
  | start, c :: rest => (start, c) :: indexed (start + c.utf8Size) rest

end Text

namespace StringLiteral

/-- The byte is a hexadecimal digit. -/
def isHexByte (byte : UInt8) : Bool := (Text.hexValue? (Char.ofUInt8 byte)).isSome

/-- The number that four hexadecimal digits at a position denote. -/
def hexDigitsAt? (bytes : List UInt8) (start : Nat) : Option Nat :=
  Text.hexQuad? ((bytes.drop start).map Char.ofUInt8)

/-- Where the hexadecimal digits at a position end, of which at most four are looked at. -/
def hexStop (bytes : List UInt8) (start : Nat) : Nat :=
  min start bytes.length + (((bytes.drop start).take 4).takeWhile isHexByte).length

/-- What an escape stands for and where it stops. -/
structure EscapeAt where
  char : Char
  stop : Nat
  fault : Option EscapeFault

/-- The escape `\u` whose backslash is at `index`. -/
def unicodeEscapeAt (bytes : List UInt8) (index : Nat) : EscapeAt :=
  match hexDigitsAt? bytes (index + 2) with
  | none => ⟨replacement, hexStop bytes (index + 2), some .incomplete⟩
  | some high =>
    let stop := index + 2 + 4
    if Text.isLowSurrogate high then ⟨replacement, stop, some .lowSurrogate⟩
    else if Text.isHighSurrogate high then
      if bytes[stop]? = some '\\'.toUInt8 && bytes[stop + 1]? = some 'u'.toUInt8 then
        match hexDigitsAt? bytes (stop + 2) with
        | none => ⟨replacement, hexStop bytes (stop + 2), some .incomplete⟩
        | some low =>
          if Text.isLowSurrogate low then ⟨Text.surrogatePair high low, stop + 6, none⟩
          else ⟨replacement, stop + 6, some .highSurrogate⟩
      else ⟨replacement, stop, some .highSurrogate⟩
    else ⟨Char.ofNat high, stop, none⟩

/-- What the character after a backslash stands for by itself. -/
def plainEscape? (quote c : Char) : Option Char :=
  if c = 'b' then some '\x08'
  else if c = 'f' then some '\x0c'
  else if c = 'n' then some '\n'
  else if c = 'r' then some '\r'
  else if c = 't' then some '\t'
  else if c = '/' then some '/'
  else if c = '\\' then some '\\'
  else if c = quote then some c
  else none

/-- The escape whose backslash is at `index`, with the given character after it. -/
def escapeAt (quote : Char) (bytes : List UInt8) (index : Nat) (c : Char) : EscapeAt :=
  match plainEscape? quote c with
  | some char => ⟨char, index + 1 + c.utf8Size, none⟩
  | none =>
    if c = 'u' then unicodeEscapeAt bytes index
    else ⟨c, index + 1 + c.utf8Size, some (.unknown c)⟩

/-- Decodes what is left of a body with the given bytes. -/
def decodeAt (quote : Char) (bytes : List UInt8) :
    List (Nat × Char) → List Char × List (Located EscapeFault)
  | [] => ([], [])
  | (index, c) :: rest =>
    if c = '\\' then
      match rest with
      | [] => ([], [⟨.incomplete, ⟨index, bytes.length⟩⟩])
      | (_, d) :: more =>
        let e := escapeAt quote bytes index d
        let (chars, faults) := decodeAt quote bytes (more.dropWhile fun next => next.1 < e.stop)
        (e.char :: chars, (e.fault.map fun f => ⟨f, ⟨index, e.stop⟩⟩).toList ++ faults)
    else
      let (chars, faults) := decodeAt quote bytes rest
      if c.toNat < 0x20 then (c :: chars, ⟨.control, ⟨index, index + 1⟩⟩ :: faults)
      else (c :: chars, faults)
termination_by rest => rest.length
decreasing_by
  · exact Nat.lt_succ_of_lt (Nat.lt_succ_of_le (List.dropWhile_suffix _).length_le)
  · exact Nat.lt_succ_self _

/-- The text that a body stands for and the faults in it, in order. -/
def unescape (quote : Char) (body : List Char) : List Char × List (Located EscapeFault) :=
  decodeAt quote (Text.bytes body) (Text.indexed 0 body)

end StringLiteral

end JsonPath
