import JsonPath.Syntax.Fault

/-!
The contents of string literals. Decoding never fails: a faulty escape is reported with its
range in the literal's body and stands for as much as can be made of it.
-/

namespace JsonPath.StringLiteral

/-- What the characters after a backslash stand for. -/
structure Escape where
  char : Char
  /-- The number of characters that belong to the escape, the backslash not counted. -/
  length : Nat
  fault : Option EscapeFault

/-- The character that takes the place of one that cannot be decoded. -/
def replacement : Char := Char.ofNat 0xFFFD

/-- The number of hexadecimal digits in front, at most four. -/
def hexRun (chars : List Char) : Nat :=
  ((chars.take 4).takeWhile fun c => (Text.hexValue? c).isSome).length

/-- The escape `\u`, given what follows: four hexadecimal digits, or two such escapes that
make up a surrogate pair. -/
def unicodeEscape (chars : List Char) : Escape :=
  match Text.hexQuad? chars with
  | none => ⟨replacement, 1 + hexRun chars, some .incomplete⟩
  | some high =>
    if Text.isLowSurrogate high then ⟨replacement, 5, some .lowSurrogate⟩
    else if Text.isHighSurrogate high then
      match chars.drop 4 with
      | '\\' :: 'u' :: more =>
        match Text.hexQuad? more with
        | none => ⟨replacement, 7 + hexRun more, some .incomplete⟩
        | some low =>
          if Text.isLowSurrogate low then ⟨Text.surrogatePair high low, 11, none⟩
          else ⟨replacement, 11, some .highSurrogate⟩
      | _ => ⟨replacement, 5, some .highSurrogate⟩
    else ⟨Char.ofNat high, 5, none⟩

/-- The escape with the given characters after its backslash, in a literal between two of
`quote`. -/
def escape (quote c : Char) (rest : List Char) : Escape :=
  if c = 'b' then ⟨'\x08', 1, none⟩
  else if c = 'f' then ⟨'\x0c', 1, none⟩
  else if c = 'n' then ⟨'\n', 1, none⟩
  else if c = 'r' then ⟨'\r', 1, none⟩
  else if c = 't' then ⟨'\t', 1, none⟩
  else if c = '/' then ⟨'/', 1, none⟩
  else if c = '\\' then ⟨'\\', 1, none⟩
  else if c = quote then ⟨c, 1, none⟩
  else if c = 'u' then unicodeEscape rest
  else ⟨c, 1, some (.unknown c)⟩

/-- Decodes a body from the given offset on. The first `skip` characters belong to an
escape that has been decoded. -/
def decodeFrom (quote : Char) :
    (skip offset : Nat) → List Char → List Char × List (Located EscapeFault)
  | _, _, [] => ([], [])
  | skip + 1, offset, c :: rest => decodeFrom quote skip (offset + c.utf8Size) rest
  | 0, offset, c :: rest =>
    if c = '\\' then
      match rest with
      | [] => ([], [⟨.incomplete, ⟨offset, offset + 1⟩⟩])
      | d :: more =>
        let e := escape quote d more
        let (chars, faults) := decodeFrom quote e.length (offset + 1) (d :: more)
        let stop := offset + 1 + Text.byteLength ((d :: more).take e.length)
        (e.char :: chars, (e.fault.map fun f => ⟨f, ⟨offset, stop⟩⟩).toList ++ faults)
    else
      let (chars, faults) := decodeFrom quote 0 (offset + c.utf8Size) rest
      if c.toNat < 0x20 then (c :: chars, ⟨.control, ⟨offset, offset + 1⟩⟩ :: faults)
      else (c :: chars, faults)

/-- The text that a body stands for and the faults in it, in order. -/
def decode (quote : Char) (body : List Char) : List Char × List (Located EscapeFault) :=
  decodeFrom quote 0 0 body

/-- The characters of a literal's body, after its opening quote, and whether a closing
quote follows. A backslash keeps the character after it in the body. -/
def body (quote : Char) : List Char → List Char × Bool
  | [] => ([], false)
  | [c] => if c = quote then ([], true) else ([c], false)
  | c :: d :: rest =>
    if c = quote then ([], true)
    else if c = '\\' then
      let (chars, closed) := body quote rest
      (c :: d :: chars, closed)
    else
      let (chars, closed) := body quote (d :: rest)
      (c :: chars, closed)

end JsonPath.StringLiteral
