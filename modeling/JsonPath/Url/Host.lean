import JsonPath.Power
import JsonPath.Text.Percent
import JsonPath.Url
import JsonPath.Url.Domain

/-!
Hosts of URLs: names, addresses of four bytes, and addresses of eight pieces between
brackets. In schemes with rules of their own a name is that of a domain, and one that ends in
a number is an address.
-/

namespace JsonPath.Url

/-- The number of digits in a base, none for a character that is no digit. -/
def digitsValue? (base : Nat) (digits : List Char) : Option Nat :=
  digits.foldlM (fun n c => do
    let d ← Text.hexValue? c
    if d < base then some (n * base + d) else none) 0

/-- A part of an address of four bytes, in hexadecimal after `0x` and octal after `0`. -/
def ipv4Number? : List Char → Option Nat
  | [] => none
  | ['0'] => some 0
  | '0' :: 'x' :: digits => digitsValue? 16 digits
  | '0' :: digits => digitsValue? 8 digits
  | digits => digitsValue? 10 digits

/-- The parts between points, one empty part at the end left out. -/
def ipv4Parts (name : List Char) : List (List Char) :=
  let parts := splitAt (· == '.') name
  if parts.getLast? = some [] && 1 < parts.length then parts.dropLast else parts

def endsInNumber (name : List Char) : Bool :=
  match (ipv4Parts name).getLast? with
  | some last => (!last.isEmpty && last.all Text.isDigit) || (ipv4Number? last).isSome
  | none => false

/-- An address of four bytes. The last number fills all bytes that are left. -/
def ipv4? (name : List Char) : Option Nat := do
  let numbers ← (ipv4Parts name).mapM ipv4Number?
  let last ← numbers.getLast?
  let front := numbers.dropLast
  if 4 < numbers.length || front.any (255 < ·) || 256 ^ (4 - front.length) ≤ last then none
  else some (front.zipIdx.foldl (fun n x => n + x.1 * 256 ^ (3 - x.2)) last)

/-- Four decimal numbers with points between them, as two pieces. -/
def dottedPieces? (s : List Char) : Option (List Nat) := do
  let part (digits : List Char) : Option Nat := do
    let n ← digitsValue? 10 digits
    if digits.isEmpty || 255 < n || (1 < digits.length && digits.head? = some '0') then none
    else some n
  match ← (splitAt (· == '.') s).mapM part with
  | [a, b, c, d] => some [a * 256 + b, c * 256 + d]
  | _ => none

/-- Pieces of up to four hexadecimal digits; the last may be four decimal numbers. -/
def pieces? : List (List Char) → Option (List Nat)
  | [] => some []
  | part :: rest =>
    if rest.isEmpty && part.contains '.' then dottedPieces? part
    else if part.isEmpty || 4 < part.length then none
    else do
      let piece ← digitsValue? 16 part
      return piece :: (← pieces? rest)

/-- The pieces of a text with colons between them; none in the empty text. -/
def colonPieces? (s : List Char) : Option (List Nat) :=
  if s.isEmpty then some [] else pieces? (splitAt (· == ':') s)

/-- What comes before and after the first two colons in a row. -/
def splitAtGap? : List Char → Option (List Char × List Char)
  | ':' :: ':' :: rest => some ([], rest)
  | c :: rest => (splitAtGap? rest).map fun x => (c :: x.1, x.2)
  | [] => none

/-- An address of eight pieces. Two colons in a row stand for pieces that are zero. -/
def ipv6? (s : List Char) : Option (List Nat) :=
  match splitAtGap? s with
  | some (before, after) => do
    let front ← colonPieces? before
    let back ← colonPieces? after
    if before.contains '.' || 7 < front.length + back.length then none
    else some (front ++ List.replicate (8 - front.length - back.length) 0 ++ back)
  | none => do
    let pieces ← colonPieces? s
    if pieces.length = 8 then some pieces else none

/-- An address between brackets, for a text that starts with one. -/
def bracketed? (s : List Char) : Option Host :=
  if s.getLast? = some ']' then (ipv6? (s.drop 1).dropLast).map .ipv6 else none

/-- The host of a scheme with rules of its own. -/
def specialHost? (s : List Char) : Option Host :=
  if s.head? = some '[' then bracketed? s
  else do
    let name ← Domain.write? (Text.percentDecode s)
    if name.isEmpty then none
    else if endsInNumber name then (ipv4? name).map .ipv4
    else return .domain (String.ofList name)

/-- The host of any other scheme. -/
def plainHost? (s : List Char) : Option Host :=
  if s.head? = some '[' then bracketed? s
  else if s.any isForbidden then none
  else some (.domain (String.ofList (Text.percentEncode isControl s)))

end JsonPath.Url
