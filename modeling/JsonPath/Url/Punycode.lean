import JsonPath.Text

/-!
Labels of domain names in ASCII. The characters beyond ASCII are told, in increasing order, by
numbers that say where each of them is inserted; a number has digits of a base that adapts
to those before it, the least one first.
-/

namespace JsonPath.Url.Punycode

/-- A digit of 36. -/
def digit (n : Nat) : Char := Char.ofNat (if n < 26 then n + 97 else n + 22)

def digitValue? (c : Char) : Option Nat :=
  if Text.isLowerLetter c then some (c.toNat - 97)
  else if Text.isDigit c then some (c.toNat - 22)
  else none

/-- The first digit value that goes on, at a place counted in steps of 36. -/
def threshold (bias place : Nat) : Nat := min 26 (max 1 (place - bias))

theorem threshold_pos (bias place : Nat) : 1 ≤ threshold bias place := by
  unfold threshold
  omega

/-- How often a number can be divided by 35 before it is at most 455, and what is left. -/
def scale (n : Nat) : Nat × Nat :=
  if 455 < n then
    let (times, left) := scale (n / 35)
    (times + 1, left)
  else (0, n)
termination_by n
decreasing_by omega

/-- The bias after a number, the first one or a later one, that inserts a character among
`count`, itself included. -/
def adapt (number count : Nat) (first : Bool) : Nat :=
  let n := if first then number / 700 else number / 2
  let (times, left) := scale (n + n / count)
  36 * times + 36 * left / (left + 38)

/-- The digits of a number from a place on. -/
def digits (bias place n : Nat) : List Char :=
  let t := threshold bias place
  if n < t then [digit n]
  else digit (t + (n - t) % (36 - t)) :: digits bias (place + 36) ((n - t) / (36 - t))
termination_by n
decreasing_by
  have hpos := threshold_pos bias place
  have hle := Nat.div_le_self (n - threshold bias place) (36 - threshold bias place)
  omega

/-- The numbers for characters and their positions in a text, in the order of insertion.
So far `count` characters have been inserted, the last one is `code`, and `next` is the
position after it. -/
def encodeFrom (s : List Char) (count code next bias : Nat) (first : Bool) :
    List (Char × Nat) → List Char
  | [] => []
  | (c, i) :: rest =>
    let position := ((s.take i).filter fun d => decide (d ≤ c)).length
    let number := (c.toNat - code) * (count + 1) + position - next
    digits bias 36 number ++
      encodeFrom s (count + 1) c.toNat (position + 1) (adapt number (count + 1) first) false rest

/-- A label in ASCII. -/
def encode (s : List Char) : List Char :=
  let basic := s.filter fun c => decide (c.toNat < 0x80)
  let others := s.zipIdx.filter fun x => decide (0x80 ≤ x.1.toNat)
  let inOrder := others.mergeSort fun a b => decide (a.1 < b.1 ∨ (a.1 = b.1 ∧ a.2 ≤ b.2))
  (if basic.isEmpty then [] else basic ++ ['-']) ++
    encodeFrom s basic.length 0x80 0 72 true inOrder

/-- The number at the start of a text, of which the digits before `place` amount to `n` and
the next one counts `weight`. -/
def takeNumber? (bias place weight n : Nat) : List Char → Option (Nat × List Char)
  | [] => none
  | c :: rest => do
    let d ← digitValue? c
    let t := threshold bias place
    if d < t then return (n + d * weight, rest)
    else takeNumber? bias (place + 36) (weight * (36 - t)) (n + d * weight) rest

/-- Inserts characters into `s` as numbers say. Every round reads a number. -/
def decodeFrom (s : List Char) (code next bias : Nat) (first : Bool) :
    Nat → List Char → Option (List Char)
  | _, [] => some s
  | 0, _ => none
  | rounds + 1, text => do
    let (number, rest) ← takeNumber? bias 36 1 0 text
    let count := s.length + 1
    let code := code + (next + number) / count
    let position := (next + number) % count
    if code.isValidChar then
      decodeFrom (s.insertIdx position (Char.ofNat code)) code (position + 1)
        (adapt number count first) false rounds rest
    else none

/-- The label that a text in ASCII stands for. -/
def decode? (text : List Char) : Option (List Char) :=
  let last := (text.reverse.takeWhile (· != '-')).reverse
  let basic := text.take (text.length - last.length - 1)
  decodeFrom basic 0x80 0 72 true last.length last

end JsonPath.Url.Punycode
