import JsonPath.Unicode.Composition
import JsonPath.Unicode.Direction
import JsonPath.Url.DomainTables
import JsonPath.Url.Punycode

/-!
Names of domains. Names that differ only in case, width or the composition of characters are
the same name, which is written in ASCII: labels with other characters begin with `xn--`.
-/

namespace JsonPath.Url

/-- A control character. -/
def isControl (c : Char) : Bool := c.toNat < 0x20 || c.toNat = 0x7F

/-- A character that no host may contain. -/
def isForbidden (c : Char) : Bool :=
  ['\x00', '\t', '\n', '\r', ' ', '#', '/', ':', '<', '>', '?', '@', '[', '\\', ']', '^',
    '|'].contains c

/-- The parts of a text between separators; always at least one. -/
def splitAt (separates : Char → Bool) : List Char → List (List Char)
  | [] => [[]]
  | c :: rest =>
    match splitAt separates rest with
    | first :: others =>
      if separates c then [] :: first :: others else (c :: first) :: others
    | [] => [[c]]

namespace Domain

def isAscii (c : Char) : Bool := c.toNat < 0x80

/-- The image of a character in the tables. -/
def listedImage? (c : Char) : Option (List Char) :=
  let n := c.toNat
  match imageRuns.find? fun (first, last, step, _) =>
      first ≤ n && n ≤ last && (n - first) % step = 0 with
  | some (first, _, _, image) => some [Char.ofNat (image + (n - first))]
  | none => do
    let (first, texts) ← (imageBlocks.filter (·.1 ≤ n)).getLast?
    (splitAt (· == ' ') texts.toList)[n - first]?

/-- What a character is written as; none if no name may contain it. -/
def image? (c : Char) : Option (List Char) :=
  let among (ranges : List Unicode.CodeRange) : Bool := ranges.any fun range => range.contains c
  if isAscii c then
    if isForbidden c || isControl c || c = '%' then none else some [c.toLower]
  else if among ignoredRanges then some []
  else
    match listedImage? c with
    | some image => some image
    | none =>
      if among excludedRanges || Unicode.Category.control.listed c ||
          Unicode.Category.privateUse.listed c || Unicode.Category.unassigned.contains c then
        none
      else some [c]

/-! ### Joiners -/

def nonJoiner : Char := '\u200c'

def joiner : Char := '\u200d'

/-- The Adlam sign that is joined across though it is a letter. -/
def nasalization : Char := Char.ofNat 0x1E94B

/-- A character that letters join across. -/
def isTransparent (c : Char) : Bool :=
  c = nasalization || (c ≠ nonJoiner && c ≠ joiner &&
    [Unicode.Category.nonspacingMark, .enclosingMark, .format].any fun k => k.listed c)

/-- A joiner or a nonjoiner may stand after a sign that suppresses a vowel, and a nonjoiner
between letters that would join. `before` is what comes before the text, the last character
first. -/
def joinersStand (before : List Char) : List Char → Bool
  | [] => true
  | c :: rest =>
    let nearest (s : List Char) : Option Char := (s.dropWhile isTransparent).head?
    let among (ranges : List Unicode.CodeRange) (d : Option Char) : Bool :=
      d.any fun d => ranges.any fun range => range.contains d
    let stands := (c ≠ nonJoiner && c ≠ joiner) ||
      (before.head?.map Unicode.combiningClass) = some 9 ||
      (c = nonJoiner && among joinsNextRanges (nearest before) &&
        among joinsPreviousRanges (nearest rest))
    stands && joinersStand (c :: before) rest

/-! ### Labels -/

def isMark (c : Char) : Bool :=
  [Unicode.Category.nonspacingMark, .spacingMark, .enclosingMark].any fun k => k.listed c

/-- A composed label may stand in a name. -/
def isLabel (label : List Char) : Bool :=
  label.all (fun c => image? c = some [c]) && !label.head?.any isMark && joinersStand [] label

/-- The most characters after `xn--` that are read as a label. -/
def longestText : Nat := 2000

/-- The most characters of a label that has to be encoded. -/
def longestLabel : Nat := 1000

/-- The label that stands behind a written one. -/
def readLabel? : List Char → Option (List Char)
  | 'x' :: 'n' :: '-' :: '-' :: text => do
    if !text.all isAscii || longestText < text.length then none
    else
      let label ← Punycode.decode? text
      if label.all isAscii || Unicode.composed label ≠ label || !isLabel label then none
      else return label
  | label =>
    if isLabel label && (label.all isAscii || label.length ≤ longestLabel) then some label
    else none

/-- A label in ASCII. -/
def writeLabel (label : List Char) : List Char :=
  if label.all isAscii then label else ['x', 'n', '-', '-'] ++ Punycode.encode label

/-- A name in ASCII. If any of it is written from right to left, each label has one
direction. -/
def write? (name : List Char) : Option (List Char) := do
  let images ← name.mapM image?
  let labels ← (splitAt (· == '.') (Unicode.composed images.flatten)).mapM readLabel?
  if labels.any Unicode.hasRightToLeft && !labels.all Unicode.hasOneDirection then none
  else return (labels.map writeLabel).intersperse ['.'] |>.flatten

end Domain

end JsonPath.Url
