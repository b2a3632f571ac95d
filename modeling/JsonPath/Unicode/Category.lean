import JsonPath.Unicode.Tables

/-!
General categories: every character belongs to exactly one, and a property names one of
them or a group.
-/

namespace JsonPath.Unicode

/-- The general categories of characters. -/
inductive Category where
  | uppercaseLetter | lowercaseLetter | titlecaseLetter | modifierLetter | otherLetter
  | nonspacingMark | spacingMark | enclosingMark
  | decimalNumber | letterNumber | otherNumber
  | connectorPunctuation | dashPunctuation | openPunctuation | closePunctuation
  | initialPunctuation | finalPunctuation | otherPunctuation
  | mathSymbol | currencySymbol | modifierSymbol | otherSymbol
  | spaceSeparator | lineSeparator | paragraphSeparator
  | control | format | privateUse | unassigned
deriving DecidableEq

namespace Category

/-- The code points of a category; none for the unassigned ones. -/
def ranges : Category → List CodeRange
  | uppercaseLetter => uppercaseLetterRanges
  | lowercaseLetter => lowercaseLetterRanges
  | titlecaseLetter => titlecaseLetterRanges
  | modifierLetter => modifierLetterRanges
  | otherLetter => otherLetterRanges
  | nonspacingMark => nonspacingMarkRanges
  | spacingMark => spacingMarkRanges
  | enclosingMark => enclosingMarkRanges
  | decimalNumber => decimalNumberRanges
  | letterNumber => letterNumberRanges
  | otherNumber => otherNumberRanges
  | connectorPunctuation => connectorPunctuationRanges
  | dashPunctuation => dashPunctuationRanges
  | openPunctuation => openPunctuationRanges
  | closePunctuation => closePunctuationRanges
  | initialPunctuation => initialPunctuationRanges
  | finalPunctuation => finalPunctuationRanges
  | otherPunctuation => otherPunctuationRanges
  | mathSymbol => mathSymbolRanges
  | currencySymbol => currencySymbolRanges
  | modifierSymbol => modifierSymbolRanges
  | otherSymbol => otherSymbolRanges
  | spaceSeparator => spaceSeparatorRanges
  | lineSeparator => lineSeparatorRanges
  | paragraphSeparator => paragraphSeparatorRanges
  | control => controlRanges
  | format => formatRanges
  | privateUse => privateUseRanges
  | unassigned => []

/-- The categories that have a table. -/
def assigned : List Category :=
  [uppercaseLetter, lowercaseLetter, titlecaseLetter, modifierLetter, otherLetter,
    nonspacingMark, spacingMark, enclosingMark, decimalNumber, letterNumber, otherNumber,
    connectorPunctuation, dashPunctuation, openPunctuation, closePunctuation,
    initialPunctuation, finalPunctuation, otherPunctuation, mathSymbol, currencySymbol,
    modifierSymbol, otherSymbol, spaceSeparator, lineSeparator, paragraphSeparator, control,
    format, privateUse]

/-- The character is in the table of the category. -/
def listed (k : Category) (c : Char) : Bool :=
  k.ranges.any fun range => range.contains c

def contains (k : Category) (c : Char) : Bool :=
  if k = unassigned then assigned.all fun other => !other.listed c else k.listed c

/-- The categories that a property of one or two letters names. -/
def ofProperty? : List Char → Option (List Category)
  | ['L'] =>
    some [uppercaseLetter, lowercaseLetter, titlecaseLetter, modifierLetter, otherLetter]
  | ['L', 'u'] => some [uppercaseLetter]
  | ['L', 'l'] => some [lowercaseLetter]
  | ['L', 't'] => some [titlecaseLetter]
  | ['L', 'm'] => some [modifierLetter]
  | ['L', 'o'] => some [otherLetter]
  | ['M'] => some [nonspacingMark, spacingMark, enclosingMark]
  | ['M', 'n'] => some [nonspacingMark]
  | ['M', 'c'] => some [spacingMark]
  | ['M', 'e'] => some [enclosingMark]
  | ['N'] => some [decimalNumber, letterNumber, otherNumber]
  | ['N', 'd'] => some [decimalNumber]
  | ['N', 'l'] => some [letterNumber]
  | ['N', 'o'] => some [otherNumber]
  | ['P'] =>
    some [connectorPunctuation, dashPunctuation, openPunctuation, closePunctuation,
      initialPunctuation, finalPunctuation, otherPunctuation]
  | ['P', 'c'] => some [connectorPunctuation]
  | ['P', 'd'] => some [dashPunctuation]
  | ['P', 's'] => some [openPunctuation]
  | ['P', 'e'] => some [closePunctuation]
  | ['P', 'i'] => some [initialPunctuation]
  | ['P', 'f'] => some [finalPunctuation]
  | ['P', 'o'] => some [otherPunctuation]
  | ['Z'] => some [spaceSeparator, lineSeparator, paragraphSeparator]
  | ['Z', 's'] => some [spaceSeparator]
  | ['Z', 'l'] => some [lineSeparator]
  | ['Z', 'p'] => some [paragraphSeparator]
  | ['S'] => some [mathSymbol, currencySymbol, modifierSymbol, otherSymbol]
  | ['S', 'm'] => some [mathSymbol]
  | ['S', 'c'] => some [currencySymbol]
  | ['S', 'k'] => some [modifierSymbol]
  | ['S', 'o'] => some [otherSymbol]
  | ['C'] => some [control, format, privateUse, unassigned]
  | ['C', 'c'] => some [control]
  | ['C', 'f'] => some [format]
  | ['C', 'o'] => some [privateUse]
  | ['C', 'n'] => some [unassigned]
  | _ => none

end Category

end JsonPath.Unicode
