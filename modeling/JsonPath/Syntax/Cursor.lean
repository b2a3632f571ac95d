import JsonPath.Syntax.Fault

/-!
Reading the text of a query from left to right. The cursor hands out numbers and tokens
and notes faults. What it passes over without making a token of it becomes the skipped
text of the next token, so nothing of the source is lost.
-/

namespace JsonPath

/-- A place in a query's text, and what has been noted so far, latest first. -/
structure Cursor where
  rest : List Char
  offset : Nat
  skipped : List Char
  nextId : Nat
  faults : List (Located SyntaxFault)

/-- A parser for a part of a query. It never fails. -/
abbrev Parser := StateM Cursor

namespace Cursor

def ofChars (chars : List Char) : Cursor := ⟨chars, 0, [], 0, []⟩

/-- The characters come next. -/
def isAt (c : Cursor) (chars : List Char) : Bool := chars.isPrefixOf c.rest

/-- The next `count` characters are passed over. -/
def pass (c : Cursor) (count : Nat) : Cursor where
  rest := c.rest.drop count
  offset := c.offset + Text.byteLength (c.rest.take count)
  skipped := c.skipped ++ c.rest.take count
  nextId := c.nextId
  faults := c.faults

/-- The range of the next `count` characters. -/
def ahead (c : Cursor) (count : Nat) : Range :=
  ⟨c.offset, c.offset + Text.byteLength (c.rest.take count)⟩

/-- What stands at the cursor, for a message. -/
def found (c : Cursor) : Found :=
  match c.rest with
  | [] => .endOfQuery
  | char :: _ => .text [char]

def isBlank (c : Char) : Bool := c = ' ' || c = '\t' || c = '\n' || c = '\r'

/-- The number of blanks that come next. -/
def blanks (c : Cursor) : Nat := (c.rest.takeWhile isBlank).length

end Cursor

namespace Parser

def freshId : Parser Nat := fun c => (c.nextId, { c with nextId := c.nextId + 1 })

def peek : Parser (Option Char) := fun c => (c.rest.head?, c)

def isAt (chars : List Char) : Parser Bool := fun c => (c.isAt chars, c)

def report (fault : SyntaxFault) (range : Range) : Parser Unit :=
  fun c => ((), { c with faults := ⟨fault, range⟩ :: c.faults })

/-- Passes over blanks. -/
def skipBlanks : Parser Range := fun c => (c.ahead c.blanks, c.pass c.blanks)

/-- Passes over blanks and reports them, if there are any. -/
def rejectBlanks (fault : SyntaxFault) : Parser Unit := do
  let range ← skipBlanks
  if !range.isEmpty then report fault range

/-- Makes a token of the next `count` characters. -/
def take (kind : TokenKind) (count : Nat) : Parser Token := fun c =>
  let token : Token := {
    id := c.nextId
    kind := kind
    text := String.ofList (c.rest.take count)
    skipped := String.ofList c.skipped
    range := c.ahead count
    missing := false
  }
  (token, { c.pass count with skipped := [], nextId := c.nextId + 1 })

/-- A token without text, for one that was expected here. -/
def missing (kind : TokenKind) : Parser Token := do
  return { ← take kind 0 with missing := true }

/-- Reports that something else was expected at the cursor. -/
def reportFound (wanted : Wanted) : Parser Unit := fun c =>
  report (.expected wanted c.found) (c.ahead 1) c

/-- Passes over characters up to one of `stops` and reports them, if there are any. -/
def skipGarbage (wanted : Wanted) (stops : List Char) : Parser Unit := fun c =>
  let garbage := c.rest.takeWhile fun c => !stops.contains c
  if garbage.isEmpty then ((), c)
  else report (.expected wanted (.text garbage)) (c.ahead garbage.length) (c.pass garbage.length)

end Parser

end JsonPath
