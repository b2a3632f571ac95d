import JsonPath.Text.Percent
import JsonPath.Url.Host

/-!
Reading the paths of URLs. A path is written piece by piece after the start of one: dots are
resolved and characters percent-encoded on the way. The path of a file may stand on a drive,
a letter and a colon in its first segment, which no dots lead out of.
-/

namespace JsonPath.Url

/-- A character that is encoded in a fragment. -/
def inFragment (c : Char) : Bool := isControl c || [' ', '"', '<', '>', '\x60'].contains c

/-- A character that is encoded in a path. -/
def inPath (c : Char) : Bool := inFragment c || ['#', '?', '\x7b', '\x7d'].contains c

/-- Characters that are left out wherever they stand. -/
def isLineBreak (c : Char) : Bool := c = '\t' || c = '\n' || c = '\r'

/-- The text without its line breaks. -/
def unbroken (s : List Char) : List Char := s.filter fun c => !isLineBreak c

/-- What is left of a text after some characters, line breaks not counted. -/
def dropUnbroken : Nat → List Char → List Char
  | 0, s => s
  | n + 1, s => dropUnbroken n ((s.dropWhile isLineBreak).drop 1)

/-- A character that separates segments. -/
def isSlash (special : Bool) (c : Char) : Bool := c = '/' || (special && c = '\\')

/-- A letter and a colon or a bar, which stand for a drive. -/
def isDrive : List Char → Bool
  | [letter, mark] => Text.isLetter letter && (mark = ':' || mark = '|')
  | _ => false

/-- A drive in its usual form, with a colon. -/
def isPlainDrive (s : List Char) : Bool := isDrive s && s.getLast? = some ':'

/-- A segment that is a drive or has a backslash after one. -/
def beginsWithDrive (segment : List Char) : Bool :=
  isDrive (segment.take 2) && (segment.length = 2 || segment[2]? = some '\\')

/-- The segment with its encoded points replaced by points. -/
def pointed : List Char → List Char
  | '%' :: '2' :: 'e' :: rest => '.' :: pointed rest
  | '%' :: '2' :: 'E' :: rest => '.' :: pointed rest
  | c :: rest => c :: pointed rest
  | [] => []

/-- What has been written of a path. Characters read since the last break, slash or line
break, are not written yet. -/
structure Draft where
  file : Bool
  written : List Char
  /-- Where the segment that is being read begins in what is written. -/
  segment : Nat
  unwritten : List Char
  /-- A drive has been read as the first segment. -/
  onDrive : Bool

namespace Draft

/-- A draft of the path of a file or of another URL that goes on after the start of one. -/
def start (file : Bool) (written : List Char) : Draft := ⟨file, written, written.length, [], false⟩

/-- The last segment of a path. -/
def lastSegment (path : List Char) : List Char := (path.reverse.takeWhile (· != '/')).reverse

/-- The path up to its last slash. -/
def folder (path : List Char) : List Char := (path.reverse.dropWhile (· != '/')).reverse

/-- The path without its last segment, unless that is a drive in the path of a file. -/
def pop (file : Bool) (path : List Char) : List Char :=
  if file && isPlainDrive (lastSegment path) then path else folder path

/-- The path one level up. The first slash and one after a drive stay. -/
def up (file : Bool) (path : List Char) : List Char :=
  let shorter := path.dropLast
  if path.getLast? = some '/' && shorter.contains '/' && !beginsWithDrive (lastSegment shorter)
  then pop file shorter
  else pop file path

/-- The path with a slash at its end. -/
def slashed (path : List Char) : List Char :=
  if path.getLast? = some '/' then path else path ++ ['/']

/-- Writes what is unwritten. -/
def flush (d : Draft) : Draft :=
  { d with written := d.written ++ Text.percentEncode inPath d.unwritten, unwritten := [] }

/-- Reads a character of a segment. In the path of a file, what follows a drive that is
written begins a new segment. -/
def add (d : Draft) (c : Char) : Draft :=
  if d.file && isPlainDrive (d.written.drop 1) then
    { d with written := d.written ++ ['/'], segment := d.segment + 1,
             unwritten := d.unwritten ++ [c] }
  else { d with unwritten := d.unwritten ++ [c] }

/-- Ends a segment, at a slash or at the end of the path. One point stands for the same
place and two for the one above. The first segment of a file's path may stand for a drive,
which is written with a colon. -/
def close (slash : Bool) (d : Draft) : Draft :=
  let d := d.flush
  let before := d.written.take d.segment
  let name := d.written.drop d.segment
  let d :=
    if pointed name = ['.', '.'] then
      let above := up d.file before
      { d with written := if slash then slashed above else above }
    else if pointed name = ['.'] then { d with written := slashed before }
    else
      let drive := d.file && d.segment = 1 && isDrive name
      let name := if drive then name.take 1 ++ [':'] else name
      { d with written := before ++ name ++ (if slash then ['/'] else []),
               onDrive := d.onDrive || drive }
  { d with segment := d.written.length }

/-- Reads the rest of a path. -/
def read (special : Bool) (d : Draft) : List Char → Draft
  | [] => d.close false
  | c :: rest =>
    if isLineBreak c then d.flush.read special rest
    else if isSlash special c then (d.close true).read special rest
    else (d.add c).read special rest

/-- The path that has been read. That of a file has one slash in front. -/
def finish (d : Draft) : List Char :=
  if d.file then '/' :: d.written.dropWhile (· == '/') else d.written

end Draft

end JsonPath.Url
