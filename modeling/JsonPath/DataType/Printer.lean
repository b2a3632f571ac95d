import JsonPath.DataType
import JsonPath.Json.Printer

/-!
The texts of types: one on a single line and one with an entry to a line, which differ in
blanks only.
-/

namespace JsonPath

def Primitive.text : Primitive → String
  | number => "number"
  | string => "string"
  | boolean => "boolean"
  | null => "null"
  | nothing => "nothing"

namespace DataType

/-- A name, between quotes unless it is made of letters, digits, `_` and `$` and does not
begin with a digit. -/
def nameText (name : String) : String :=
  let first (c : Char) : Bool := Text.isLetter c || c = '_' || c = '$'
  let plain := match name.toList with
    | [] => false
    | c :: rest => first c && rest.all fun c => first c || Text.isDigit c
  if plain then name else Json.quote name

/-- A property, marked when it is not required. -/
def propertyText (required : List String) (name : String) (type : String) : String :=
  nameText name ++ (if required.contains name then "" else "?") ++ ": " ++ type

/-- An element, marked when it is not required. -/
def elementText (minimum i : Nat) (type : String) : String :=
  if i < minimum then type else type ++ "?"

/-- The entry for further members, if there may be any. -/
def restText? (rest : DataType) (type : String) : Option String :=
  match rest with
  | never _ => none
  | any _ => some "..."
  | _ => some ("[key: string]: " ++ type)

/-- Any number of elements, the text of a union between parentheses. -/
def listText (item : DataType) (type : String) : String :=
  if item.isUnion then "(" ++ type ++ ")[]" else type ++ "[]"

/-- The entry for further elements, if there may be any. -/
def furtherText? (rest : DataType) (type : String) : Option String :=
  if rest.isNever then none else some ("..." ++ listText rest type)

mutual

/-- The type on a single line. -/
def text : DataType → String
  | any _ => "any"
  | never _ => "never"
  | literal value _ => value.text
  | primitive kind _ => kind.text
  | object properties rest required _ =>
    "\x7b" ++ ", ".intercalate
      (propertyTexts required properties ++ (restText? rest rest.text).toList) ++ "\x7d"
  | array front rest minimum _ =>
    if front.isEmpty then
      if rest.isNever then "[]" else listText rest rest.text
    else
      "[" ++ ", ".intercalate
        (elementTexts minimum 0 front ++ (furtherText? rest rest.text).toList) ++ "]"
  | union ms _ => " | ".intercalate (texts ms)

def propertyTexts (required : List String) : List (String × DataType) → List String
  | [] => []
  | (name, t) :: rest => propertyText required name t.text :: propertyTexts required rest

def elementTexts (minimum i : Nat) : List DataType → List String
  | [] => []
  | t :: rest => elementText minimum i t.text :: elementTexts minimum (i + 1) rest

def texts : List DataType → List String
  | [] => []
  | t :: rest => t.text :: texts rest

end

/-- A type without parts whose text has at most 32 bytes. -/
def isShort : DataType → Bool
  | object _ _ _ _ => false
  | array _ _ _ _ => false
  | union _ _ => false
  | t => t.text.utf8ByteSize ≤ 32

/-- Entries between brackets, each on a line of its own, indented by two more. -/
def block (opening closing : String) (indent : Nat) (entries : List String) : String :=
  let lines := entries.map fun entry => Text.spaces (indent + 2) ++ entry
  opening ++ "\n" ++ ",\n".intercalate lines ++ "\n" ++ Text.spaces indent ++ closing

mutual

/-- The type with an entry to a line, for a place with the given indentation. A union of
short types stays on one line. -/
def pretty (indent : Nat) : DataType → String
  | object properties rest required n =>
    if properties.isEmpty then (object properties rest required n).text
    else
      block "\x7b" "\x7d" indent
        (prettyProperties (indent + 2) required properties ++
          (restText? rest (rest.pretty (indent + 2))).toList)
  | array front rest minimum _ =>
    if front.isEmpty then
      if rest.isNever then "[]" else listText rest (rest.pretty indent)
    else
      block "[" "]" indent
        (prettyElements (indent + 2) minimum 0 front ++
          (furtherText? rest (rest.pretty (indent + 2))).toList)
  | union ms n =>
    if ms.all isShort then (union ms n).text
    else ("\n" ++ Text.spaces indent ++ "| ").intercalate (prettyEach indent ms)
  | t => t.text

def prettyProperties (indent : Nat) (required : List String) :
    List (String × DataType) → List String
  | [] => []
  | (name, t) :: rest =>
    propertyText required name (t.pretty indent) :: prettyProperties indent required rest

def prettyElements (indent minimum i : Nat) : List DataType → List String
  | [] => []
  | t :: rest =>
    elementText minimum i (t.pretty indent) :: prettyElements indent minimum (i + 1) rest

def prettyEach (indent : Nat) : List DataType → List String
  | [] => []
  | t :: rest => t.pretty indent :: prettyEach indent rest

end

end DataType

end JsonPath
