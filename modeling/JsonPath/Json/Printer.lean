import JsonPath.Json
import JsonPath.Text

/-!
The compact text of a document: no blanks, members in order, and in a string only quotes,
backslashes and the characters below the space escaped.
-/

namespace JsonPath.Json

/-- A character as it stands inside a quoted string. -/
def quoteChar (c : Char) : String :=
  if c = '"' then "\\\""
  else if c = '\\' then "\\\\"
  else if c = '\x08' then "\\b"
  else if c = '\x0c' then "\\f"
  else if c = '\n' then "\\n"
  else if c = '\r' then "\\r"
  else if c = '\t' then "\\t"
  else if c.toNat < 0x20 then Text.unicodeEscape c
  else String.singleton c

/-- A string between quotes. -/
def quote (s : String) : String := "\"" ++ String.join (s.toList.map quoteChar) ++ "\""

mutual

def text : Json → String
  | .null => "null"
  | .bool b => if b then "true" else "false"
  | .number n => n.text
  | .string s => quote s
  | .array items => "[" ++ ",".intercalate (itemTexts items) ++ "]"
  | .object members => "\x7b" ++ ",".intercalate (memberTexts members) ++ "\x7d"

def itemTexts : List Json → List String
  | [] => []
  | item :: rest => item.text :: itemTexts rest

def memberTexts : List (String × Json) → List String
  | [] => []
  | (name, value) :: rest => (quote name ++ ":" ++ value.text) :: memberTexts rest

end

end JsonPath.Json
