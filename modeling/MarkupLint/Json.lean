import MarkupLint.Text.Quoted

/-!
# JSON

The values that a report in JSON is made of, and how they are written: indented by two spaces, one
item on a line, and in ASCII only. Characters outside of it are given by their UTF-16 code units.
-/

namespace MarkupLint

/-- A JSON value. Numbers are natural numbers here. -/
inductive Json where
  | null
  | num (n : Nat)
  | str (s : String)
  | arr (items : List Json)
  | obj (fields : List (String × Json))

namespace Json

/-- A code unit by its number. -/
def escapeUnit (n : Nat) : String := "\\u" ++ hexDigits 4 n

/-- A character in a string. -/
def escape (c : Char) : String :=
  if c = '\x22' then "\\\""
  else if c = '\\' then "\\\\"
  else if c = '\n' then "\\n"
  else if c = '\r' then "\\r"
  else if c = '\t' then "\\t"
  else if c = '\x0c' then "\\f"
  else if c = '\x08' then "\\b"
  else if 0x20 ≤ c.toNat && c.toNat < 0x7F then String.singleton c
  else if c.toNat < 0x10000 then escapeUnit c.toNat
  else
    let n := c.toNat - 0x10000
    escapeUnit (0xD800 + n / 0x400) ++ escapeUnit (0xDC00 + n % 0x400)

/-- A string between its quotes. -/
def writeString (s : String) : String := "\"" ++ String.join (s.toList.map escape) ++ "\""

/-- The start of a line at the given depth. -/
def newline (depth : Nat) : String := "\n" ++ String.ofList (List.replicate (2 * depth) ' ')

mutual

/-- A value that stands at the given depth. -/
def writeAt (depth : Nat) : Json → String
  | .null => "null"
  | .num n => toString n
  | .str s => writeString s
  | .arr [] => "[]"
  | .arr (item :: items) =>
    "[" ++ newline (depth + 1) ++ writeAt (depth + 1) item ++ writeItems (depth + 1) items ++
      newline depth ++ "]"
  | .obj [] => "\x7b\x7d"
  | .obj ((name, value) :: fields) =>
    "\x7b" ++ newline (depth + 1) ++ writeString name ++ ": " ++ writeAt (depth + 1) value ++
      writeFields (depth + 1) fields ++ newline depth ++ "\x7d"

/-- The items of a list behind the first. -/
def writeItems (depth : Nat) : List Json → String
  | [] => ""
  | item :: items => "," ++ newline depth ++ writeAt depth item ++ writeItems depth items

/-- The fields of an object behind the first. -/
def writeFields (depth : Nat) : List (String × Json) → String
  | [] => ""
  | (name, value) :: fields =>
    "," ++ newline depth ++ writeString name ++ ": " ++ writeAt depth value ++
      writeFields depth fields

end

/-- A value as a document of its own. -/
def write (value : Json) : String := value.writeAt 0

end Json

end MarkupLint
