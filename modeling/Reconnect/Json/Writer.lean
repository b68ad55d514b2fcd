import Reconnect.Json.Value
import Reconnect.Text.Quoted

/-!
# Writing JSON

A document is written with one entry or item a line, indented by two spaces a level. Strings keep
every character except the quote, the backslash and the controls.
-/

namespace Reconnect.Json

/-- How one character stands in a string. -/
def writeChar (c : Char) : List Char :=
  match c with
  | '"' => ['\\', '"']
  | '\\' => ['\\', '\\']
  | '\x08' => ['\\', 'b']
  | '\x0c' => ['\\', 'f']
  | '\n' => ['\\', 'n']
  | '\r' => ['\\', 'r']
  | '\t' => ['\\', 't']
  | c =>
    if c.toNat < 0x20 then
      ['\\', 'u', '0', '0', Text.hexDigit (c.toNat / 16), Text.hexDigit (c.toNat % 16)]
    else [c]

/-- How one unit stands in a string. -/
def writeUnit : JsonUnit → List Char
  | .char c => writeChar c
  | .code n =>
    ['\\', 'u', Text.hexDigit (n / 4096 % 16), Text.hexDigit (n / 256 % 16),
      Text.hexDigit (n / 16 % 16), Text.hexDigit (n % 16)]

/-- A string between quotes. -/
def writeUnits (us : List JsonUnit) : List Char := '"' :: us.flatMap writeUnit ++ ['"']

/-- A line break and the indentation of a level. -/
def newLine (level : Nat) : List Char := '\n' :: List.replicate (2 * level) ' '

mutual

/-- A value at a level of indentation. -/
def writeValue (level : Nat) : Json → List Char
  | .null => "null".toList
  | .bool true => "true".toList
  | .bool false => "false".toList
  | .number ds => ds
  | .string us => writeUnits us
  | .array [] => ['[', ']']
  | .array (item :: items) =>
    '[' :: newLine (level + 1) ++ writeValue (level + 1) item ++ writeItems (level + 1) items
      ++ newLine level ++ [']']
  | .object [] => ['\x7b', '\x7d']
  | .object ((name, value) :: entries) =>
    '\x7b' :: newLine (level + 1) ++ writeUnits name ++ [':', ' '] ++ writeValue (level + 1) value
      ++ writeEntries (level + 1) entries ++ newLine level ++ ['\x7d']

/-- The items of an array after its first. -/
def writeItems (level : Nat) : List Json → List Char
  | [] => []
  | item :: items =>
    ',' :: newLine level ++ writeValue level item ++ writeItems level items

/-- The entries of an object after its first. -/
def writeEntries (level : Nat) : List (List JsonUnit × Json) → List Char
  | [] => []
  | (name, value) :: entries =>
    ',' :: newLine level ++ writeUnits name ++ [':', ' '] ++ writeValue level value
      ++ writeEntries level entries

end

/-- The text of a document. -/
def write (v : Json) : String := String.ofList (writeValue 0 v)

end Reconnect.Json
