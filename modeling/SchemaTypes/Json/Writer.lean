import SchemaTypes.Json.Value
import SchemaTypes.Number.Layout

/-!
Compact JSON text.

* `Number.text`: integers in decimal, binary64 numbers by their shortest
  digits;
* `Json.compact`: a value without any blank, its fields in order; in strings
  only the quote, the backslash and the characters below U+0020 are escaped.
-/

namespace SchemaTypes

/-- The text of a number. -/
def Number.text : Number → String
  | .integer value => toString value
  | .real value => value.text

namespace Json

def hexDigit (n : Nat) : Char := Nat.digitChar (n % 16)

/-- The written form of one character inside a string. -/
def escape (c : Char) : List Char :=
  match c with
  | '"' => ['\\', '"']
  | '\\' => ['\\', '\\']
  | '\x08' => ['\\', 'b']
  | '\t' => ['\\', 't']
  | '\n' => ['\\', 'n']
  | '\x0c' => ['\\', 'f']
  | '\r' => ['\\', 'r']
  | c =>
    if c.toNat < 0x20 then ['\\', 'u', '0', '0', hexDigit (c.toNat / 16), hexDigit c.toNat]
    else [c]

/-- A quoted string. -/
def quoted (text : String) : String :=
  String.ofList ('"' :: text.toList.flatMap escape ++ ['"'])

mutual

/-- The compact text of a value. -/
def compact : Json → String
  | null => "null"
  | bool true => "true"
  | bool false => "false"
  | num value => value.text
  | str text => quoted text
  | arr items => "[" ++ compactItems items ++ "]"
  | obj fields => "\x7b" ++ compactFields fields ++ "\x7d"

/-- The items of an array, parted by commas. -/
def compactItems : List Json → String
  | [] => ""
  | [item] => compact item
  | item :: next :: rest => compact item ++ "," ++ compactItems (next :: rest)

/-- The fields of an object, parted by commas. -/
def compactFields : List (String × Json) → String
  | [] => ""
  | [(key, value)] => quoted key ++ ":" ++ compact value
  | (key, value) :: next :: rest =>
    quoted key ++ ":" ++ compact value ++ "," ++ compactFields (next :: rest)

end

/-- Strings as they are, every other value as compact text. -/
def literal : Json → String
  | str text => text
  | value => value.compact

end Json

end SchemaTypes
