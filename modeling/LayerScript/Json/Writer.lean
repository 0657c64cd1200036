/-
`Json/Writer.lean` -- documents as JSON text, on one line or indented.

The compact form has no space at all and is what is stored in files; the indented
form puts every item on a line of its own, two spaces deeper than its container,
and is what is shown. An empty list or object is closed at once in both. Fields
come out in the order the object holds them.
-/
import LayerScript.Value

set_option autoImplicit false

namespace LayerScript.Json

/-! ## 1. Strings -/

/-- The letter that stands behind a backslash for this character, if it has one. -/
def escapeLetter : Char → Option Char
  | '"' => some '"'
  | '\\' => some '\\'
  | '\x08' => some 'b'
  | '\x0c' => some 'f'
  | '\n' => some 'n'
  | '\r' => some 'r'
  | '\t' => some 't'
  | _ => none

/-- A hexadecimal digit in lower case. -/
def hexDigit (n : Nat) : Char :=
  Nat.digitChar (n % 16)

/-- One character of a string: controls are escaped, all else beyond the quote and the
backslash stands for itself. -/
def stringChar (c : Char) : List Char :=
  match escapeLetter c with
  | some letter => ['\\', letter]
  | none =>
    if c.toNat < 0x20 then
      ['\\', 'u', '0', '0', hexDigit (c.toNat / 16), hexDigit c.toNat]
    else [c]

/-- A string with its quotes. -/
def stringText (text : String) : String :=
  "\"" ++ String.ofList (text.toList.flatMap stringChar) ++ "\""

/-- The text of a number. A value that is not finite has none in JSON. -/
def numberText : Number → String
  | .int value => (Number.int value).text
  | .float value => if value.isFinite then (Number.float value).text else "null"

end LayerScript.Json

namespace LayerScript

/-! ## 2. The compact form -/

mutual

/-- A document on one line, without spaces. -/
def Value.compact : Value → String
  | .null => "null"
  | .bool value => if value then "true" else "false"
  | .number n => Json.numberText n
  | .text s => Json.stringText s
  | .list items => "[" ++ Value.compactItems items ++ "]"
  | .object fields => "\x7b" ++ Value.compactFields fields ++ "\x7d"

/-- The items of a list, separated by commas. -/
def Value.compactItems : List Value → String
  | [] => ""
  | [v] => v.compact
  | v :: rest => v.compact ++ "," ++ Value.compactItems rest

/-- The fields of an object, separated by commas. -/
def Value.compactFields : List (String × Value) → String
  | [] => ""
  | [(key, v)] => Json.stringText key ++ ":" ++ v.compact
  | (key, v) :: rest =>
    Json.stringText key ++ ":" ++ v.compact ++ "," ++ Value.compactFields rest

end

/-! ## 3. The indented form -/

/-- A line break and the indentation of the next line. -/
def Json.newLine (depth : Nat) : String :=
  "\n" ++ String.ofList (List.replicate (2 * depth) ' ')

mutual

/-- A document whose first line is already indented by `depth` levels. -/
def Value.indented (depth : Nat) : Value → String
  | .list [] => "[]"
  | .object [] => "\x7b\x7d"
  | .list items => "[" ++ Value.indentedItems (depth + 1) items ++ Json.newLine depth ++ "]"
  | .object fields =>
    "\x7b" ++ Value.indentedFields (depth + 1) fields ++ Json.newLine depth ++ "\x7d"
  | .null => "null"
  | .bool value => if value then "true" else "false"
  | .number n => Json.numberText n
  | .text s => Json.stringText s

/-- The items of a list, each on a line of its own. -/
def Value.indentedItems (depth : Nat) : List Value → String
  | [] => ""
  | [v] => Json.newLine depth ++ v.indented depth
  | v :: rest => Json.newLine depth ++ v.indented depth ++ "," ++ Value.indentedItems depth rest

/-- The fields of an object, each on a line of its own. -/
def Value.indentedFields (depth : Nat) : List (String × Value) → String
  | [] => ""
  | [(key, v)] => Json.newLine depth ++ Json.stringText key ++ ": " ++ v.indented depth
  | (key, v) :: rest =>
    Json.newLine depth ++ Json.stringText key ++ ": " ++ v.indented depth ++ ","
      ++ Value.indentedFields depth rest

end

/-- A document in the indented form. -/
def Value.pretty (v : Value) : String :=
  v.indented 0

end LayerScript
