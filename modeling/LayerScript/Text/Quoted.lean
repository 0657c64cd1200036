/-
`Text/Quoted.lean` -- a text between double quotes, as messages and log lines show it.

Six characters have a letter of their own behind a backslash, every other
character without a shape is shown by its code point in hexadecimal, and all
else stands for itself, letters beyond ASCII and the single quote included.
-/
import LayerScript.Text.Unprintable

set_option autoImplicit false

namespace LayerScript.Text

/-- The letter that stands behind a backslash for this character, if it has one. -/
def escapeLetter : Char → Option Char
  | '"' => some '"'
  | '\\' => some '\\'
  | '\n' => some 'n'
  | '\r' => some 'r'
  | '\t' => some 't'
  | '\x00' => some '0'
  | _ => none

/-- A number in lower-case hexadecimal, without leading zeros. -/
def hexadecimal (n : Nat) : List Char :=
  Nat.toDigits 16 n

/-- One character inside quotes. -/
def quotedChar (c : Char) : List Char :=
  match escapeLetter c with
  | some letter => ['\\', letter]
  | none =>
    if isUnprintable c then ['\\', 'u', '\x7b'] ++ hexadecimal c.toNat ++ ['\x7d'] else [c]

/-- A text between double quotes. -/
def quoted (text : String) : String :=
  "\"" ++ String.ofList (text.toList.flatMap quotedChar) ++ "\""

/-- A list of texts, each between quotes, in square brackets. -/
def quotedList (texts : List String) : String :=
  "[" ++ ", ".intercalate (texts.map quoted) ++ "]"

end LayerScript.Text
