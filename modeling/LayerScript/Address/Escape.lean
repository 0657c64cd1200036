/-
`Address/Escape.lean` -- characters that an address spells by their bytes.

A character that has no place in a part of an address stands there as the bytes of
its UTF-8 form, each a percent sign and two hexadecimal digits. Controls and
everything beyond ASCII are written so in every part; which other characters are
depends on the part, so each part has a set of its own. A percent sign itself is
never escaped, hence an address that was escaped before stays as it is.
-/
set_option autoImplicit false

namespace LayerScript.Address

/-! ## 1. Escaping -/

/-- The digit of a number below sixteen, in upper case. -/
def hexDigit (n : Nat) : Char :=
  (Nat.digitChar n).toUpper

/-- A byte as it stands in an address. -/
def escapedByte (b : UInt8) : List Char :=
  ['%', hexDigit (b.toNat / 16), hexDigit (b.toNat % 16)]

/-- A set of ASCII characters that a part of an address escapes beside the controls. -/
abbrev EscapeSet := List Char

/-- The characters escaped in a fragment. -/
def fragmentSet : EscapeSet := [' ', '"', '<', '>', '`']

/-- The characters escaped in a path. -/
def pathSet : EscapeSet := fragmentSet ++ ['#', '?', '\x7b', '\x7d']

/-- The characters escaped in a user's name and password. -/
def userSet : EscapeSet := pathSet ++ ['/', ':', ';', '=', '@', '[', '\\', ']', '^', '|']

/-- The characters escaped in a query. -/
def querySet : EscapeSet := [' ', '"', '#', '<', '>']

/-- The characters escaped in a query behind a scheme of the web or of files. -/
def hostQuerySet : EscapeSet := '\'' :: querySet

/-- Whether a character is escaped in every part. -/
def isAlwaysEscaped (c : Char) : Bool :=
  c.toNat < 0x20 || 0x7F ≤ c.toNat

/-- One character of a part of an address. -/
def escapedChar (set : EscapeSet) (c : Char) : List Char :=
  if isAlwaysEscaped c || set.contains c then (String.utf8EncodeChar c).flatMap escapedByte else [c]

/-- A text as it stands in a part of an address. -/
def escape (set : EscapeSet) (text : List Char) : List Char :=
  text.flatMap (escapedChar set)

/-! ## 2. Reading back -/

/-- The value of a hexadecimal digit. -/
def hexDigitValue? (c : Char) : Option Nat :=
  if '0' ≤ c && c ≤ '9' then some (c.toNat - '0'.toNat)
  else if 'a' ≤ c && c ≤ 'f' then some (c.toNat - 'a'.toNat + 10)
  else if 'A' ≤ c && c ≤ 'F' then some (c.toNat - 'A'.toNat + 10)
  else none

/-- The bytes that a text with escapes stands for. A percent sign without two digits behind
it stands for itself. -/
def unescapedBytes : List Char → List UInt8
  | [] => []
  | '%' :: a :: b :: rest =>
    match hexDigitValue? a, hexDigitValue? b with
    | some high, some low => UInt8.ofNat (high * 16 + low) :: unescapedBytes rest
    | _, _ => '%'.toUInt8 :: unescapedBytes (a :: b :: rest)
  | c :: rest => String.utf8EncodeChar c ++ unescapedBytes rest

/-- The text that a text with escapes stands for, if its bytes are one. -/
def unescape? (text : List Char) : Option (List Char) :=
  (String.fromUTF8? (ByteArray.mk (unescapedBytes text).toArray)).map String.toList

end LayerScript.Address
