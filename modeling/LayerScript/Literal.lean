/-
`Literal.lean` -- values as the scripts spell them.

A parameter arrives as text or as a number, and the script needs a literal. Three
shapes cover everything: a text with a comma becomes a tuple of its items, text
that is a plain decimal number stands bare, and all else stands between double
quotes. Nothing inside the quotes is escaped. A switch never comes this way; it
has its own two words.

The work is done on lists of characters, where it is recursion on the text.
-/
import LayerScript.Text.Blank
import LayerScript.Text.Split

set_option autoImplicit false

namespace LayerScript.Literal

/-! ## 1. Numbers -/

/-- Whether a character is one of the ten digits. -/
def isDigit (c : Char) : Bool := '0' ≤ c && c ≤ '9'

/-- What follows a run of digits, of which there must be at least one. -/
def afterDigits : List Char → Option (List Char)
  | [] => none
  | c :: rest => if isDigit c then some (rest.dropWhile isDigit) else none

/-- What follows an optional fraction: a point needs at least one digit after it. -/
def afterFraction : List Char → Option (List Char)
  | '.' :: rest => afterDigits rest
  | rest => some rest

/-- What follows an optional sign. -/
def afterSign : List Char → List Char
  | '+' :: rest => rest
  | '-' :: rest => rest
  | rest => rest

/-- What follows an optional exponent: its letter needs at least one digit, signed or not. -/
def afterExponent : List Char → Option (List Char)
  | 'e' :: rest => afterDigits (afterSign rest)
  | 'E' :: rest => afterDigits (afterSign rest)
  | rest => some rest

/-- What follows an optional minus sign. -/
def afterMinus : List Char → List Char
  | '-' :: rest => rest
  | rest => rest

/-- Whether a text is a decimal number from end to end: an optional minus, digits,
an optional fraction, an optional exponent. -/
def isNumberList (text : List Char) : Bool :=
  match (afterDigits (afterMinus text) >>= afterFraction) >>= afterExponent with
  | some [] => true
  | _ => false

/-- Whether a text is a decimal number. -/
def isNumber (text : String) : Bool :=
  isNumberList text.toList

/-! ## 2. Names -/

/-- Whether a character may begin a name: an ASCII letter or an underscore. -/
def isNameStart (c : Char) : Bool := c.isAlpha || c == '_'

/-- Whether a character may stand in a name after the first: a digit as well. -/
def isNamePart (c : Char) : Bool := c.isAlphanum || c == '_'

/-- Whether a text has the shape of a name. Words the script language keeps for
itself have that shape too. -/
def isName (text : String) : Bool :=
  match text.toList with
  | [] => false
  | c :: rest => isNameStart c && rest.all isNamePart

/-! ## 3. Literals -/

/-- A text between double quotes, as it is. -/
def quoteList (text : List Char) : List Char :=
  '"' :: text ++ ['"']

/-- The items of a tuple, trimmed and joined again by bare commas. -/
def tupleList (text : List Char) : List Char :=
  '(' :: [','].intercalate ((Text.split ',' text).map Text.trim) ++ [')']

/-- The literal of a text. -/
def ofList (text : List Char) : List Char :=
  if text.contains ',' then tupleList text
  else if isNumberList text then text
  else quoteList text

/-- The literal of a text. -/
def ofText (text : String) : String :=
  String.ofList (ofList text.toList)

/-- A text between double quotes, as it is. -/
def quote (text : String) : String :=
  String.ofList (quoteList text.toList)

/-- The word for a switch. -/
def ofBool (b : Bool) : String :=
  if b then "True" else "False"

end LayerScript.Literal
