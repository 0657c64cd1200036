/-
`Toml/Reader.lean` -- the keys and values of a settings file.

This is the lexical half of TOML 1.0: blanks and comments, the four kinds of
string, numbers, dates, keys, and the values made of them. How tables are put
together from headers and dotted keys is the other half (`Toml.Document`), except
that an inline table is closed where it ends and so is read here as well.

A step takes what is left of the text and returns what it leaves, or nothing; a
settings file is not quoted back to its author, so no fault is told apart. Where
a value could be read in several ways the longest is tried first, and what a
shorter one would leave over is never the end of a value.
-/
import LayerScript.Toml.Table

set_option autoImplicit false

namespace LayerScript.Toml

/-- A reader: it takes a beginning of the text and leaves the rest. -/
abbrev Reader (α : Type) := List Char → Option (α × List Char)

/-! ## 1. Blanks, comments and lines -/

/-- Space and tab stand between the tokens of a line. -/
def isSpace (c : Char) : Bool := c == ' ' || c == '\t'

/-- What follows the blanks. -/
def skipSpace (s : List Char) : List Char := s.dropWhile isSpace

/-- Whether a character is beyond ASCII; such a one may stand wherever text may. -/
def isBeyondAscii (c : Char) : Bool := 0x80 ≤ c.toNat

/-- Whether a character may stand in a comment: no control character but the tab. -/
def isCommentChar (c : Char) : Bool :=
  c == '\t' || (0x20 ≤ c.toNat && c.toNat ≤ 0x7E) || isBeyondAscii c

/-- What follows a line break. -/
def lineBreak? : List Char → Option (List Char)
  | '\n' :: rest => some rest
  | '\r' :: '\n' :: rest => some rest
  | _ => none

/-- What follows the end of a line, which may also be the end of the text. -/
def lineEnd? (s : List Char) : Option (List Char) :=
  if s.isEmpty then some [] else lineBreak? s

/-- What follows a comment, if there is one. -/
def skipComment : List Char → List Char
  | '#' :: rest => rest.dropWhile isCommentChar
  | s => s

/-- What follows a line on which nothing more than a comment stands. -/
def finishLine (s : List Char) : Option (List Char) :=
  lineEnd? (skipComment (skipSpace s))

/-- What follows blanks, comments and line breaks, as they may stand inside a list. A
comment there must end in a line break. -/
def skipLines : Nat → List Char → Option (List Char)
  | 0, s => some s
  | fuel + 1, s =>
    match skipSpace s with
    | '#' :: rest => do
      let rest ← lineBreak? (rest.dropWhile isCommentChar)
      skipLines fuel rest
    | '\n' :: rest => skipLines fuel rest
    | '\r' :: rest => do
      let rest ← lineBreak? ('\r' :: rest)
      skipLines fuel rest
    | s => some s

/-! ## 2. Strings -/

/-- The value of a hexadecimal digit of either case. -/
def hexValue? (c : Char) : Option Nat :=
  if c.isDigit then some (c.toNat - 0x30)
  else if 'a' ≤ c && c ≤ 'f' then some (c.toNat - 0x57)
  else if 'A' ≤ c && c ≤ 'F' then some (c.toNat - 0x37)
  else none

/-- A number of exactly `digits` hexadecimal digits. -/
def hexNumber : Nat → Nat → Reader Nat
  | 0, value, s => some (value, s)
  | digits + 1, value, s =>
    match s with
    | [] => none
    | c :: rest => do
      let d ← hexValue? c
      hexNumber digits (value * 16 + d) rest

/-- The character with a code point, if it is one. -/
def scalar? (n : Nat) : Option Char :=
  if n.isValidChar then some (Char.ofNat n) else none

/-- The character of an escape, after its backslash. -/
def escape : Reader Char
  | 'b' :: rest => some ('\x08', rest)
  | 't' :: rest => some ('\t', rest)
  | 'n' :: rest => some ('\n', rest)
  | 'f' :: rest => some ('\x0c', rest)
  | 'r' :: rest => some ('\r', rest)
  | '"' :: rest => some ('"', rest)
  | '\\' :: rest => some ('\\', rest)
  | 'u' :: rest => do
    let (n, rest) ← hexNumber 4 0 rest
    let c ← scalar? n
    some (c, rest)
  | 'U' :: rest => do
    let (n, rest) ← hexNumber 8 0 rest
    let c ← scalar? n
    some (c, rest)
  | _ => none

/-- Whether a character stands for itself between double quotes. -/
def isBasicChar (c : Char) : Bool :=
  isCommentChar c && c ≠ '"' && c ≠ '\\'

/-- Whether a character stands for itself between single quotes. -/
def isLiteralChar (c : Char) : Bool :=
  isCommentChar c && c ≠ '\''

/-- The rest of a string between double quotes, read so far in reverse. -/
def basicString : Nat → List Char → Reader String
  | 0, _, _ => none
  | fuel + 1, read, s =>
    match s with
    | '"' :: rest => some (String.ofList read.reverse, rest)
    | '\\' :: rest => do
      let (c, rest) ← escape rest
      basicString fuel (c :: read) rest
    | c :: rest => if isBasicChar c then basicString fuel (c :: read) rest else none
    | [] => none

/-- The rest of a string between single quotes. -/
def literalString (s : List Char) : Option (String × List Char) :=
  match s.dropWhile isLiteralChar with
  | '\'' :: rest => some (String.ofList (s.takeWhile isLiteralChar), rest)
  | _ => none

/-- White space and line breaks, as a backslash at the end of a line skips them. -/
def skipFolded : Nat → List Char → List Char
  | 0, s => s
  | fuel + 1, s =>
    match s with
    | ' ' :: rest => skipFolded fuel rest
    | '\t' :: rest => skipFolded fuel rest
    | s =>
      match lineBreak? s with
      | some rest => skipFolded fuel rest
      | none => s

/-- The quotes at the end of a string of several lines: of a run of three or more, up
to two belong to the string and three close it. -/
def closing? (quote : Char) (s : List Char) : Option (Nat × List Char) :=
  let run := (s.takeWhile (· == quote)).length
  if run < 3 then none
  else
    let kept := min (run - 3) 2
    some (kept, s.drop (kept + 3))

/-- The rest of a string of several lines between double quotes. -/
def longBasicString : Nat → List Char → Reader String
  | 0, _, _ => none
  | fuel + 1, read, s =>
    match closing? '"' s with
    | some (kept, rest) =>
      some (String.ofList (read.reverse ++ List.replicate kept '"'), rest)
    | none =>
      match s with
      | '"' :: rest => longBasicString fuel ('"' :: read) rest
      | '\\' :: rest =>
        match lineBreak? (skipSpace rest) with
        | some rest => longBasicString fuel read (skipFolded rest.length rest)
        | none => do
          let (c, rest) ← escape rest
          longBasicString fuel (c :: read) rest
      | c :: rest =>
        if isBasicChar c then longBasicString fuel (c :: read) rest
        else do
          let rest ← lineBreak? (c :: rest)
          longBasicString fuel ('\n' :: read) rest
      | [] => none

/-- The rest of a string of several lines between single quotes. -/
def longLiteralString : Nat → List Char → Reader String
  | 0, _, _ => none
  | fuel + 1, read, s =>
    match closing? '\'' s with
    | some (kept, rest) =>
      some (String.ofList (read.reverse ++ List.replicate kept '\''), rest)
    | none =>
      match s with
      | '\'' :: rest => longLiteralString fuel ('\'' :: read) rest
      | c :: rest =>
        if isLiteralChar c then longLiteralString fuel (c :: read) rest
        else do
          let rest ← lineBreak? (c :: rest)
          longLiteralString fuel ('\n' :: read) rest
      | [] => none

/-- What follows a line break right behind the opening of a string of several lines. -/
def skipFirstBreak (s : List Char) : List Char :=
  (lineBreak? s).getD s

/-- A string of any kind. -/
def string : Reader String
  | '"' :: '"' :: '"' :: rest => longBasicString (rest.length + 1) [] (skipFirstBreak rest)
  | '"' :: rest => basicString (rest.length + 1) [] rest
  | '\'' :: '\'' :: '\'' :: rest => longLiteralString (rest.length + 1) [] (skipFirstBreak rest)
  | '\'' :: rest => literalString rest
  | _ => none

/-! ## 3. Numbers -/

/-- Digits with single underscores between them, read so far in reverse. -/
def digitRun (isDigit : Char → Bool) (read : List Char) : List Char → List Char × List Char
  | '_' :: c :: rest =>
    if isDigit c then digitRun isDigit (c :: read) rest else (read.reverse, '_' :: c :: rest)
  | c :: rest =>
    if isDigit c then digitRun isDigit (c :: read) rest else (read.reverse, c :: rest)
  | [] => (read.reverse, [])

/-- At least one digit, with single underscores between the digits. -/
def digits (isDigit : Char → Bool) : Reader (List Char)
  | c :: rest => if isDigit c then some (digitRun isDigit [c] rest) else none
  | [] => none

/-- The number that digits denote in a base. -/
def valueOf (base : Nat) (ds : List Char) : Nat :=
  ds.foldl (fun n c => n * base + (hexValue? c).getD 0) 0

/-- An optional sign. -/
def sign : List Char → Bool × List Char
  | '-' :: rest => (true, rest)
  | '+' :: rest => (false, rest)
  | s => (false, s)

/-- The digits of a decimal integer, which has no zero in front. -/
def wholeDigits : Reader (List Char)
  | '0' :: rest => some (['0'], rest)
  | s => digits Char.isDigit s

/-- An integer that 64 bits hold. -/
def bounded (i : Int) : Option Number :=
  if -(Nat.pow 2 63 : Int) ≤ i ∧ i < (Nat.pow 2 63 : Int) then some (.int i) else none

/-- An integer in one of the four bases. -/
def integer (s : List Char) : Option (Number × List Char) :=
  let based (base : Nat) (isDigit : Char → Bool) (rest : List Char) :
      Option (Number × List Char) := do
    let (ds, rest) ← digits isDigit rest
    let n ← bounded (valueOf base ds)
    some (n, rest)
  match s with
  | '0' :: 'x' :: rest => based 16 (fun c => (hexValue? c).isSome) rest
  | '0' :: 'o' :: rest => based 8 (fun c => '0' ≤ c && c ≤ '7') rest
  | '0' :: 'b' :: rest => based 2 (fun c => c == '0' || c == '1') rest
  | s => do
    let (negative, rest) := sign s
    let (ds, rest) ← wholeDigits rest
    let value : Int := valueOf 10 ds
    let n ← bounded (if negative then -value else value)
    some (n, rest)

/-- An exponent with its letter. -/
def exponent : Reader Int
  | c :: rest =>
    if c == 'e' || c == 'E' then do
      let (negative, rest) := sign rest
      let (ds, rest) ← digits Char.isDigit rest
      let value : Int := valueOf 10 ds
      some (if negative then -value else value, rest)
    else none
  | [] => none

/-- A fraction with its point. -/
def fraction : Reader (List Char)
  | '.' :: rest => digits Char.isDigit rest
  | _ => none

/-- A floating-point number in decimal. One that is too great has no value; one that is
too far below zero is infinite. -/
def decimal (s : List Char) : Option (Number × List Char) := do
  let (negative, rest) := sign s
  let (whole, rest) ← wholeDigits rest
  let (part, power, rest) ←
    match fraction rest with
    | some (part, rest) =>
      match exponent rest with
      | some (power, rest) => some (part, power, rest)
      | none => some (part, 0, rest)
    | none => do
      let (power, rest) ← exponent rest
      some ([], power, rest)
  let x := Binary64.ofDecimal negative (valueOf 10 (whole ++ part)) (power - part.length)
  if x = .infinite false then none else some (.float x, rest)

/-- A floating-point value that is written as a word. -/
def special (s : List Char) : Option (Number × List Char) :=
  let (negative, rest) := sign s
  match rest with
  | 'i' :: 'n' :: 'f' :: rest => some (.float (.infinite negative), rest)
  | 'n' :: 'a' :: 'n' :: rest => some (.float .notANumber, rest)
  | _ => none

/-! ## 4. Dates and times -/

/-- A number of exactly two digits within bounds. -/
def twoDigits (low high : Nat) : Reader Nat
  | a :: b :: rest =>
    if a.isDigit && b.isDigit then
      let n := valueOf 10 [a, b]
      if low ≤ n && n ≤ high then some (n, rest) else none
    else none
  | _ => none

/-- What follows an expected character. -/
def expect (c : Char) : Reader Unit
  | d :: rest => if d = c then some ((), rest) else none
  | [] => none

/-- A number with at least `width` digits. -/
def padded (width n : Nat) : List Char :=
  let ds := Nat.toDigits 10 n
  List.replicate (width - ds.length) '0' ++ ds

/-- The number of days of a month. -/
def daysOf (year month : Nat) : Nat :=
  if month = 2 then
    if year % 4 = 0 && (year % 100 ≠ 0 || year % 400 = 0) then 29 else 28
  else if month = 4 || month = 6 || month = 9 || month = 11 then 30
  else 31

/-- A date of the calendar, in its usual spelling. -/
def date : Reader (List Char)
  | a :: b :: c :: d :: rest =>
    if [a, b, c, d].all Char.isDigit then do
      let year := valueOf 10 [a, b, c, d]
      let ((), rest) ← expect '-' rest
      let (month, rest) ← twoDigits 1 12 rest
      let ((), rest) ← expect '-' rest
      let (day, rest) ← twoDigits 1 31 rest
      if day ≤ daysOf year month then
        some ([a, b, c, d] ++ ['-'] ++ padded 2 month ++ ['-'] ++ padded 2 day, rest)
      else none
    else none
  | _ => none

/-- The fraction of a second: nine digits count, and zeros at the end are not written. -/
def secondFraction (s : List Char) : List Char × List Char :=
  match s with
  | '.' :: rest =>
    let ds := rest.takeWhile Char.isDigit
    if ds.isEmpty then ([], s)
    else
      let kept := ((ds.take 9).reverse.dropWhile (· == '0')).reverse
      (if kept.isEmpty then [] else '.' :: kept, rest.dropWhile Char.isDigit)
  | s => ([], s)

/-- A time of day, in its usual spelling. -/
def time (s : List Char) : Option (List Char × List Char) := do
  let (hour, rest) ← twoDigits 0 23 s
  let ((), rest) ← expect ':' rest
  let (minute, rest) ← twoDigits 0 59 rest
  let ((), rest) ← expect ':' rest
  let (second, rest) ← twoDigits 0 60 rest
  let (part, rest) := secondFraction rest
  some (padded 2 hour ++ [':'] ++ padded 2 minute ++ [':'] ++ padded 2 second ++ part, rest)

/-- The offset of a time from the universal one. -/
def offset : Reader (List Char)
  | 'Z' :: rest => some (['Z'], rest)
  | 'z' :: rest => some (['Z'], rest)
  | c :: rest =>
    if c == '+' || c == '-' then do
      let (hour, rest) ← twoDigits 0 23 rest
      let ((), rest) ← expect ':' rest
      let (minute, rest) ← twoDigits 0 59 rest
      let shown := if hour = 0 && minute = 0 then '+' else c
      some ([shown] ++ padded 2 hour ++ [':'] ++ padded 2 minute, rest)
    else none
  | [] => none

/-- The time that may follow a date, behind a letter or a space. -/
def timeAfterDate : Reader (List Char)
  | c :: rest =>
    if c == 'T' || c == 't' || c == ' ' then do
      let (clock, rest) ← time rest
      match offset rest with
      | some (zone, rest) => some (['T'] ++ clock ++ zone, rest)
      | none => some (['T'] ++ clock, rest)
    else none
  | [] => none

/-- A date, a time, or both. -/
def moment (s : List Char) : Option (String × List Char) :=
  match date s with
  | some (day, rest) =>
    match timeAfterDate rest with
    | some (clock, rest) => some (String.ofList (day ++ clock), rest)
    | none => some (String.ofList day, rest)
  | none => (time s).map fun (clock, rest) => (String.ofList clock, rest)

/-- The key under which a date stands in the document. A date is a value of its own
kind in a settings file; here it is an object with this one key, so that nothing
but a table from texts to texts can be read from it. -/
def momentKey : String := "$__toml_private_datetime"

/-! ## 5. Keys -/

/-- Whether a character may stand in a key without quotes. -/
def isKeyChar (c : Char) : Bool := c.isAlphanum || c == '_' || c == '-'

/-- One segment of a key. -/
def keySegment : Reader String
  | '"' :: rest => basicString (rest.length + 1) [] rest
  | '\'' :: rest => literalString rest
  | s =>
    let name := s.takeWhile isKeyChar
    if name.isEmpty then none else some (String.ofList name, s.dropWhile isKeyChar)

/-- The segments of a key after the first, with blanks around the points. -/
def moreSegments : Nat → List String → Reader (List String)
  | 0, _, _ => none
  | fuel + 1, read, s =>
    match skipSpace s with
    | '.' :: rest => do
      let (name, rest) ← keySegment (skipSpace rest)
      moreSegments fuel (name :: read) rest
    | s => some (read.reverse, s)

/-- The levels to which keys and values may be nested. -/
def depthLimit : Nat := 80

/-- A key: segments between points. -/
def key (s : List Char) : Option (List String × List Char) := do
  let (name, rest) ← keySegment (skipSpace s)
  let (path, rest) ← moreSegments (rest.length + 1) [name] rest
  if path.length < depthLimit then some (path, rest) else none

/-! ## 6. Values -/

/-- A value that is neither a list nor an inline table. -/
def scalar (s : List Char) : Option (Value × List Char) :=
  match s with
  | 't' :: 'r' :: 'u' :: 'e' :: rest => some (.bool true, rest)
  | 'f' :: 'a' :: 'l' :: 's' :: 'e' :: rest => some (.bool false, rest)
  | c :: _ =>
    if c == '"' || c == '\'' then (string s).map fun (text, rest) => (.text text, rest)
    else
      match moment s with
      | some (text, rest) => some (.object [(momentKey, .text text)], rest)
      | none =>
        let number := (decimal s).or ((special s).or (integer s))
        number.map fun (n, rest) => (.number n, rest)
  | [] => none

/-- The items of a list after its bracket or after a comma, read so far in reverse. A
comma may follow the last item. -/
def listItems (value : Reader Value) : Nat → List Value → Reader (List Value)
  | 0, _, _ => none
  | fuel + 1, read, s => do
    let s ← skipLines s.length s
    match s with
    | ']' :: rest => some (read.reverse, rest)
    | s => do
      let (v, rest) ← value s
      let rest ← skipLines rest.length rest
      match rest with
      | ',' :: rest => listItems value fuel (v :: read) rest
      | ']' :: rest => some ((v :: read).reverse, rest)
      | _ => none

/-- A key, the equals sign and the value. -/
def keyValue (value : Reader Value) (s : List Char) :
    Option ((List String × Value) × List Char) := do
  let (path, rest) ← key s
  match rest with
  | '=' :: rest => do
    let (v, rest) ← value (skipSpace rest)
    some ((path, v), rest)
  | _ => none

/-- The fields of an inline table after its brace or after a comma. A comma may not
follow the last field, and no line may be broken. -/
def tableFields (value : Reader Value) : Nat → Table → Reader Table
  | 0, _, _ => none
  | fuel + 1, read, s => do
    let ((path, v), rest) ← keyValue value s
    let read ← read.insert path v
    match skipSpace rest with
    | ',' :: rest => tableFields value fuel read rest
    | '}' :: rest => some (read, rest)
    | _ => none

/-- A value, given how many levels of nesting are left. -/
def value : Nat → Reader Value
  | 0, _ => none
  | depth + 1, s =>
    match s with
    | '[' :: rest =>
      if depth = 0 then none
      else do
        let (items, rest) ← listItems (value depth) (rest.length + 1) [] rest
        some (.list items, rest)
    | '{' :: rest =>
      if depth = 0 then none
      else
        match skipSpace rest with
        | '}' :: rest => some (.object [], rest)
        | _ => do
          let (fields, rest) ← tableFields (value depth) (rest.length + 1) .empty rest
          some (fields.toValue, rest)
    | s => scalar s

end LayerScript.Toml
