/-
`Json/Reader.lean` -- reading a JSON text.

The reader works on the bytes of the text. Every step takes what is left of them
and returns what it leaves; a fault says what was wrong and how many bytes were
left, and only the outermost function turns that number into a line and a column.
Two habits of the positions are part of the format: a fault about a byte that was
looked at but not taken is reported one place further on than a fault about what
was already taken (`peek` and `here`), and the column counts bytes.

Nesting is limited: a list or object may stand inside at most 126 others. The
functions that read a list or an object take the reader of the next level as an
argument, so the recursion of the grammar is recursion on that depth, and the
loops inside one level run on the number of bytes left, of which every round
takes at least one.
-/
import LayerScript.Json.Writer

set_option autoImplicit false

namespace LayerScript.Json

/-! ## 1. Faults and positions -/

/-- What can be wrong with a JSON text. -/
inductive Fault where
  | unfinishedValue
  | unfinishedList
  | unfinishedObject
  | unfinishedString
  | expectedColon
  | expectedCommaInList
  | expectedCommaInObject
  | expectedWord
  | expectedValue
  | invalidEscape
  | invalidNumber
  | numberOutOfRange
  | loneSurrogate
  | unfinishedSurrogatePair
  | controlCharacter
  | keyNotString
  | trailingComma
  | trailingCharacters
  | tooDeep
  | notObject (found : String)
deriving DecidableEq, Repr

/-- The text of a fault, without its position. -/
def Fault.message : Fault → String
  | .unfinishedValue => "EOF while parsing a value"
  | .unfinishedList => "EOF while parsing a list"
  | .unfinishedObject => "EOF while parsing an object"
  | .unfinishedString => "EOF while parsing a string"
  | .expectedColon => "expected `:`"
  | .expectedCommaInList => "expected `,` or `]`"
  | .expectedCommaInObject => "expected `,` or `\x7d`"
  | .expectedWord => "expected ident"
  | .expectedValue => "expected value"
  | .invalidEscape => "invalid escape"
  | .invalidNumber => "invalid number"
  | .numberOutOfRange => "number out of range"
  | .loneSurrogate => "lone leading surrogate in hex escape"
  | .unfinishedSurrogatePair => "unexpected end of hex escape"
  | .controlCharacter => "control character (\\u0000-\\u001F) found while parsing a string"
  | .keyNotString => "key must be a string"
  | .trailingComma => "trailing comma"
  | .trailingCharacters => "trailing characters"
  | .tooDeep => "recursion limit exceeded"
  | .notObject found => "invalid type: " ++ found ++ ", expected a map"

/-- A fault at its place in the text: lines count from one, and the column is the
number of bytes since the line began. -/
structure LocatedFault where
  fault : Fault
  line : Nat
  column : Nat
deriving DecidableEq, Repr

/-- The text of a fault with its place. -/
def LocatedFault.message (f : LocatedFault) : String :=
  f.fault.message ++ " at line " ++ toString f.line ++ " column " ++ toString f.column

/-- The line and column after `read`, given those before it. -/
def advance : List UInt8 → Nat → Nat → Nat × Nat
  | [], line, column => (line, column)
  | b :: rest, line, column =>
    if b = 0x0A then advance rest (line + 1) 0 else advance rest line (column + 1)

/-- A fault with the number of bytes that were left where it stands. -/
abbrev Step (α : Type) := Except (Fault × Nat) α

/-- A fault about what was taken: it stands before the rest. -/
def here {α : Type} (fault : Fault) (rest : List UInt8) : Step α :=
  .error (fault, rest.length)

/-- A fault about the next byte: it stands behind that byte, or at the end of the text. -/
def peek {α : Type} (fault : Fault) (rest : List UInt8) : Step α :=
  .error (fault, rest.length - 1)

/-! ## 2. Characters -/

/-- Space, tab, line feed and carriage return separate tokens. -/
def isSpace (b : UInt8) : Bool :=
  b == 0x20 || b == 0x09 || b == 0x0A || b == 0x0D

/-- What follows the white space. -/
def skipSpace (s : List UInt8) : List UInt8 :=
  s.dropWhile isSpace

/-- Whether a byte is a decimal digit. -/
def isDigit (b : UInt8) : Bool :=
  0x30 ≤ b && b ≤ 0x39

/-- The value of a decimal digit. -/
def digitValue (b : UInt8) : Nat :=
  b.toNat - 0x30

/-- The value of a hexadecimal digit of either case. -/
def hexValue? (b : UInt8) : Option Nat :=
  if isDigit b then some (digitValue b)
  else if 0x61 ≤ b && b ≤ 0x66 then some (b.toNat - 0x57)
  else if 0x41 ≤ b && b ≤ 0x46 then some (b.toNat - 0x37)
  else none

/-! ## 3. Words and strings -/

/-- Takes the remaining letters of `null`, `true` or `false`. -/
def word : List UInt8 → List UInt8 → Step (List UInt8)
  | [], s => .ok s
  | _ :: _, [] => here .unfinishedValue []
  | letter :: letters, b :: rest =>
    if b = letter then word letters rest else here .expectedWord rest

/-- The four hexadecimal digits of an escape. All four bytes are taken before any
of them is judged. -/
def hexQuad : List UInt8 → Step (Nat × List UInt8)
  | a :: b :: c :: d :: rest =>
    match hexValue? a, hexValue? b, hexValue? c, hexValue? d with
    | some a, some b, some c, some d => .ok (((a * 16 + b) * 16 + c) * 16 + d, rest)
    | _, _, _, _ => here .invalidEscape rest
  | _ => here .unfinishedString []

/-- Whether a 16-bit unit is the first half of a pair. -/
def isLeading (unit : Nat) : Bool := 0xD800 ≤ unit && unit ≤ 0xDBFF

/-- Whether a 16-bit unit is the second half of a pair. -/
def isTrailing (unit : Nat) : Bool := 0xDC00 ≤ unit && unit ≤ 0xDFFF

/-- The second half of a surrogate pair, which must follow as an escape of its own. -/
def trailingUnit (s : List UInt8) : Step (Nat × List UInt8) :=
  match s with
  | [] => here .unfinishedString []
  | slash :: s =>
    if slash ≠ 0x5C then here .unfinishedSurrogatePair s
    else
      match s with
      | [] => here .unfinishedString []
      | letter :: s =>
        if letter ≠ 0x75 then here .unfinishedSurrogatePair s
        else do
          let (unit, rest) ← hexQuad s
          if isTrailing unit then .ok (unit, rest) else here .loneSurrogate rest

/-- The character of a `\u` escape, whose second half may need a second escape. -/
def unicodeEscape (s : List UInt8) : Step (Char × List UInt8) := do
  let (unit, rest) ← hexQuad s
  if isTrailing unit then here .loneSurrogate rest
  else if isLeading unit then
    let (second, rest) ← trailingUnit rest
    .ok (Char.ofNat (0x10000 + (unit - 0xD800) * 0x400 + (second - 0xDC00)), rest)
  else .ok (Char.ofNat unit, rest)

/-- The byte that a one-letter escape stands for. -/
def escaped? : UInt8 → Option UInt8
  | 0x22 => some 0x22
  | 0x5C => some 0x5C
  | 0x2F => some 0x2F
  | 0x62 => some 0x08
  | 0x66 => some 0x0C
  | 0x6E => some 0x0A
  | 0x72 => some 0x0D
  | 0x74 => some 0x09
  | _ => none

/-- Puts bytes in front of a reversed buffer. -/
def pushAll (buffer : List UInt8) (bytes : List UInt8) : List UInt8 :=
  bytes.foldl (fun buffer b => b :: buffer) buffer

/-- The bytes of a string up to its closing quote, reversed, and what follows. Each
round takes a byte, so `fuel` above the length of the rest never runs out. -/
def stringBytes (fuel : Nat) (buffer s : List UInt8) : Step (List UInt8 × List UInt8) :=
  match fuel, s with
  | 0, s => here .unfinishedString s
  | _ + 1, [] => here .unfinishedString []
  | fuel + 1, b :: rest =>
    if b = 0x22 then .ok (buffer, rest)
    else if b = 0x5C then
      match rest with
      | [] => here .unfinishedString []
      | letter :: rest =>
        if letter = 0x75 then do
          let (c, rest) ← unicodeEscape rest
          stringBytes fuel (pushAll buffer c.toString.toUTF8.toList) rest
        else
          match escaped? letter with
          | some byte => stringBytes fuel (byte :: buffer) rest
          | none => here .invalidEscape rest
    else if b < 0x20 then here .controlCharacter rest
    else stringBytes fuel (b :: buffer) rest

/-- A string after its opening quote. The text that is read is valid UTF-8, and an
escape adds whole characters, so the bytes always form a text. -/
def string (s : List UInt8) : Step (String × List UInt8) := do
  let (buffer, rest) ← stringBytes (s.length + 1) [] s
  .ok ((String.fromUTF8? ⟨buffer.reverse.toArray⟩).getD "", rest)

/-! ## 4. Numbers

The digits of a number are collected in a significand of 64 bits. A digit that no
longer fits is dropped, and before the point its place is kept in the exponent. -/

/-- The greatest significand. -/
def greatestSignificand : Nat := Nat.pow 2 64 - 1

/-- The greatest exponent that is read; digits beyond it are judged by sign alone. -/
def greatestExponent : Nat := Nat.pow 2 31 - 1

/-- The value `significand * 10 ^ exponent`, in the steps of the format: the
significand is rounded first, then multiplied or divided by a rounded power of
ten, with an exponent beyond the table of powers taken off in steps of 308. -/
def scaled (significand : Binary64) (exponent : Int) : Option Binary64 :=
  if 308 < exponent.natAbs then
    if significand.isZero then some significand
    else if 0 ≤ exponent then none
    else scaled (significand.div (.powerOfTen 308)) (exponent + 308)
  else if 0 ≤ exponent then
    let product := significand.mul (.powerOfTen exponent.toNat)
    if product.isFinite then some product else none
  else some (significand.div (.powerOfTen (-exponent).toNat))
termination_by exponent.natAbs
decreasing_by omega

/-- Gives a floating-point value its sign. -/
def signed (negative : Bool) (x : Binary64) : Number :=
  .float (if negative then x.neg else x)

/-- The number with these digits, once the text behind it is known. -/
def floating (negative : Bool) (significand : Nat) (exponent : Int) (rest : List UInt8) :
    Step (Number × List UInt8) :=
  match scaled (.ofInt significand) exponent with
  | some x => .ok (signed negative x, rest)
  | none => here .numberOutOfRange rest

/-- An integer without point and exponent. It stays an integer when 64 bits hold
it; negative zero and what lies below the least 64-bit integer are floating-point. -/
def integer (negative : Bool) (significand : Nat) : Number :=
  if !negative then .int significand
  else if 0 < significand && significand ≤ Nat.pow 2 63 then .int (-(significand : Int))
  else signed true (.ofInt significand)

/-- The digits of an exponent after its first. -/
def exponentDigits (negative : Bool) (significand : Nat) (start : Int) (minus : Bool) :
    Nat → List UInt8 → Step (Number × List UInt8)
  | exponent, [] => floating negative significand (if minus then start - exponent else start + exponent) []
  | exponent, b :: rest =>
    if isDigit b then
      let next := exponent * 10 + digitValue b
      if next ≤ greatestExponent then exponentDigits negative significand start minus next rest
      else if significand ≠ 0 && !minus then here .numberOutOfRange rest
      else .ok (signed negative (.zero false), rest.dropWhile isDigit)
    else
      floating negative significand (if minus then start - exponent else start + exponent) (b :: rest)

/-- An exponent after its letter. -/
def exponentPart (negative : Bool) (significand : Nat) (start : Int) (s : List UInt8) :
    Step (Number × List UInt8) :=
  let minus := s.head? == some 0x2D
  let digits := match s with
    | 0x2B :: rest => rest
    | 0x2D :: rest => rest
    | s => s
  match digits with
  | [] => here .unfinishedValue []
  | b :: rest =>
    if isDigit b then exponentDigits negative significand start minus (digitValue b) rest
    else here .invalidNumber rest

/-- What may follow the last digit of a number that is floating-point already. -/
def afterDigits (negative : Bool) (significand : Nat) (exponent : Int) (s : List UInt8) :
    Step (Number × List UInt8) :=
  match s with
  | b :: rest =>
    if b = 0x65 || b = 0x45 then exponentPart negative significand exponent rest
    else floating negative significand exponent s
  | [] => floating negative significand exponent []

/-- The digits after a point: the significand and exponent they lead to. -/
def fractionDigits : Nat → Int → List UInt8 → Nat × Int × List UInt8
  | significand, exponent, [] => (significand, exponent, [])
  | significand, exponent, b :: rest =>
    if isDigit b then
      let next := significand * 10 + digitValue b
      if next ≤ greatestSignificand then fractionDigits next (exponent - 1) rest
      else (significand, exponent, rest.dropWhile isDigit)
    else (significand, exponent, b :: rest)

/-- A fraction after its point. -/
def fractionPart (negative : Bool) (significand : Nat) (exponent : Int) (s : List UInt8) :
    Step (Number × List UInt8) :=
  match s with
  | [] => peek .unfinishedValue []
  | b :: _ =>
    if isDigit b then
      let (significand, exponent, rest) := fractionDigits significand exponent s
      afterDigits negative significand exponent rest
    else peek .invalidNumber s

/-- What may follow the integer digits: `dropped` of them no longer fitted. -/
def afterInteger (negative : Bool) (significand dropped : Nat) (s : List UInt8) :
    Step (Number × List UInt8) :=
  match s with
  | b :: rest =>
    if b = 0x2E then fractionPart negative significand dropped rest
    else if b = 0x65 || b = 0x45 then exponentPart negative significand dropped rest
    else if dropped = 0 then .ok (integer negative significand, s)
    else floating negative significand dropped s
  | [] =>
    if dropped = 0 then .ok (integer negative significand, [])
    else floating negative significand dropped []

/-- The integer digits after the first. -/
def integerDigits (negative : Bool) : Nat → List UInt8 → Step (Number × List UInt8)
  | significand, [] => afterInteger negative significand 0 []
  | significand, b :: rest =>
    if isDigit b then
      let next := significand * 10 + digitValue b
      if next ≤ greatestSignificand then integerDigits negative next rest
      else
        let more := rest.takeWhile isDigit
        afterInteger negative significand (more.length + 1) (rest.dropWhile isDigit)
    else afterInteger negative significand 0 (b :: rest)

/-- A number, after its sign. -/
def number (negative : Bool) (s : List UInt8) : Step (Number × List UInt8) :=
  match s with
  | [] => here .unfinishedValue []
  | b :: rest =>
    if b = 0x30 then
      match rest with
      | c :: _ =>
        if isDigit c then peek .invalidNumber rest else afterInteger negative 0 0 rest
      | [] => afterInteger negative 0 0 []
    else if isDigit b then integerDigits negative (digitValue b) rest
    else here .invalidNumber rest

/-! ## 5. Values -/

/-- A scalar: everything but a list and an object. -/
def scalar (s : List UInt8) : Step (Value × List UInt8) :=
  match s with
  | [] => peek .unfinishedValue []
  | b :: rest =>
    if b = 0x6E then do
      let rest ← word [0x75, 0x6C, 0x6C] rest
      .ok (.null, rest)
    else if b = 0x74 then do
      let rest ← word [0x72, 0x75, 0x65] rest
      .ok (.bool true, rest)
    else if b = 0x66 then do
      let rest ← word [0x61, 0x6C, 0x73, 0x65] rest
      .ok (.bool false, rest)
    else if b = 0x22 then do
      let (text, rest) ← string rest
      .ok (.text text, rest)
    else if b = 0x2D then do
      let (n, rest) ← number true rest
      .ok (.number n, rest)
    else if isDigit b then do
      let (n, rest) ← number false s
      .ok (.number n, rest)
    else peek .expectedValue s

/-- Reads one value and what follows it. -/
abbrev ValueReader := List UInt8 → Step (Value × List UInt8)

/-- The items of a list after its bracket or after an item, in reverse. -/
def listItems (item : ValueReader) : Nat → List Value → List UInt8 → Step (List Value × List UInt8)
  | 0, _, s => peek .unfinishedList s
  | fuel + 1, read, s =>
    match skipSpace s with
    | [] => peek .unfinishedList []
    | b :: rest =>
      if b = 0x5D then .ok (read, rest)
      else if read.isEmpty then do
        let (v, rest) ← item (b :: rest)
        listItems item fuel (v :: read) rest
      else if b = 0x2C then
        match skipSpace rest with
        | [] => peek .unfinishedValue []
        | c :: rest =>
          if c = 0x5D then peek .trailingComma (c :: rest)
          else do
            let (v, rest) ← item (c :: rest)
            listItems item fuel (v :: read) rest
      else peek .expectedCommaInList (b :: rest)

/-- A field of an object: the key after its opening quote, the colon and the value. -/
def field (item : ValueReader) (s : List UInt8) : Step ((String × Value) × List UInt8) := do
  let (key, rest) ← string s
  match skipSpace rest with
  | [] => peek .unfinishedObject []
  | b :: rest =>
    if b = 0x3A then
      let (v, rest) ← item (skipSpace rest)
      .ok ((key, v), rest)
    else peek .expectedColon (b :: rest)

/-- The fields of an object after its brace or after a field, in reverse. -/
def objectFields (item : ValueReader) :
    Nat → List (String × Value) → List UInt8 → Step (List (String × Value) × List UInt8)
  | 0, _, s => peek .unfinishedObject s
  | fuel + 1, read, s =>
    match skipSpace s with
    | [] => peek .unfinishedObject []
    | b :: rest =>
      if b = 0x7D then .ok (read, rest)
      else if read.isEmpty then
        if b = 0x22 then do
          let (f, rest) ← field item rest
          objectFields item fuel (f :: read) rest
        else peek .keyNotString (b :: rest)
      else if b = 0x2C then
        match skipSpace rest with
        | [] => peek .unfinishedValue []
        | c :: rest =>
          if c = 0x22 then do
            let (f, rest) ← field item rest
            objectFields item fuel (f :: read) rest
          else if c = 0x7D then peek .trailingComma (c :: rest)
          else peek .keyNotString (c :: rest)
      else peek .expectedCommaInObject (b :: rest)

/-- A value, given how many levels of nesting are left. At the last level a bracket
or brace is refused. -/
def value : Nat → ValueReader
  | 0, s => peek .tooDeep s
  | depth + 1, s =>
    match skipSpace s with
    | [] => peek .unfinishedValue []
    | b :: rest =>
      if b = 0x5B then
        if depth = 0 then peek .tooDeep (b :: rest)
        else do
          let (items, rest) ← listItems (value depth) (rest.length + 1) [] rest
          .ok (.list items.reverse, rest)
      else if b = 0x7B then
        if depth = 0 then peek .tooDeep (b :: rest)
        else do
          let (fields, rest) ← objectFields (value depth) (rest.length + 1) [] rest
          .ok (Value.ofFields fields.reverse, rest)
      else scalar (b :: rest)

/-- The levels of nesting of a text. -/
def depthLimit : Nat := 128

/-! ## 6. Whole texts -/

/-- Only white space may follow the value of a text. -/
def ended (s : List UInt8) : Step Unit :=
  match skipSpace s with
  | [] => .ok ()
  | b :: rest => peek .trailingCharacters (b :: rest)

/-- Turns the bytes left at a fault into its place in the text. -/
def locate {α : Type} (text : List UInt8) : Step α → Except LocatedFault α
  | .ok a => .ok a
  | .error (fault, left) =>
    let (line, column) := advance (text.take (text.length - left)) 1 0
    .error ⟨fault, line, column⟩

/-- Reads a text that holds one value of any kind. -/
def read (text : String) : Except LocatedFault Value :=
  let bytes := text.toUTF8.toList
  locate bytes do
    let (v, rest) ← value depthLimit bytes
    ended rest
    .ok v

/-- Reads the value of a text that must hold an object. Another value is refused as
soon as its kind is known, a list at its bracket and a scalar behind its end. -/
def objectValue (s : List UInt8) : Step (Value × List UInt8) :=
  match skipSpace s with
  | [] => peek .unfinishedValue []
  | b :: rest =>
    if b = 0x7B then value depthLimit (b :: rest)
    else if b = 0x5B then here (.notObject (Value.list []).describe) (b :: rest)
    else do
      let (v, rest) ← scalar (b :: rest)
      here (.notObject v.describe) rest

/-- Reads a text that holds one object: its fields, keys ascending. -/
def readObject (text : String) : Except LocatedFault (List (String × Value)) :=
  let bytes := text.toUTF8.toList
  locate bytes do
    let (v, rest) ← objectValue bytes
    ended rest
    .ok v.fields

end LayerScript.Json
