/-
`Address/Punycode.lean` -- texts of any script in letters, digits and hyphens.

The ASCII characters of a text are written first, as they are. Every other
character follows as one number, in ascending order of code points: the number
counts the pairs of a code point and a place between this insertion and the one
before it. A number is written in digits of base 36, least first, and a digit
below the threshold of its place ends it; thresholds follow a bias that adapts to
the numbers written so far, so that neighbouring characters take few digits.
-/
set_option autoImplicit false

namespace LayerScript.Address.Punycode

/-! ## 1. Numbers -/

/-- The digit for a value below 36. -/
def digit (value : Nat) : Char :=
  if value < 26 then Char.ofNat ('a'.toNat + value) else Char.ofNat ('0'.toNat + (value - 26))

/-- The value of a digit, of which the letters may have either case. -/
def digitValue? (c : Char) : Option Nat :=
  if 'a' ≤ c && c ≤ 'z' then some (c.toNat - 'a'.toNat)
  else if 'A' ≤ c && c ≤ 'Z' then some (c.toNat - 'A'.toNat)
  else if '0' ≤ c && c ≤ '9' then some (c.toNat - '0'.toNat + 26)
  else none

/-- The threshold of a place. Places count in steps of 36, from 36 on. -/
def threshold (place bias : Nat) : Nat :=
  min 26 (max 1 (place - bias))

/-- A threshold is at least one. -/
theorem one_le_threshold (place bias : Nat) : 1 ≤ threshold place bias := by
  simp only [threshold]; omega

/-- The bias for numbers of the size of a scaled gap, from the places that were counted. -/
def settledBias (gap places : Nat) : Nat :=
  if 455 < gap then settledBias (gap / 35) (places + 36)
  else places + 36 * gap / (gap + 38)
termination_by gap
decreasing_by omega

/-- The bias after a gap was used, with so many characters written; the first gap tells
little about those to come. -/
def adaptedBias (gap count : Nat) (isFirst : Bool) : Nat :=
  let scaled := if isFirst then gap / 700 else gap / 2
  settledBias (scaled + scaled / count) 0

/-- The digits of a number. -/
def digits (bias place number : Nat) : List Char :=
  let t := threshold place bias
  if number < t then [digit number]
  else
    digit (t + (number - t) % (36 - t)) :: digits bias (place + 36) ((number - t) / (36 - t))
termination_by number
decreasing_by
  have low := one_le_threshold place bias
  exact Nat.lt_of_le_of_lt (Nat.div_le_self ..) (by omega)

/-! ## 2. Writing -/

/-- The code point that numbers start to count from, and the bias that they start with. -/
def firstPoint : Nat := 0x80

/-- The bias of the first number. -/
def firstBias : Nat := 72

/-- Whether a character is written as it is. -/
def isBasic (c : Char) : Bool := c.toNat < firstPoint

/-- How far the writing of a text has come. -/
structure Writing where
  /-- The digits written so far. -/
  output : List Char
  /-- What the next number has counted so far. -/
  gap : Nat
  bias : Nat
  /-- How many characters of the text are written. -/
  count : Nat

/-- Passes one character while the characters of one code point are written. -/
def Writing.pass (basics point : Nat) (w : Writing) (c : Char) : Writing :=
  if c.toNat < point then { w with gap := w.gap + 1 }
  else if c.toNat = point then
    { output := w.output ++ digits w.bias 36 w.gap
      gap := 0
      bias := adaptedBias w.gap (w.count + 1) (w.count == basics)
      count := w.count + 1 }
  else w

/-- Writes the characters of the given code points, which ascend, from one point on. -/
def Writing.points (text : List Char) (basics : Nat) : Nat → List Nat → Writing → Writing
  | _, [], w => w
  | start, point :: rest, w =>
    let w := { w with gap := w.gap + (point - start) * (w.count + 1) }
    let w := text.foldl (Writing.pass basics point) w
    Writing.points text basics (point + 1) rest { w with gap := w.gap + 1 }

/-- The code points that are not basic, ascending and each once. -/
def extraPoints (text : List Char) : List Nat :=
  let points := (text.filter fun c => !isBasic c).map Char.toNat
  (points.mergeSort (· ≤ ·)).eraseReps

/-- A text in letters, digits and hyphens. -/
def encode (text : List Char) : List Char :=
  let basics := text.filter isBasic
  let start : Writing := ⟨[], 0, firstBias, basics.length⟩
  basics ++ (if basics.isEmpty then [] else ['-'])
    ++ (Writing.points text basics.length firstPoint (extraPoints text) start).output

/-! ## 3. Reading -/

/-- How far the reading of a text has come. -/
structure Reading where
  /-- The characters read so far. -/
  output : List Char
  point : Nat
  /-- The place that the next number counts from. -/
  index : Nat
  bias : Nat
  /-- What the digits of an unfinished number add up to. -/
  gap : Nat
  /-- What the next digit is worth. -/
  weight : Nat
  place : Nat

/-- Reads one digit. The last one of a number inserts a character. -/
def Reading.next (r : Reading) (c : Char) : Option Reading :=
  match digitValue? c with
  | none => none
  | some value =>
    let gap := r.gap + value * r.weight
    let t := threshold r.place r.bias
    if value < t then
      let count := r.output.length + 1
      let point := r.point + (r.index + gap) / count
      let index := (r.index + gap) % count
      if point.isValidChar then
        some {
          output := r.output.insertIdx index (Char.ofNat point)
          point, index := index + 1
          bias := adaptedBias gap count (r.index == 0)
          gap := 0, weight := 1, place := 36 }
      else none
    else some { r with gap, weight := r.weight * (36 - t), place := r.place + 36 }

/-- What stands before the last hyphen of a text and what behind it. Without a hyphen, or
with none but the first character, nothing stands before and everything behind. -/
def cutAtHyphen (text : List Char) : List Char × List Char :=
  match text.reverse.span (· != '-') with
  | (_, []) => ([], text)
  | (_, [_]) => ([], text)
  | (behind, _ :: before) => (before.reverse, behind.reverse)

/-- The text that was written in letters, digits and hyphens, if one was. -/
def decode? (text : List Char) : Option (List Char) :=
  let (basics, numbers) := cutAtHyphen text
  if basics.all isBasic then
    match numbers.foldlM Reading.next ⟨basics, firstPoint, 0, firstBias, 0, 1, 36⟩ with
    | none => none
    | some r => if r.place = 36 then some r.output else none
  else none

end LayerScript.Address.Punycode
