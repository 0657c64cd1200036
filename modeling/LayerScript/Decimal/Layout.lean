/-
`Decimal/Layout.lean` -- how the digits of a value are laid out.

Choosing the digits is one thing, and `Shortest` does it; where the point goes is
another, and it differs between the two places that write numbers. A script
writes every number positionally (`Layout.script`). A JSON text uses an
exponent for very large and very small magnitudes and marks an integral value
with `.0` (`Layout.json`), and so does every number that was passed on from a
payload.
-/
import LayerScript.Decimal.Shortest

set_option autoImplicit false

namespace LayerScript.Decimal

/-- The decisions that a format makes about the layout of a number. -/
structure Layout where
  /-- The exponents of the leading digit that are written positionally; an absent
  bound does not limit them. -/
  plainFrom : Option Int
  plainBelow : Option Int
  /-- Whether an integral value written positionally ends in `.0`. -/
  pointZero : Bool
  /-- Which of two equally near decimals is written. -/
  tie : Tie

namespace Layout

/-- Numbers in a script: positional throughout, an integral value without a point. -/
def script : Layout where
  plainFrom := none
  plainBelow := none
  pointZero := false
  tie := .up

/-- Numbers in a JSON text: positional from `10 ^ -5` up to below `10 ^ 16`. -/
def json : Layout where
  plainFrom := some (-5)
  plainBelow := some 16
  pointZero := true
  tie := .toEven

/-- Whether a number whose leading digit stands at `10 ^ leading` is written positionally. -/
def isPlain (format : Layout) (leading : Int) : Bool :=
  (match format.plainFrom with
    | none => true
    | some low => decide (low ≤ leading)) &&
  (match format.plainBelow with
    | none => true
    | some high => decide (leading < high))

/-! ## The layouts -/

/-- The digits of a natural number. -/
def digitsOf (n : Nat) : List Char := Nat.toDigits 10 n

/-- Digits with the point after the first `point` places, which may lie before the
first digit or after the last. -/
def positional (format : Layout) (digits : List Char) (point : Int) : List Char :=
  if point ≤ 0 then
    ['0', '.'] ++ List.replicate (-point).toNat '0' ++ digits
  else if point < digits.length then
    digits.take point.toNat ++ ['.'] ++ digits.drop point.toNat
  else
    digits ++ List.replicate (point.toNat - digits.length) '0'
      ++ (if format.pointZero then ['.', '0'] else [])

/-- One digit before the point, then the exponent with its sign. -/
def scientific (digits : List Char) (leading : Int) : List Char :=
  let fraction := digits.drop 1
  digits.take 1 ++ (if fraction.isEmpty then [] else '.' :: fraction)
    ++ ['e', if leading < 0 then '-' else '+'] ++ digitsOf leading.natAbs

/-- The magnitude `m * 2 ^ q`. -/
def magnitudeText (format : Layout) (m : Nat) (q : Int) : List Char :=
  if m = 0 then
    '0' :: (if format.pointZero then ['.', '0'] else [])
  else
    let d := shortest format.tie m q
    let digits := digitsOf d.digits
    let point := (digits.length : Int) + d.exponent
    if format.isPlain (point - 1) then format.positional digits point
    else scientific digits (point - 1)

/-- The text of a value. -/
def text (format : Layout) : Binary64 → String
  | .finite negative m q =>
    String.ofList ((if negative then ['-'] else []) ++ format.magnitudeText m q)
  | .infinite negative => if negative then "-inf" else "inf"
  | .notANumber => "NaN"

end Layout

end LayerScript.Decimal
