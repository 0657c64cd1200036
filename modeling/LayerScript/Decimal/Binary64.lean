/-
`Decimal/Binary64.lean` -- the 64-bit floating-point values of payloads and settings.

A learning rate or a decay factor is read from decimal text, kept as the binary64
value it denotes, and written again in decimal. Nothing is computed with it in
between, so no machine arithmetic is needed: a finite value is an integer times
a power of two, and every rounding below is one exact division of naturals,
rounded to nearest with ties to even.

The two readers round differently. Settings are read to the nearest value
(`ofDecimal`). Payload numbers are scaled by a power of ten that is itself a
rounded binary64 value (`mul`, `div`, `powerOfTen`), which can end one step away
from the nearest; the rounding of the single step is the same.
-/
set_option autoImplicit false

namespace LayerScript

/-- A binary64 value. A finite one is `mantissa * 2 ^ exponent` with its sign;
zero keeps its sign too. -/
inductive Binary64 where
  | finite (negative : Bool) (mantissa : Nat) (exponent : Int)
  | infinite (negative : Bool)
  | notANumber
deriving DecidableEq, Repr

namespace Binary64

/-! ## 1. Rounding a quotient -/

/-- The integer nearest to `num / den`, the even one of two that are equally near. -/
def roundQuotient (num den : Nat) : Nat :=
  let quotient := num / den
  let rest := num % den
  if 2 * rest < den then quotient
  else if den < 2 * rest then quotient + 1
  else if quotient % 2 = 0 then quotient
  else quotient + 1

/-- The exponent of the last bit of the least normal value, and of every value below it. -/
def leastExponent : Int := -1074

/-- The exponent of the last bit of the greatest finite value. -/
def greatestExponent : Int := 971

/-- Zero with its sign. -/
def zero (negative : Bool) : Binary64 := .finite negative 0 leastExponent

/-- The value nearest to `num / den`.

With `e` the difference of the binary logarithms the quotient lies between
`2 ^ (e - 1)` and `2 ^ (e + 1)`; one comparison decides in which half, which
gives the exponent that leaves 53 bits. A quotient that rounds beyond the
greatest finite value is infinite. -/
def ofQuotient (negative : Bool) (num den : Nat) : Binary64 :=
  if num = 0 then zero negative
  else
    let e : Int := (num.log2 : Int) - (den.log2 : Int)
    let large := decide (den * Nat.pow 2 e.toNat ≤ num * Nat.pow 2 (-e).toNat)
    let exponent := max leastExponent (if large then e - 52 else e - 53)
    let mantissa := roundQuotient (num * Nat.pow 2 (-exponent).toNat)
      (den * Nat.pow 2 exponent.toNat)
    let (mantissa, exponent) :=
      if mantissa = Nat.pow 2 53 then (Nat.pow 2 52, exponent + 1) else (mantissa, exponent)
    if greatestExponent < exponent then .infinite negative
    else .finite negative mantissa exponent

/-- The value nearest to `num / den * 2 ^ exponent`. -/
def ofScaledQuotient (negative : Bool) (num den : Nat) (exponent : Int) : Binary64 :=
  ofQuotient negative (num * Nat.pow 2 exponent.toNat) (den * Nat.pow 2 (-exponent).toNat)

/-- The value nearest to an integer. -/
def ofInt (n : Int) : Binary64 :=
  ofQuotient (decide (n < 0)) n.natAbs 1

/-- The value nearest to `digits * 10 ^ exponent`.

The exponent of a text may be far outside the range of the type, so a magnitude
that is certainly too great or too small is settled before any power is taken:
`digits` has at least one and at most `digits.log2 + 1` decimal places. -/
def ofDecimal (negative : Bool) (digits : Nat) (exponent : Int) : Binary64 :=
  if digits = 0 then zero negative
  else if 400 < exponent then .infinite negative
  else if exponent + (digits.log2 : Int) + 1 < -400 then zero negative
  else ofQuotient negative (digits * Nat.pow 10 exponent.toNat) (Nat.pow 10 (-exponent).toNat)

/-! ## 2. The steps of the payload reader -/

/-- The value nearest to a power of ten. -/
def powerOfTen (k : Nat) : Binary64 :=
  ofQuotient false (Nat.pow 10 k) 1

/-- The rounded product. Where an operand is not finite the product is not a number;
the reader never multiplies such a value. -/
def mul : Binary64 → Binary64 → Binary64
  | .finite n m q, .finite n' m' q' => ofScaledQuotient (n != n') (m * m') 1 (q + q')
  | _, _ => .notANumber

/-- The rounded quotient of a finite value by a finite value other than zero. -/
def div : Binary64 → Binary64 → Binary64
  | .finite n m q, .finite n' m' q' => ofScaledQuotient (n != n') m m' (q - q')
  | _, _ => .notANumber

/-- The value with the opposite sign. -/
def neg : Binary64 → Binary64
  | .finite n m q => .finite (!n) m q
  | .infinite n => .infinite (!n)
  | .notANumber => .notANumber

/-- Whether the value is zero, of either sign. -/
def isZero : Binary64 → Bool
  | .finite _ m _ => m == 0
  | _ => false

/-- Whether the value is neither infinite nor the result of a meaningless operation. -/
def isFinite : Binary64 → Bool
  | .finite .. => true
  | _ => false

end Binary64

end LayerScript
