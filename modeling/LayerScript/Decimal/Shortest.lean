/-
`Decimal/Shortest.lean` -- the fewest decimal digits that read back to a value.

The reals that round to a binary64 value form an interval around it, and a
decimal denotes the value exactly when it lies inside. The search below tries
one digit, then two, and so on; on each grid only the two neighbours of the
value can be the nearest hit, so it tests those two with exact integer
arithmetic. The first grid with a hit wins, of two hits the nearer one, and an
exact tie goes by the rule of the format that asks.
-/
import LayerScript.Decimal.Binary64

set_option autoImplicit false

namespace LayerScript

/-- A non-negative decimal, `digits * 10 ^ exponent`. -/
structure Decimal where
  digits : Nat
  exponent : Int
deriving DecidableEq, Repr

namespace Decimal

/-- Which of two equally near decimals of the same length is taken. -/
inductive Tie where
  | toEven
  | up
deriving DecidableEq, Repr

/-! ## 1. The interval of a value -/

/-- Compares `a * 10 ^ i` with `n * 2 ^ j`, exactly. -/
def compareScaled (a : Nat) (i : Int) (n : Nat) (j : Int) : Ordering :=
  compare (a * Nat.pow 10 i.toNat * Nat.pow 2 (-j).toNat)
    (n * Nat.pow 2 j.toNat * Nat.pow 10 (-i).toNat)

/-- Whether a decimal lies among the reals that round to `m * 2 ^ q`.

The ends of the interval lie halfway to the two neighbours and belong to it when
`m` is even. Below a power of two the neighbour is only half as far away, except
at the least normal value. Both ends are counted in quarters of a unit. -/
def readsBack (m : Nat) (q : Int) (d : Decimal) : Bool :=
  let narrow := m == Nat.pow 2 52 && decide (Binary64.leastExponent < q)
  let low := if narrow then 4 * m - 1 else 4 * m - 2
  let high := 4 * m + 2
  let closed := m % 2 == 0
  let atLow := compareScaled d.digits d.exponent low (q - 2)
  let atHigh := compareScaled d.digits d.exponent high (q - 2)
  (atLow == .gt || (closed && atLow == .eq)) && (atHigh == .lt || (closed && atHigh == .eq))

/-! ## 2. The search -/

/-- The least `k` with `m * 2 ^ q < 10 ^ k`, for `0 < m`: the binary logarithm
gives it up to a step or two, and exact comparisons settle the rest. -/
def magnitude (m : Nat) (q : Int) : Int :=
  let estimate := ((m.log2 : Int) + q) * 30103 / 100000 - 1
  ((List.range 4).map fun (i : Nat) => estimate + (i : Int)).find?
      (fun k => compareScaled 1 k m q == .gt)
    |>.getD (estimate + 4)

/-- The greatest decimal on the grid `10 ^ e` that is not above `m * 2 ^ q`. -/
def floorOnGrid (m : Nat) (q e : Int) : Decimal :=
  ⟨m * Nat.pow 2 q.toNat * Nat.pow 10 (-e).toNat
    / (Nat.pow 2 (-q).toNat * Nat.pow 10 e.toNat), e⟩

/-- The hit on the grid `10 ^ e`, if one of the two neighbours of the value is one. -/
def hitOnGrid (tie : Tie) (m : Nat) (q e : Int) : Option Decimal :=
  let below := floorOnGrid m q e
  let above : Decimal := ⟨below.digits + 1, e⟩
  match readsBack m q below, readsBack m q above with
  | true, true =>
    match compareScaled (2 * below.digits + 1) e (2 * m) q with
    | .gt => some below
    | .lt => some above
    | .eq =>
      match tie with
      | .up => some above
      | .toEven => if below.digits % 2 = 0 then some below else some above
  | true, false => some below
  | false, true => some above
  | false, false => none

/-- Moves the zeros at the end of the digits into the exponent. -/
def strip (d : Decimal) : Decimal :=
  if _h : d.digits ≠ 0 ∧ d.digits % 10 = 0 then strip ⟨d.digits / 10, d.exponent + 1⟩ else d
termination_by d.digits
decreasing_by omega

/-- The value `m * 2 ^ q` itself, all its digits written out. -/
def exact (m : Nat) (q : Int) : Decimal :=
  ⟨m * Nat.pow 2 q.toNat * Nat.pow 5 (-q).toNat, min q 0⟩

/-- The shortest decimal that reads back to `m * 2 ^ q`, for `0 < m`. Seventeen
digits are enough for every binary64 value; beyond them the exact value stands in. -/
def shortest (tie : Tie) (m : Nat) (q : Int) : Decimal :=
  let k := magnitude m q
  let hit := (List.range 17).findSome? fun (n : Nat) => hitOnGrid tie m q (k - ((n : Int) + 1))
  strip (hit.getD (exact m q))

end Decimal

end LayerScript
