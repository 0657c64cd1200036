/-
`Proofs/Decimal/Range.lean` -- where rounding stays in the range of the format.

A value of the format has 53 bits and an exponent between two bounds. Rounding gives such a value
or an infinite one (`Binary64.ofQuotient_eq`), and how large the quotient is decides which: its
binary logarithm, which is off by one at most, bounds the exponent of the result from both sides.
So no value has to be followed through a division, only its exponent, and that is linear
arithmetic.

The divisions of the payload reader need one fact more: the powers of ten that it divides by are
finite and not small (`Binary64.above_powerOfTen`).
-/
import LayerScript.Decimal.Binary64
import Mathlib.Data.Nat.Log
import Mathlib.Tactic.GCongr
import Mathlib.Tactic.Positivity
import Mathlib.Tactic.Ring

set_option autoImplicit false

namespace LayerScript

namespace Binary64

/-! ## 1. Ranges of values -/

/-- Whether a value is finite, has the bits of the format, and an exponent up to a bound. -/
inductive Below (top : Int) : Binary64 → Prop where
  | finite {negative : Bool} {m : Nat} {q : Int} (bits : m < 2 ^ 53) (least : leastExponent ≤ q)
      (greatest : q ≤ top) : Below top (.finite negative m q)

/-- Whether a value is one of the finite values of the format. -/
def InRange (x : Binary64) : Prop :=
  x.Below greatestExponent

/-- Whether a value is finite, not zero, and has an exponent from a bound on. -/
inductive Above (bottom : Int) : Binary64 → Prop where
  | finite {negative : Bool} {m : Nat} {q : Int} (pos : 0 < m) (least : bottom ≤ q) :
      Above bottom (.finite negative m q)

theorem above_finite_iff {bottom : Int} {negative : Bool} {m : Nat} {q : Int} :
    (finite negative m q).Above bottom ↔ 0 < m ∧ bottom ≤ q := by
  constructor
  · intro h
    cases h with
    | finite pos least => exact ⟨pos, least⟩
  · rintro ⟨pos, least⟩
    exact ⟨pos, least⟩

instance (bottom : Int) : (x : Binary64) → Decidable (x.Above bottom)
  | .finite _ _ _ => decidable_of_iff _ above_finite_iff.symm
  | .infinite _ => isFalse nofun
  | .notANumber => isFalse nofun

variable {x y : Binary64} {a b top : Int}

theorem Below.mono (h : x.Below a) (hle : a ≤ b) : x.Below b := by
  cases h with
  | finite bits least greatest => exact ⟨bits, least, greatest.trans hle⟩

theorem Below.isFinite (h : x.Below a) : x.isFinite = true := by
  cases h with
  | finite bits least greatest => rfl

theorem Below.neg (h : x.Below a) : x.neg.Below a := by
  cases h with
  | finite bits least greatest => exact ⟨bits, least, greatest⟩

theorem below_zero (negative : Bool) (h : leastExponent ≤ top) : (zero negative).Below top :=
  ⟨by decide, le_refl _, h⟩

/-! ## 2. Rounding a quotient -/

theorem roundQuotient_le (num den : Nat) : roundQuotient num den ≤ num / den + 1 := by
  unfold roundQuotient
  dsimp only
  split
  · omega
  · split
    · omega
    · split <;> omega

/-- With an exponent that suits the size of a quotient, 53 bits are left before the point. -/
theorem scaled_lt {num den : Nat} (hden : 0 < den) {q : Int}
    (hq : (num.log2 : Int) - den.log2 - 52 ≤ q ∨
      num * 2 ^ (-((num.log2 : Int) - den.log2)).toNat
          < den * 2 ^ ((num.log2 : Int) - den.log2).toNat ∧
        (num.log2 : Int) - den.log2 - 53 ≤ q) :
    num * 2 ^ (-q).toNat / (den * 2 ^ q.toNat) < 2 ^ 53 := by
  rw [Nat.div_lt_iff_lt_mul (by positivity)]
  rcases hq with hq | ⟨hlt, hq⟩
  · have hnum : num < 2 ^ (num.log2 + 1) := Nat.lt_log2_self
    have hden' : 2 ^ den.log2 ≤ den := Nat.log2_self_le hden.ne'
    calc num * 2 ^ (-q).toNat
        < 2 ^ (num.log2 + 1) * 2 ^ (-q).toNat := by gcongr
      _ = 2 ^ (num.log2 + 1 + (-q).toNat) := (pow_add _ _ _).symm
      _ ≤ 2 ^ (53 + (den.log2 + q.toNat)) := Nat.pow_le_pow_right (by decide) (by omega)
      _ = 2 ^ 53 * (2 ^ den.log2 * 2 ^ q.toNat) := by rw [pow_add, pow_add]
      _ ≤ 2 ^ 53 * (den * 2 ^ q.toNat) := by gcongr
  · -- One more bit is to be had when the quotient is below the power of two of its size.
    set e := (num.log2 : Int) - den.log2
    refine lt_of_mul_lt_mul_right ?_ (Nat.zero_le (2 ^ (-e).toNat))
    calc num * 2 ^ (-q).toNat * 2 ^ (-e).toNat
        = num * 2 ^ (-e).toNat * 2 ^ (-q).toNat := by ring
      _ < den * 2 ^ e.toNat * 2 ^ (-q).toNat := by gcongr
      _ = den * 2 ^ (e.toNat + (-q).toNat) := by rw [pow_add]; ring
      _ ≤ den * 2 ^ (53 + q.toNat + (-e).toNat) :=
          Nat.mul_le_mul_left _ (Nat.pow_le_pow_right (by decide) (by omega))
      _ = 2 ^ 53 * (den * 2 ^ q.toNat) * 2 ^ (-e).toNat := by rw [pow_add, pow_add]; ring

/-- **Rounding gives a value of the format, or an infinite one** where its exponent would be too
great, and the exponent is that of the quotient. -/
theorem ofQuotient_eq (negative : Bool) {num den : Nat} (hnum : num ≠ 0) (hden : 0 < den) :
    ∃ m q, m < 2 ^ 53 ∧ leastExponent ≤ q ∧ (num.log2 : Int) - den.log2 - 53 ≤ q ∧
      q ≤ max leastExponent ((num.log2 : Int) - den.log2 - 52) + 1 ∧
      ofQuotient negative num den
        = if greatestExponent < q then .infinite negative else .finite negative m q := by
  unfold ofQuotient
  rw [if_neg hnum]
  simp only [Nat.pow_eq, decide_eq_true_eq]
  set e := (num.log2 : Int) - den.log2 with he
  set large := den * 2 ^ e.toNat ≤ num * 2 ^ (-e).toNat with hlarge
  set x := max leastExponent (if large then e - 52 else e - 53) with hx
  have hbounds : leastExponent ≤ x ∧ e - 53 ≤ x ∧ x ≤ max leastExponent (e - 52) := by
    by_cases hcase : large
    · rw [if_pos hcase] at hx
      omega
    · rw [if_neg hcase] at hx
      omega
  have hquotient : num * 2 ^ (-x).toNat / (den * 2 ^ x.toNat) < 2 ^ 53 := by
    apply scaled_lt hden
    by_cases hcase : large
    · rw [if_pos hcase] at hx
      left
      omega
    · rw [if_neg hcase] at hx
      right
      exact ⟨not_le.mp hcase, by omega⟩
  have hround := roundQuotient_le (num * 2 ^ (-x).toNat) (den * 2 ^ x.toNat)
  set m := roundQuotient (num * 2 ^ (-x).toNat) (den * 2 ^ x.toNat)
  -- Rounding up to the next power of two leaves its half, with one more in the exponent.
  by_cases hcarry : m = 2 ^ 53
  · refine ⟨2 ^ 52, x + 1, by decide, by omega, by omega, by omega, ?_⟩
    rw [if_pos hcarry]
  · refine ⟨m, x, by omega, by omega, by omega, by omega, ?_⟩
    rw [if_neg hcarry]

/-- What is rounded to a finite value is in range. -/
theorem inRange_ofQuotient (negative : Bool) (num : Nat) {den : Nat} (hden : 0 < den)
    (h : (ofQuotient negative num den).isFinite = true) :
    (ofQuotient negative num den).InRange := by
  by_cases hnum : num = 0
  · rw [ofQuotient, if_pos hnum]
    exact below_zero negative (by decide)
  · obtain ⟨m, q, hm, hleast, -, -, heq⟩ := ofQuotient_eq negative hnum hden
    rw [heq] at h ⊢
    by_cases hgreat : greatestExponent < q
    · rw [if_pos hgreat] at h
      cases h
    · rw [if_neg hgreat]
      exact ⟨hm, hleast, not_lt.mp hgreat⟩

/-- What is not too large is rounded to a finite value, and its size bounds the exponent. -/
theorem below_ofQuotient (negative : Bool) {num den : Nat} (hden : 0 < den) {size : Nat}
    (h : num.log2 ≤ den.log2 + 52 + size) (hsize : size ≤ 970) :
    (ofQuotient negative num den).Below (size + 1) := by
  have hleast : leastExponent = -1074 := rfl
  have hgreatest : greatestExponent = 971 := rfl
  by_cases hnum : num = 0
  · rw [ofQuotient, if_pos hnum]
    exact below_zero negative (by omega)
  · obtain ⟨m, q, hm, hq, -, hle, heq⟩ := ofQuotient_eq negative hnum hden
    rw [heq, if_neg (by omega)]
    exact ⟨hm, hq, by omega⟩

/-! ## 3. The steps of the payload reader -/

/-- An integer of 64 bits is in range, and far from its end. -/
theorem below_ofInt {n : Int} (h : n.natAbs < 2 ^ 64) : (ofInt n).Below 12 := by
  have hsize : n.natAbs.log2 ≤ Nat.log2 1 + 52 + 11 := by
    by_cases hn : n.natAbs = 0
    · rw [hn]
      decide
    · have hlog : n.natAbs.log2 < 64 := (Nat.log2_lt hn).mpr h
      omega
  exact below_ofQuotient _ Nat.one_pos hsize (by decide)

/-- The powers of ten that the reader divides by are finite, and as large as powers of eight. -/
theorem above_powerOfTen : ∀ k ≤ 308, (powerOfTen k).Above (3 * k - 52) := by
  decide +kernel

theorem log2_mul_two_pow_le {m : Nat} (h : m < 2 ^ 53) (k : Nat) :
    (m * 2 ^ k).log2 ≤ 52 + k := by
  by_cases hm : m = 0
  · rw [hm, Nat.zero_mul]
    exact Nat.zero_le _
  · have hlt : m * 2 ^ k < 2 ^ (53 + k) := by
      rw [pow_add]
      gcongr
    have hlog := (Nat.log2_lt (by positivity)).mpr hlt
    omega

/-- A quotient is in range when its divisor is not too small, and its exponent is at most the
difference of theirs. -/
theorem Below.div (hx : x.Below a) (hy : y.Above b) (h : (a - b).toNat ≤ 970) :
    (x.div y).Below ((a - b).toNat + 1) := by
  cases hx with
  | @finite n m q bits least greatest =>
      cases hy with
      | @finite n' m' q' pos above =>
          have hlog := log2_mul_two_pow_le bits (q - q').toNat
          refine below_ofQuotient _ (Nat.mul_pos pos (Nat.two_pow_pos _)) ?_ h
          rw [Nat.pow_eq]
          omega

/-- A product is in range when it is finite. -/
theorem inRange_mul (h : (x.mul y).isFinite = true) : (x.mul y).InRange := by
  cases x with
  | infinite negative => cases h
  | notANumber => cases h
  | finite n m q =>
      cases y with
      | infinite negative => cases h
      | notANumber => cases h
      | finite n' m' q' =>
          exact inRange_ofQuotient _ _ (Nat.mul_pos Nat.one_pos (Nat.two_pow_pos _)) h

end Binary64

end LayerScript
