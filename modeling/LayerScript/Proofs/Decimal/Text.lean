/-
`Proofs/Decimal/Text.lean` -- the text of a value is a number.

A script holds numbers that were never looked at as text: a learning rate is written from its
value. Here it is shown that whatever the value, and wherever the layout puts the point, what is
written has the parts of a number (`Decimal.Layout.exists_numeral`), with the values that are no
numbers as the only exception (`Decimal.Layout.isNumber_text`).

Nothing has to be known about the digits but that there is one at least. So this does not depend
on how the shortest digits are found.
-/
import LayerScript.Proofs.Numeral
import LayerScript.Value

set_option autoImplicit false

namespace LayerScript

open Literal

/-! ## 1. Digits -/

/-- The digits of a natural number. -/
def Literal.Digits.ofNat (n : Nat) : Digits where
  chars := Nat.toDigits 10 n
  nonempty := Nat.toDigits_ne_nil
  digits c hc := by
    have hdigit := Nat.isDigit_of_mem_toDigits (by decide) (by decide) hc
    rw [Char.isDigit, Bool.and_eq_true, decide_eq_true_eq, decide_eq_true_eq] at hdigit
    rw [isDigit, Bool.and_eq_true, decide_eq_true_eq, decide_eq_true_eq]
    exact hdigit

/-- The digit zero alone. -/
def Literal.Digits.zero : Digits :=
  ⟨['0'], by simp, List.forall_mem_singleton.mpr (by decide)⟩

/-- A natural number without fraction and exponent. -/
def Literal.Numeral.ofNat (minus : Bool) (n : Nat) : Numeral where
  minus := minus
  whole := .ofNat n
  fraction := none
  exponent := none

theorem Literal.Numeral.text_ofNat (minus : Bool) (n : Nat) :
    (Numeral.ofNat minus n).text = (if minus then ['-'] else []) ++ Nat.toDigits 10 n := by
  cases minus <;>
    simp [Numeral.ofNat, Numeral.text, Numeral.magnitudeText, Numeral.fractionText,
      Numeral.exponentText, Digits.ofNat]

/-- A count is written as a number. -/
theorem isNumber_toString (n : Nat) : isNumber (toString n) = true := by
  rw [isNumber, Text.toList_toString_nat]
  exact isNumberList_iff.mpr ⟨.ofNat false n, Numeral.text_ofNat false n⟩

/-- An integer is written as a number. -/
theorem isNumber_toString_int (i : Int) : isNumber (toString i) = true := by
  rw [isNumber, Text.toList_toString_int]
  refine isNumberList_iff.mpr ⟨.ofNat (i < 0) i.natAbs, ?_⟩
  rw [Numeral.text_ofNat]
  simp

namespace Decimal.Layout

variable (format : Layout) (d : Digits)

/-! ## 2. Layouts -/

theorem isDigit_of_mem_zeros {n : Nat} : ∀ c ∈ List.replicate n '0', isDigit c = true := by
  intro c hc
  rw [List.eq_of_mem_replicate hc]
  decide

/-- **Wherever the point goes**, there are digits in front of it and behind it. -/
theorem exists_numeral_positional (point : Int) :
    ∃ n : Numeral, n.magnitudeText = format.positional d.chars point := by
  have hlength : 0 < d.chars.length := List.length_pos_iff.mpr d.nonempty
  unfold positional
  by_cases hfront : point ≤ 0
  · rw [if_pos hfront]
    let part : Digits := ⟨List.replicate (-point).toNat '0' ++ d.chars, by simp [d.nonempty],
      List.forall_mem_append.mpr ⟨isDigit_of_mem_zeros, d.digits⟩⟩
    exact ⟨⟨false, .zero, some part, none⟩, by
      simp [Numeral.magnitudeText, Numeral.fractionText, Numeral.exponentText, Digits.zero, part]⟩
  · rw [if_neg hfront]
    by_cases hinside : point < d.chars.length
    · rw [if_pos hinside]
      let whole : Digits := ⟨d.chars.take point.toNat, by
          rw [← List.length_pos_iff, List.length_take]
          omega,
        fun c hc => d.digits c (List.mem_of_mem_take hc)⟩
      let part : Digits := ⟨d.chars.drop point.toNat, by
          rw [← List.length_pos_iff, List.length_drop]
          omega,
        fun c hc => d.digits c (List.mem_of_mem_drop hc)⟩
      exact ⟨⟨false, whole, some part, none⟩, by
        simp [Numeral.magnitudeText, Numeral.fractionText, Numeral.exponentText, whole, part]⟩
    · rw [if_neg hinside]
      let whole : Digits := ⟨d.chars ++ List.replicate (point.toNat - d.chars.length) '0',
        by simp [d.nonempty], List.forall_mem_append.mpr ⟨d.digits, isDigit_of_mem_zeros⟩⟩
      refine ⟨⟨false, whole, if format.pointZero then some .zero else none, none⟩, ?_⟩
      by_cases hpoint : format.pointZero = true <;>
        simp [Numeral.magnitudeText, Numeral.fractionText, Numeral.exponentText, Digits.zero, whole,
          hpoint]

/-- With an exponent, one digit stands in front of the point. -/
theorem exists_numeral_scientific (leading : Int) :
    ∃ n : Numeral, n.magnitudeText = scientific d.chars leading := by
  have hlength : 0 < d.chars.length := List.length_pos_iff.mpr d.nonempty
  let whole : Digits := ⟨d.chars.take 1, by
      rw [← List.length_pos_iff, List.length_take]
      omega,
    fun c hc => d.digits c (List.mem_of_mem_take hc)⟩
  let power : Exponent := ⟨'e', some (if leading < 0 then '-' else '+'), .ofNat leading.natAbs,
    by decide, by split <;> simp⟩
  by_cases hfraction : d.chars.tail = []
  · refine ⟨⟨false, whole, none, some power⟩, ?_⟩
    simp [Numeral.magnitudeText, Numeral.fractionText, Numeral.exponentText, Exponent.text,
      scientific, whole, power, hfraction, Digits.ofNat, digitsOf]
  · let part : Digits := ⟨d.chars.tail, hfraction, fun c hc => d.digits c (List.mem_of_mem_tail hc)⟩
    refine ⟨⟨false, whole, some part, some power⟩, ?_⟩
    simp [Numeral.magnitudeText, Numeral.fractionText, Numeral.exponentText, Exponent.text,
      scientific, whole, part, power, hfraction, Digits.ofNat, digitsOf]

theorem exists_numeral_magnitude (m : Nat) (q : Int) :
    ∃ n : Numeral, n.magnitudeText = format.magnitudeText m q := by
  unfold magnitudeText
  by_cases hm : m = 0
  · rw [if_pos hm]
    -- Zero is laid out like its one digit.
    obtain ⟨n, hn⟩ := format.exists_numeral_positional (.ofNat 0) 1
    exact ⟨n, hn⟩
  · rw [if_neg hm]
    dsimp only
    split
    · exact format.exists_numeral_positional (.ofNat _) _
    · exact exists_numeral_scientific (.ofNat _) _

/-- **What is written of a finite value is a number.** -/
theorem exists_numeral {x : Binary64} (h : x.isFinite = true) :
    ∃ n : Numeral, n.text = (format.text x).toList := by
  cases x with
  | infinite negative => cases h
  | notANumber => cases h
  | finite negative m q =>
      obtain ⟨n, hn⟩ := format.exists_numeral_magnitude m q
      refine ⟨{ n with minus := negative }, ?_⟩
      rw [text, String.toList_ofList, ← hn]
      cases negative <;> rfl

/-- **The text of a value is a number just when the value is finite.** -/
theorem isNumber_text (x : Binary64) : isNumber (format.text x) = x.isFinite := by
  cases x with
  | infinite negative =>
      rw [text]
      cases negative <;> decide
  | notANumber =>
      rw [text]
      decide
  | finite negative m q => exact isNumberList_iff.mpr (format.exists_numeral rfl)

end Decimal.Layout

end LayerScript
