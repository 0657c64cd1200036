/-
`Proofs/Numeral.lean` -- the numbers that stand in a literal as they are.

The scan for numbers works on what is left behind each part of a text. A `Numeral` is the parts
themselves: a minus sign or none, digits, a fraction or none, an exponent or none, where each run
of digits has at least one. The texts of numerals are exactly what the scan accepts
(`Literal.isNumberList_iff`), so what is said about numbers can be said about their parts.
-/
import LayerScript.Proofs.Literal
import Mathlib.Data.Rat.Defs
import Mathlib.Algebra.Order.Field.Rat

set_option autoImplicit false

namespace LayerScript

namespace Literal

/-! ## 1. Parts of a number -/

/-- A run of digits, at least one. -/
structure Digits where
  chars : List Char
  nonempty : chars ≠ []
  digits : ∀ c ∈ chars, isDigit c = true

/-- The number that digits denote. -/
def Digits.value (d : Digits) : ℕ :=
  d.chars.foldl (fun n c => 10 * n + (c.toNat - '0'.toNat)) 0

/-- The number that digits behind a point denote. -/
def Digits.fractionValue (d : Digits) : ℚ :=
  d.value / 10 ^ d.chars.length

/-- The exponent of a number: its letter, its sign, if it has one, and its digits. -/
structure Exponent where
  letter : Char
  sign : Option Char
  digits : Digits
  letter_mem : letter ∈ ['e', 'E']
  sign_mem : ∀ c ∈ sign, c ∈ ['+', '-']

namespace Exponent

def text (e : Exponent) : List Char :=
  e.letter :: (e.sign.toList ++ e.digits.chars)

def value (e : Exponent) : ℤ :=
  if e.sign = some '-' then -e.digits.value else e.digits.value

end Exponent

/-- A decimal number, as it is written. -/
structure Numeral where
  minus : Bool
  whole : Digits
  fraction : Option Digits
  exponent : Option Exponent

namespace Numeral

/-- The text of the fraction, if there is one. -/
def fractionText (n : Numeral) : List Char :=
  n.fraction.elim [] fun d => '.' :: d.chars

/-- The text of the exponent, if there is one. -/
def exponentText (n : Numeral) : List Char :=
  n.exponent.elim [] Exponent.text

/-- The text of the number without its sign. -/
def magnitudeText (n : Numeral) : List Char :=
  n.whole.chars ++ (n.fractionText ++ n.exponentText)

def text (n : Numeral) : List Char :=
  if n.minus then '-' :: n.magnitudeText else n.magnitudeText

/-- The number without its sign. -/
def magnitude (n : Numeral) : ℚ :=
  (n.whole.value + n.fraction.elim 0 Digits.fractionValue)
    * 10 ^ n.exponent.elim 0 Exponent.value

/-- The number that is meant. -/
def value (n : Numeral) : ℚ :=
  if n.minus then -n.magnitude else n.magnitude

end Numeral

/-! ## 2. The scan -/

/-- Digits have been scanned when a run of them was there, and no further digit comes behind. -/
theorem afterDigits_eq_some_iff {text rest : List Char} :
    afterDigits text = some rest ↔
      ∃ d : Digits, text = d.chars ++ rest ∧ ∀ c ∈ rest.head?, isDigit c = false := by
  cases text with
  | nil =>
      refine iff_of_false (by simp [afterDigits]) ?_
      rintro ⟨d, htext, -⟩
      exact d.nonempty (List.append_eq_nil_iff.mp htext.symm).1
  | cons c more =>
      rw [afterDigits]
      by_cases hc : isDigit c = true
      · rw [if_pos hc, Option.some_inj]
        constructor
        · rintro rfl
          refine ⟨⟨c :: more.takeWhile isDigit, List.cons_ne_nil _ _, ?_⟩, ?_, ?_⟩
          · exact List.forall_mem_cons.mpr ⟨hc, fun a ha => List.mem_takeWhile_imp ha⟩
          · rw [List.cons_append, List.takeWhile_append_dropWhile]
          · intro a ha
            have hhead := List.head?_dropWhile_not isDigit more
            rw [Option.mem_def.mp ha] at hhead
            simpa using hhead
        · rintro ⟨⟨chars, hne, hdigits⟩, htext, hrest⟩
          obtain ⟨first, front, rfl⟩ := List.exists_cons_of_ne_nil hne
          obtain ⟨rfl, hmore⟩ := List.cons.inj (htext.trans (List.cons_append))
          rw [List.forall_mem_cons] at hdigits
          rw [hmore, List.dropWhile_append_of_pos hdigits.2]
          cases rest with
          | nil => rfl
          | cons a back =>
              have ha := hrest a rfl
              simp [ha]
      · rw [if_neg hc]
        refine iff_of_false (by simp) ?_
        rintro ⟨⟨chars, hne, hdigits⟩, htext, -⟩
        obtain ⟨first, front, rfl⟩ := List.exists_cons_of_ne_nil hne
        obtain ⟨rfl, -⟩ := List.cons.inj htext
        exact hc (hdigits c List.mem_cons_self)

/-- The first of some digits is a digit. -/
theorem Digits.isDigit_of_head? (d : Digits) (rest : List Char) {c : Char}
    (h : (d.chars ++ rest).head? = some c) : isDigit c = true := by
  obtain ⟨first, front, hchars⟩ := List.exists_cons_of_ne_nil d.nonempty
  rw [hchars] at h
  cases h
  exact d.digits c (by rw [hchars]; exact List.mem_cons_self)

theorem exists_afterFraction {text rest : List Char} (h : afterFraction text = some rest) :
    ∃ fraction : Option Digits, text = (fraction.elim [] fun d => '.' :: d.chars) ++ rest := by
  unfold afterFraction at h
  split at h
  · obtain ⟨d, rfl, -⟩ := afterDigits_eq_some_iff.mp h
    exact ⟨some d, rfl⟩
  · cases h
    exact ⟨none, rfl⟩

theorem exists_afterSign (text : List Char) :
    ∃ sign : Option Char, (∀ c ∈ sign, c ∈ ['+', '-']) ∧ text = sign.toList ++ afterSign text := by
  unfold afterSign
  split
  · exact ⟨some '+', by simp, rfl⟩
  · exact ⟨some '-', by simp, rfl⟩
  · exact ⟨none, by simp, rfl⟩

theorem afterSign_append_digits {sign : Option Char} (hsign : ∀ c ∈ sign, c ∈ ['+', '-'])
    (d : Digits) : afterSign (sign.toList ++ d.chars) = d.chars := by
  cases sign with
  | some c =>
      rcases List.mem_pair.mp (hsign c rfl) with rfl | rfl
      · rfl
      · rfl
  | none =>
      have hhead : ∀ {c rest}, d.chars = c :: rest → isDigit c = true := by
        intro c rest h
        exact d.digits c (by rw [h]; exact List.mem_cons_self)
      change afterSign d.chars = d.chars
      unfold afterSign
      split
      · rename_i hplus
        exact absurd (hhead hplus) (by decide)
      · rename_i hminus
        exact absurd (hhead hminus) (by decide)
      · rfl

theorem exists_afterExponent {text rest : List Char} (h : afterExponent text = some rest) :
    ∃ exponent : Option Exponent, text = exponent.elim [] Exponent.text ++ rest := by
  have hexponent : ∀ letter ∈ ['e', 'E'], ∀ {behind : List Char},
      afterDigits (afterSign behind) = some rest →
      ∃ exponent : Option Exponent,
        letter :: behind = exponent.elim [] Exponent.text ++ rest := by
    intro letter hletter behind hdigits
    obtain ⟨d, htext, -⟩ := afterDigits_eq_some_iff.mp hdigits
    obtain ⟨sign, hsign, hbehind⟩ := exists_afterSign behind
    refine ⟨some ⟨letter, sign, d, hletter, hsign⟩, ?_⟩
    rw [hbehind, htext]
    simp [Exponent.text]
  unfold afterExponent at h
  split at h
  · exact hexponent 'e' (by decide) h
  · exact hexponent 'E' (by decide) h
  · cases h
    exact ⟨none, rfl⟩

/-- A minus in front of a number belongs to it. -/
theorem exists_numeral_of_afterMinus {text : List Char}
    (h : ∃ n : Numeral, n.magnitudeText = afterMinus text) : ∃ n : Numeral, n.text = text := by
  obtain ⟨n, hn⟩ := h
  unfold afterMinus at hn
  split at hn
  · exact ⟨{ n with minus := true }, congrArg (List.cons '-') hn⟩
  · exact ⟨{ n with minus := false }, hn⟩

/-- What the scan accepts has the parts of a number. -/
theorem exists_numeral {text : List Char} (h : isNumberList text = true) :
    ∃ n : Numeral, n.text = text := by
  unfold isNumberList at h
  split at h
  · rename_i hread
    obtain ⟨behind, hfraction, hexponent⟩ := Option.bind_eq_some_iff.mp hread
    obtain ⟨digits, hdigits, hfraction⟩ := Option.bind_eq_some_iff.mp hfraction
    obtain ⟨whole, hwhole, -⟩ := afterDigits_eq_some_iff.mp hdigits
    obtain ⟨fraction, hfraction⟩ := exists_afterFraction hfraction
    obtain ⟨exponent, hexponent⟩ := exists_afterExponent hexponent
    rw [List.append_nil] at hexponent
    rw [hfraction, hexponent] at hwhole
    exact exists_numeral_of_afterMinus ⟨⟨false, whole, fraction, exponent⟩, hwhole.symm⟩
  · cases h

namespace Numeral

variable (n : Numeral)

/-- Behind the fraction there is no digit and no point. -/
theorem of_head?_exponentText {c : Char} (h : n.exponentText.head? = some c) :
    isDigit c = false ∧ c ≠ '.' := by
  unfold exponentText at h
  cases hexponent : n.exponent with
  | none =>
      rw [hexponent] at h
      cases h
  | some e =>
      rw [hexponent] at h
      cases h
      rcases List.mem_pair.mp e.letter_mem with hletter | hletter <;> rw [hletter] <;> decide

/-- Behind the whole digits there is no digit. -/
theorem isDigit_of_head?_fractionText {c : Char}
    (h : (n.fractionText ++ n.exponentText).head? = some c) : isDigit c = false := by
  unfold fractionText at h
  cases hfraction : n.fraction with
  | none =>
      rw [hfraction] at h
      exact (n.of_head?_exponentText h).1
  | some d =>
      rw [hfraction] at h
      cases h
      decide

theorem text_ne_nil : n.text ≠ [] := by
  obtain ⟨c, rest, hchars⟩ := List.exists_cons_of_ne_nil n.whole.nonempty
  unfold text magnitudeText
  rw [hchars]
  split <;> simp

theorem afterMinus_text : afterMinus n.text = n.magnitudeText := by
  unfold text
  by_cases hminus : n.minus = true
  · rw [if_pos hminus]
    rfl
  · rw [if_neg hminus]
    unfold afterMinus
    split
    · rename_i rest hrest
      have hhead : isDigit '-' = true :=
        n.whole.isDigit_of_head? (n.fractionText ++ n.exponentText) (congrArg List.head? hrest)
      exact absurd hhead (by decide)
    · rfl

theorem afterDigits_magnitudeText :
    afterDigits n.magnitudeText = some (n.fractionText ++ n.exponentText) :=
  afterDigits_eq_some_iff.mpr ⟨n.whole, rfl, fun _ => n.isDigit_of_head?_fractionText⟩

theorem afterFraction_fractionText :
    afterFraction (n.fractionText ++ n.exponentText) = some n.exponentText := by
  unfold fractionText
  cases n.fraction with
  | some d =>
      exact afterDigits_eq_some_iff.mpr ⟨d, rfl, fun _ h => (n.of_head?_exponentText h).1⟩
  | none =>
      change afterFraction n.exponentText = _
      unfold afterFraction
      split
      · rename_i rest hrest
        exact absurd rfl (n.of_head?_exponentText (congrArg List.head? hrest)).2
      · rfl

theorem afterExponent_exponentText : afterExponent n.exponentText = some [] := by
  unfold exponentText
  cases n.exponent with
  | none => rfl
  | some e =>
      have hdigits : afterDigits (afterSign (e.sign.toList ++ e.digits.chars)) = some [] := by
        rw [afterSign_append_digits e.sign_mem]
        exact afterDigits_eq_some_iff.mpr ⟨e.digits, (List.append_nil _).symm, by simp⟩
      rcases List.mem_pair.mp e.letter_mem with hletter | hletter
      · simp only [Option.elim_some, Exponent.text, hletter, afterExponent, hdigits]
      · simp only [Option.elim_some, Exponent.text, hletter, afterExponent, hdigits]

end Numeral

/-- **What the scan accepts is the texts of numbers.** -/
theorem isNumberList_iff {text : List Char} :
    isNumberList text = true ↔ ∃ n : Numeral, n.text = text := by
  constructor
  · exact exists_numeral
  · rintro ⟨n, rfl⟩
    rw [isNumberList, n.afterMinus_text, n.afterDigits_magnitudeText]
    simp only [Option.bind_eq_bind, Option.bind_some, n.afterFraction_fractionText,
      n.afterExponent_exponentText]

end Literal

end LayerScript
