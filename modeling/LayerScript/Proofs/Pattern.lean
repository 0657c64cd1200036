/-
`Proofs/Pattern.lean` -- the pattern that numbers follow.

Which texts stand bare is documented as one pattern, `-?D+(.D+)?((e|E)(+|-)?D+)?` over the ten
ASCII digits. Here it is written down as a regular expression (`numberPattern`), so that what a
number is does not depend on any scan for one. It is compared with two ways to decide the matter:
the scan of `Literal`, which works through a text from left to right, and a chain of cuts
(`isNumberByCuts`), which first takes off a minus, then cuts at the first letter of an exponent,
then at the first point of what is in front of it, and only then looks at the digits.

All three are compared through the parts of a number (`Numeral`). The cuts are the interesting
side: a second point or a second letter is left in a run of digits, which is then none, and a
sign is taken off in two places only.
-/
import LayerScript.Proofs.Numeral
import Mathlib.Computability.RegularExpressions
import Mathlib.Tactic.IntervalCases

set_option autoImplicit false

namespace LayerScript

namespace Literal

open RegularExpression

/-! ## 1. The pattern -/

/-- One of the ten digits. -/
def digitPattern : RegularExpression Char :=
  char '0' + char '1' + char '2' + char '3' + char '4'
    + char '5' + char '6' + char '7' + char '8' + char '9'

/-- One digit or more. -/
def digitsPattern : RegularExpression Char :=
  digitPattern * star digitPattern

/-- What follows a pattern, or nothing. -/
def perhaps (p : RegularExpression Char) : RegularExpression Char :=
  1 + p

/-- A fraction with its point. -/
def fractionPattern : RegularExpression Char :=
  char '.' * digitsPattern

/-- An exponent with its letter. -/
def exponentPattern : RegularExpression Char :=
  (char 'e' + char 'E') * (perhaps (char '+' + char '-') * digitsPattern)

/-- The pattern of a number. -/
def numberPattern : RegularExpression Char :=
  perhaps (char '-') * (digitsPattern * (perhaps fractionPattern * perhaps exponentPattern))

/-! ## 2. What the pattern matches -/

variable {text : List Char}

/-- The digits are ten. -/
theorem isDigit_iff {c : Char} :
    isDigit c = true ↔ c ∈ ['0', '1', '2', '3', '4', '5', '6', '7', '8', '9'] := by
  constructor
  · intro h
    rw [isDigit, Bool.and_eq_true, decide_eq_true_eq, decide_eq_true_eq] at h
    have hlow : 48 ≤ c.toNat := h.1
    have hhigh : c.toNat ≤ 57 := h.2
    rw [← Char.ofNat_toNat c]
    interval_cases c.toNat <;> decide
  · intro h
    simp only [List.mem_cons, List.not_mem_nil, or_false] at h
    rcases h with rfl | rfl | rfl | rfl | rfl | rfl | rfl | rfl | rfl | rfl <;> decide

theorem mem_char_iff {c : Char} : text ∈ (char c).matches' ↔ text = [c] := Iff.rfl

theorem mem_digitPattern_iff :
    text ∈ digitPattern.matches' ↔ ∃ c, isDigit c = true ∧ text = [c] := by
  simp only [digitPattern, matches'_add, Language.mem_add, mem_char_iff, isDigit_iff,
    List.mem_cons, List.not_mem_nil, or_false]
  constructor
  · intro h
    rcases h with ((((((((rfl | rfl) | rfl) | rfl) | rfl) | rfl) | rfl) | rfl) | rfl) | rfl <;>
      exact ⟨_, by simp, rfl⟩
  · rintro ⟨c, hc, rfl⟩
    simpa [or_assoc] using hc

/-- A run of digits has one at least, and nothing but digits. -/
theorem mem_digitsPattern_iff : text ∈ digitsPattern.matches' ↔ ∃ d : Digits, text = d.chars := by
  have hstar : ∀ {more : List Char}, more ∈ (star digitPattern).matches' ↔
      ∀ c ∈ more, isDigit c = true := by
    intro more
    rw [matches'_star, Language.mem_kstar]
    constructor
    · rintro ⟨parts, rfl, hparts⟩ c hc
      obtain ⟨part, hpart, hc⟩ := List.mem_flatten.mp hc
      obtain ⟨a, ha, rfl⟩ := mem_digitPattern_iff.mp (hparts part hpart)
      rwa [List.mem_singleton.mp hc]
    · intro h
      refine ⟨more.map fun c => [c], (List.flatMap_singleton' more).symm, ?_⟩
      intro part hpart
      obtain ⟨c, hc, rfl⟩ := List.mem_map.mp hpart
      exact mem_digitPattern_iff.mpr ⟨c, h c hc, rfl⟩
  rw [digitsPattern, matches'_mul, Language.mem_mul]
  constructor
  · rintro ⟨front, hfront, back, hback, rfl⟩
    obtain ⟨c, hc, rfl⟩ := mem_digitPattern_iff.mp hfront
    exact ⟨⟨c :: back, List.cons_ne_nil _ _, List.forall_mem_cons.mpr ⟨hc, hstar.mp hback⟩⟩, rfl⟩
  · rintro ⟨⟨chars, hne, hdigits⟩, rfl⟩
    obtain ⟨c, back, rfl⟩ := List.exists_cons_of_ne_nil hne
    rw [List.forall_mem_cons] at hdigits
    exact ⟨[c], mem_digitPattern_iff.mpr ⟨c, hdigits.1, rfl⟩, back, hstar.mpr hdigits.2, rfl⟩

theorem mem_perhaps_iff {p : RegularExpression Char} :
    text ∈ (perhaps p).matches' ↔ text = [] ∨ text ∈ p.matches' := Iff.rfl

theorem mem_fractionPattern_iff :
    text ∈ fractionPattern.matches' ↔ ∃ d : Digits, text = '.' :: d.chars := by
  rw [fractionPattern, matches'_mul, Language.mem_mul]
  constructor
  · rintro ⟨point, hpoint, back, hback, rfl⟩
    obtain ⟨d, rfl⟩ := mem_digitsPattern_iff.mp hback
    rw [mem_char_iff.mp hpoint]
    exact ⟨d, rfl⟩
  · rintro ⟨d, rfl⟩
    exact ⟨['.'], mem_char_iff.mpr rfl, d.chars, mem_digitsPattern_iff.mpr ⟨d, rfl⟩, rfl⟩

/-- One of two characters. -/
theorem mem_char_add_char_iff {a b : Char} :
    text ∈ (char a + char b).matches' ↔ ∃ c ∈ [a, b], text = [c] := by
  rw [matches'_add, Language.mem_add, mem_char_iff, mem_char_iff]
  simp

theorem mem_exponentPattern_iff :
    text ∈ exponentPattern.matches' ↔ ∃ e : Exponent, text = e.text := by
  simp only [exponentPattern, matches'_mul, Language.mem_mul]
  constructor
  · rintro ⟨first, hfirst, _, ⟨second, hsecond, back, hback, rfl⟩, rfl⟩
    obtain ⟨letter, hletter, rfl⟩ := mem_char_add_char_iff.mp hfirst
    obtain ⟨d, rfl⟩ := mem_digitsPattern_iff.mp hback
    rcases mem_perhaps_iff.mp hsecond with rfl | hsecond
    · exact ⟨⟨letter, none, d, hletter, by simp⟩, rfl⟩
    · obtain ⟨sign, hsign, rfl⟩ := mem_char_add_char_iff.mp hsecond
      exact ⟨⟨letter, some sign, d, hletter, by simpa using hsign⟩, rfl⟩
  · rintro ⟨e, rfl⟩
    refine ⟨[e.letter], mem_char_add_char_iff.mpr ⟨_, e.letter_mem, rfl⟩, _,
      ⟨e.sign.toList, mem_perhaps_iff.mpr ?_, e.digits.chars,
        mem_digitsPattern_iff.mpr ⟨e.digits, rfl⟩, rfl⟩, rfl⟩
    cases hsign : e.sign with
    | none => exact Or.inl rfl
    | some sign => exact Or.inr (mem_char_add_char_iff.mpr ⟨sign, e.sign_mem sign hsign, rfl⟩)

/-- **The pattern matches the texts of numbers.** -/
theorem mem_numberPattern_iff :
    text ∈ numberPattern.matches' ↔ ∃ n : Numeral, n.text = text := by
  simp only [numberPattern, matches'_mul, Language.mem_mul]
  constructor
  · rintro ⟨first, hminus, _, ⟨second, hwhole, _, ⟨third, hfraction, fourth, hexponent, rfl⟩, rfl⟩,
      rfl⟩
    obtain ⟨whole, rfl⟩ := mem_digitsPattern_iff.mp hwhole
    obtain ⟨fraction, rfl⟩ : ∃ fraction : Option Digits,
        third = fraction.elim [] fun d => '.' :: d.chars := by
      rcases mem_perhaps_iff.mp hfraction with rfl | hfraction
      · exact ⟨none, rfl⟩
      · obtain ⟨d, rfl⟩ := mem_fractionPattern_iff.mp hfraction
        exact ⟨some d, rfl⟩
    obtain ⟨exponent, rfl⟩ : ∃ exponent : Option Exponent,
        fourth = exponent.elim [] Exponent.text := by
      rcases mem_perhaps_iff.mp hexponent with rfl | hexponent
      · exact ⟨none, rfl⟩
      · obtain ⟨e, rfl⟩ := mem_exponentPattern_iff.mp hexponent
        exact ⟨some e, rfl⟩
    rcases mem_perhaps_iff.mp hminus with rfl | hminus
    · exact ⟨⟨false, whole, fraction, exponent⟩, rfl⟩
    · rw [mem_char_iff.mp hminus]
      exact ⟨⟨true, whole, fraction, exponent⟩, rfl⟩
  · rintro ⟨n, rfl⟩
    refine ⟨if n.minus then ['-'] else [], ?_, n.magnitudeText,
      ⟨n.whole.chars, mem_digitsPattern_iff.mpr ⟨_, rfl⟩, _,
        ⟨n.fractionText, ?_, n.exponentText, ?_, rfl⟩, rfl⟩, ?_⟩
    · by_cases hminus : n.minus = true
      · rw [if_pos hminus]
        exact mem_perhaps_iff.mpr (Or.inr rfl)
      · rw [if_neg hminus]
        exact mem_perhaps_iff.mpr (Or.inl rfl)
    · unfold Numeral.fractionText
      cases n.fraction with
      | none => exact mem_perhaps_iff.mpr (Or.inl rfl)
      | some d => exact mem_perhaps_iff.mpr (Or.inr (mem_fractionPattern_iff.mpr ⟨d, rfl⟩))
    · unfold Numeral.exponentText
      cases n.exponent with
      | none => exact mem_perhaps_iff.mpr (Or.inl rfl)
      | some e => exact mem_perhaps_iff.mpr (Or.inr (mem_exponentPattern_iff.mpr ⟨e, rfl⟩))
    · unfold Numeral.text
      by_cases hminus : n.minus = true <;> simp [hminus]

/-! ## 3. Cutting -/

/-- What is in front of the first character of a kind, and what is behind it, if there is one. -/
def cutAt (kind : Char → Bool) (text : List Char) : List Char × Option (List Char) :=
  (text.takeWhile fun c => !kind c, ((text.dropWhile fun c => !kind c)).tail?)

/-- Whether a text is one digit or more. -/
def isDigits (text : List Char) : Bool :=
  !text.isEmpty && text.all isDigit

/-- Whether a character is the letter of an exponent. -/
def isExponentLetter (c : Char) : Bool :=
  ['e', 'E'].contains c

/-- Whether a text is a number, by cutting it: at the first letter of an exponent, and in front of
that at the first point. -/
def isNumberByCuts (text : List Char) : Bool :=
  let (mantissa, exponent) := cutAt isExponentLetter (afterMinus text)
  let (whole, fraction) := cutAt (· == '.') mantissa
  isDigits whole && fraction.all isDigits && exponent.all fun e => isDigits (afterSign e)

theorem isDigits_iff : isDigits text = true ↔ ∃ d : Digits, d.chars = text := by
  rw [isDigits, Bool.and_eq_true, Bool.not_eq_true', List.isEmpty_eq_false_iff, List.all_eq_true]
  constructor
  · rintro ⟨hne, hdigits⟩
    exact ⟨⟨text, hne, hdigits⟩, rfl⟩
  · rintro ⟨d, rfl⟩
    exact ⟨d.nonempty, d.digits⟩

variable {kind : Char → Bool}

/-- A text without a character of the kind is not cut. -/
theorem cutAt_of_forall (h : ∀ c ∈ text, kind c = false) : cutAt kind text = (text, none) := by
  have hall : ∀ c ∈ text, (!kind c) = true := by
    intro c hc
    rw [h c hc, Bool.not_false]
  rw [cutAt, List.takeWhile_eq_self_iff.mpr hall, List.dropWhile_eq_nil_iff.mpr hall]
  rfl

/-- A text is cut at the first character of the kind. -/
theorem cutAt_append_cons {front back : List Char} {c : Char}
    (hfront : ∀ a ∈ front, kind a = false) (hc : kind c = true) :
    cutAt kind (front ++ c :: back) = (front, some back) := by
  have hall : ∀ a ∈ front, (!kind a) = true := by
    intro a ha
    rw [hfront a ha, Bool.not_false]
  rw [cutAt, List.takeWhile_append_of_pos hall, List.dropWhile_append_of_pos hall]
  simp [hc]

/-- Nothing is lost but the character that the text was cut at. -/
theorem cutAt_cases (kind : Char → Bool) (text : List Char) :
    cutAt kind text = (text, none) ∨
      ∃ front c back, text = front ++ c :: back ∧ kind c = true ∧
        cutAt kind text = (front, some back) := by
  have hparts := List.takeWhile_append_dropWhile (p := fun c => !kind c) (l := text)
  have hhead := List.head?_dropWhile_not (fun c => !kind c) text
  cases hdrop : text.dropWhile fun c => !kind c with
  | nil =>
      rw [hdrop, List.append_nil] at hparts
      rw [cutAt, hdrop, hparts]
      exact Or.inl rfl
  | cons c back =>
      rw [hdrop] at hparts hhead
      rw [cutAt, hdrop]
      exact Or.inr ⟨_, c, back, hparts.symm, by simpa using hhead, rfl⟩

/-- A fraction that was cut off and has digits only is one. -/
theorem exists_of_cutAt_point {mantissa whole : List Char} {fraction : Option (List Char)}
    (hcut : cutAt (· == '.') mantissa = (whole, fraction)) (h : fraction.all isDigits = true) :
    ∃ part : Option Digits, mantissa = whole ++ part.elim [] fun d => '.' :: d.chars := by
  rcases cutAt_cases (· == '.') mantissa with hnone | ⟨front, c, back, rfl, hc, hsome⟩
  · rw [hnone] at hcut
    cases hcut
    exact ⟨none, (List.append_nil _).symm⟩
  · rw [hsome] at hcut
    cases hcut
    obtain ⟨d, rfl⟩ := isDigits_iff.mp h
    exact ⟨some d, by rw [beq_iff_eq.mp hc]; rfl⟩

/-- An exponent that was cut off and has digits behind its sign is one. -/
theorem exists_of_cutAt_letter {magnitude mantissa : List Char} {exponent : Option (List Char)}
    (hcut : cutAt isExponentLetter magnitude = (mantissa, exponent))
    (h : (exponent.all fun e => isDigits (afterSign e)) = true) :
    ∃ part : Option Exponent, magnitude = mantissa ++ part.elim [] Exponent.text := by
  rcases cutAt_cases isExponentLetter magnitude with hnone | ⟨front, c, back, rfl, hc, hsome⟩
  · rw [hnone] at hcut
    cases hcut
    exact ⟨none, (List.append_nil _).symm⟩
  · rw [hsome] at hcut
    cases hcut
    obtain ⟨d, hd⟩ := isDigits_iff.mp h
    obtain ⟨sign, hsign, hback⟩ := exists_afterSign back
    refine ⟨some ⟨c, sign, d, List.contains_iff_mem.mp hc, hsign⟩, ?_⟩
    rw [Option.elim_some, Exponent.text, hd, ← hback]

namespace Numeral

variable (n : Numeral)

/-- In front of the exponent there is no letter of one. -/
theorem isExponentLetter_of_mem_mantissa :
    ∀ c ∈ n.whole.chars ++ n.fractionText, isExponentLetter c = false := by
  have hdigit : ∀ {c : Char}, isDigit c = true → isExponentLetter c = false := by
    intro c hc
    by_contra hletter
    rw [Bool.not_eq_false] at hletter
    rcases List.mem_pair.mp (List.contains_iff_mem.mp hletter) with rfl | rfl
    · exact absurd hc (by decide)
    · exact absurd hc (by decide)
  intro c hc
  rcases List.mem_append.mp hc with hc | hc
  · exact hdigit (n.whole.digits c hc)
  · unfold fractionText at hc
    cases hfraction : n.fraction with
    | none =>
        rw [hfraction] at hc
        cases hc
    | some d =>
        rw [hfraction] at hc
        rcases List.mem_cons.mp hc with rfl | hc
        · decide
        · exact hdigit (d.digits c hc)

theorem cutAt_letter_magnitudeText :
    cutAt isExponentLetter n.magnitudeText
      = (n.whole.chars ++ n.fractionText,
          n.exponent.map fun e => e.sign.toList ++ e.digits.chars) := by
  unfold magnitudeText
  rw [← List.append_assoc]
  unfold exponentText
  cases n.exponent with
  | none =>
      rw [Option.elim_none, List.append_nil]
      exact cutAt_of_forall n.isExponentLetter_of_mem_mantissa
  | some e =>
      exact cutAt_append_cons n.isExponentLetter_of_mem_mantissa
        (List.contains_iff_mem.mpr e.letter_mem)

theorem cutAt_point_mantissa :
    cutAt (· == '.') (n.whole.chars ++ n.fractionText) = (n.whole.chars, n.fraction.map Digits.chars)
    := by
  have hwhole : ∀ c ∈ n.whole.chars, (c == '.') = false := by
    intro c hc
    rw [beq_eq_false_iff_ne]
    rintro rfl
    exact absurd (n.whole.digits '.' hc) (by decide)
  unfold fractionText
  cases n.fraction with
  | none =>
      rw [Option.elim_none, List.append_nil]
      exact cutAt_of_forall hwhole
  | some d => exact cutAt_append_cons hwhole rfl

end Numeral

/-- **What passes the cuts is the texts of numbers.** -/
theorem isNumberByCuts_iff : isNumberByCuts text = true ↔ ∃ n : Numeral, n.text = text := by
  unfold isNumberByCuts
  constructor
  · intro h
    rcases hletter : cutAt isExponentLetter (afterMinus text) with ⟨mantissa, exponent⟩
    rcases hpoint : cutAt (· == '.') mantissa with ⟨whole, fraction⟩
    simp only [hletter, hpoint, Bool.and_eq_true] at h
    obtain ⟨⟨hwhole, hfraction⟩, hexponent⟩ := h
    obtain ⟨d, rfl⟩ := isDigits_iff.mp hwhole
    obtain ⟨part, rfl⟩ := exists_of_cutAt_point hpoint hfraction
    obtain ⟨power, hmagnitude⟩ := exists_of_cutAt_letter hletter hexponent
    rw [List.append_assoc] at hmagnitude
    exact exists_numeral_of_afterMinus ⟨⟨false, d, part, power⟩, hmagnitude.symm⟩
  · rintro ⟨n, rfl⟩
    have hdigits : ∀ d : Digits, isDigits d.chars = true := fun d => isDigits_iff.mpr ⟨d, rfl⟩
    simp only [n.afterMinus_text, n.cutAt_letter_magnitudeText, n.cutAt_point_mantissa,
      Option.all_map, Bool.and_eq_true]
    refine ⟨⟨hdigits _, ?_⟩, ?_⟩
    · cases n.fraction with
      | none => rfl
      | some d => exact hdigits d
    · cases n.exponent with
      | none => rfl
      | some e =>
          rw [Option.all_some, afterSign_append_digits e.sign_mem]
          exact hdigits e.digits

/-- **Numbers are the texts that the pattern matches**, whatever else a text may hold, and cutting
a text decides the same as scanning it. -/
theorem isNumber_iff_matches (text : String) :
    (isNumber text = true ↔ text.toList ∈ numberPattern.matches') ∧
      (isNumberByCuts text.toList = true ↔ text.toList ∈ numberPattern.matches') := by
  rw [mem_numberPattern_iff, isNumber]
  exact ⟨isNumberList_iff, isNumberByCuts_iff⟩

-- A second point, a second exponent and a digit of another script are all refused.
example : ["3E+2", "1.2.3", "1e2e3", "\u0663"].map isNumber = [true, false, false, false] := by decide

end Literal

end LayerScript
