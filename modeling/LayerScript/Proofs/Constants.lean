/-
`Proofs/Constants.lean` -- which constants of the script language the literals are.

Literals are put together from the text of a parameter, and the script language reads them by a
grammar of its own. The two fit together with one exception. A whole number other than zero may
not begin with a zero in the script language, and the scan for numbers lets such a number pass.
What comes of it is no literal at all, alone or as an item of a tuple
(`Literal.Numeral.IsPadded.not_spellsSigned`); in front of a point or an exponent the zeros do no
harm.
-/
import LayerScript.Proofs.Grammar
import LayerScript.Proofs.Numeral
import Mathlib.Tactic.NormNum

set_option autoImplicit false

namespace LayerScript

namespace Literal

/-! ## 1. Numbers that are spelled -/

namespace Digits

variable (d : Digits)

theorem isRun : IsRun (isDigitOf 10) d.chars :=
  isRun_of_forall d.nonempty fun c hc => (of_isDigit (d.digits c hc)).1

theorem runDigits_chars : runDigits d.chars = d.chars := by
  rw [runDigits, List.filter_eq_self]
  exact fun c hc => decide_eq_true (of_isDigit (d.digits c hc)).2.2

theorem runValue_chars : runValue 10 d.chars = d.value := by
  rw [runValue, d.runDigits_chars, value]
  refine List.foldl_ext _ _ _ fun n c hc => ?_
  rw [(of_isDigit (d.digits c hc)).2.1]

theorem fractionValue_chars : Literal.fractionValue d.chars = d.fractionValue := by
  rw [Literal.fractionValue, d.runValue_chars, d.runDigits_chars, fractionValue]

theorem isRun_zeros (h : ∀ c ∈ d.chars, c = '0') : IsRun (· == '0') d.chars :=
  isRun_of_forall d.nonempty fun c hc => beq_iff_eq.mpr (h c hc)

end Digits

/-- An exponent is one in the script language. -/
theorem Exponent.spellsExponent (e : Exponent) : SpellsExponent e.text e.value := by
  have hvalue := e.digits.runValue_chars
  unfold text value
  cases hsign : e.sign with
  | none =>
      rw [if_neg (by simp), ← hvalue]
      exact .unsigned e.letter_mem e.digits.isRun
  | some c =>
      rcases List.mem_pair.mp (e.sign_mem c hsign) with rfl | rfl
      · rw [if_neg (by simp), ← hvalue]
        exact .plus e.letter_mem e.digits.isRun
      · rw [if_pos rfl, ← hvalue]
        exact .minus e.letter_mem e.digits.isRun

namespace Numeral

variable (n : Numeral)

/-- Whether a number is whole and begins with a zero, and is not zero. -/
def IsPadded : Prop :=
  n.fraction = none ∧ n.exponent = none ∧ n.whole.chars.head? = some '0' ∧
    ∃ c ∈ n.whole.chars, c ≠ '0'

/-- The number that is meant, as a constant without its sign. -/
def unsigned : Number :=
  match n.fraction, n.exponent with
  | none, none => .integer n.whole.value
  | _, _ => .real n.magnitude

/-- The number that is meant, as a constant. -/
def constant : Number :=
  if n.minus then n.unsigned.neg else n.unsigned

/-- A whole number is spelled unless it is padded. -/
theorem spellsInteger (h : ¬ (n.whole.chars.head? = some '0' ∧ ∃ c ∈ n.whole.chars, c ≠ '0')) :
    SpellsInteger n.whole.chars n.whole.value := by
  by_cases hzeros : ∃ c ∈ n.whole.chars, c ≠ '0'
  · obtain ⟨c, rest, hchars⟩ := List.exists_cons_of_ne_nil n.whole.nonempty
    have hrun := n.whole.isRun
    have hvalue := n.whole.runValue_chars
    rw [hchars] at hrun hvalue
    rw [← hvalue, hchars]
    refine .decimal (fun hzero => h ⟨?_, hzeros⟩) hrun
    rw [hchars, hzero]
    rfl
  · push Not at hzeros
    have hrun := n.whole.isRun_zeros hzeros
    rw [← n.whole.runValue_chars, hrun.of_zeros.2]
    exact .zero hrun

/-- **A number is spelled as it is meant** unless it is padded. -/
theorem spellsNumber (h : ¬ n.IsPadded) : SpellsNumber n.magnitudeText n.unsigned := by
  unfold IsPadded at h
  unfold magnitudeText fractionText exponentText unsigned magnitude
  cases hfraction : n.fraction with
  | none =>
      cases hexponent : n.exponent with
      | none =>
          simp only [Option.elim_none, List.append_nil]
          exact .integer (n.spellsInteger fun hpadded => h ⟨hfraction, hexponent, hpadded⟩)
      | some e =>
          have hreal := SpellsReal.exponent n.whole.isRun e.spellsExponent
          rw [n.whole.runValue_chars] at hreal
          simpa using SpellsNumber.real hreal
  | some d =>
      have hpoint := SpellsPoint.between n.whole.isRun d.isRun
      rw [n.whole.runValue_chars, d.fractionValue_chars] at hpoint
      cases hexponent : n.exponent with
      | none => simpa using SpellsNumber.real (.point hpoint)
      | some e => simpa using SpellsNumber.real (.pointExponent hpoint e.spellsExponent)

/-- The same with its sign. -/
theorem spellsSigned (h : ¬ n.IsPadded) : SpellsSigned n.text n.constant := by
  unfold text constant
  by_cases hminus : n.minus = true
  · rw [if_pos hminus, if_pos hminus]
    exact .minus (n.spellsNumber h)
  · rw [if_neg hminus, if_neg hminus]
    exact .plain (n.spellsNumber h)

end Numeral

/-! ## 2. Texts that are no literals -/

/-- Digits alone are a whole number in base ten, and that begins with a zero only if it is
nothing but zeros. -/
theorem Digits.not_spellsNumber (d : Digits) (hlead : d.chars.head? = some '0')
    (hnonzero : ∃ c ∈ d.chars, c ≠ '0') (m : Number) : ¬ SpellsNumber d.chars m := by
  have hdigits := d.digits
  have hdecimal := d.isRun.isDecimalChar
  intro h
  generalize d.chars = text at h hlead hnonzero hdigits hdecimal
  cases h with
  | integer h =>
      cases h with
      | decimal lead _ =>
          cases hlead
          exact lead rfl
      | zero run =>
          obtain ⟨c, hc, hne⟩ := hnonzero
          rcases run.forall_mem c hc with hzero | rfl
          · exact hne (beq_iff_eq.mp hzero)
          · exact absurd (hdigits '_' hc) (by decide)
      | @based letter base _ hletter _ =>
          have hchar := hdecimal letter (by simp)
          exact absurd hchar (by simp [of_mem_baseLetters (letter, base) hletter])
      | @basedGrouped letter base _ hletter _ =>
          have hchar := hdecimal letter (by simp)
          exact absurd hchar (by simp [of_mem_baseLetters (letter, base) hletter])
  | real h =>
      obtain ⟨c, hc, hmark⟩ := h.exists_mem
      exact absurd (hdigits c hc) (by simp [isDigit_of_mem_realMarks hmark])

/-- **A padded number is no number of the script language**, with its sign or without. -/
theorem Numeral.IsPadded.not_spellsSigned {n : Numeral} (h : n.IsPadded) (m : Number) :
    ¬ SpellsSigned n.text m := by
  obtain ⟨hfraction, hexponent, hlead, hnonzero⟩ := h
  have hmagnitude : n.magnitudeText = n.whole.chars := by
    simp [magnitudeText, fractionText, exponentText, hfraction, hexponent]
  have hnot := n.whole.not_spellsNumber hlead hnonzero
  rw [text, hmagnitude]
  by_cases hminus : n.minus = true
  · rw [if_pos hminus]
    intro hspells
    generalize htext : '-' :: n.whole.chars = text at hspells
    cases hspells with
    | plain h =>
        obtain ⟨c, rest, rfl, hc⟩ := h.beginsAsNumber
        cases htext
        revert hc
        decide
    | minus h =>
        cases htext
        exact hnot _ h
  · rw [if_neg hminus]
    intro hspells
    generalize htext : n.whole.chars = text at hspells hnot
    cases hspells with
    | plain h => exact hnot _ h
    | minus h =>
        -- Digits do not begin with a minus.
        have hdigit := n.whole.digits '-' (by rw [htext]; exact List.mem_cons_self)
        revert hdigit
        decide

/-- **What a padded number comes to is no literal.** -/
theorem Numeral.IsPadded.not_spells {n : Numeral} (h : n.IsPadded) (c : Constant) :
    ¬ Spells n.text c := by
  have hother : ∀ {c : Char}, isNumberPart c = false → c ∉ n.text :=
    not_mem_of_isNumberList (isNumberList_iff.mpr ⟨n, rfl⟩)
  intro hspells
  generalize htext : n.text = text at hspells hother
  cases hspells with
  | number hnumber => exact h.not_spellsSigned _ (htext ▸ hnumber)
  | text _ => exact hother (c := '"') (by decide) List.mem_cons_self
  | tuple _ _ => exact hother (c := '(') (by decide) List.mem_cons_self
  | closedTuple _ _ => exact hother (c := '(') (by decide) List.mem_cons_self

/-- Whatever stands between the commas of a literal in parentheses is a number, or nothing. -/
theorem Spells.forall_mem_split {body : List Char} {c : Constant}
    (h : Spells ('(' :: body ++ [')']) c) :
    ∀ item ∈ Text.split ',' body, item = [] ∨ ∃ m, SpellsSigned item m := by
  have hjoined : ∀ items : List (List Char),
      (∀ item ∈ items, item = [] ∨ ∃ m, SpellsSigned item m) →
      ∀ item ∈ Text.split ',' ([','].intercalate items), item = [] ∨ ∃ m, SpellsSigned item m := by
    intro items hitems
    by_cases hne : items = []
    · rw [hne]
      simp [Text.split]
    · rwa [split_intercalate_numbers hne hitems]
  generalize htext : '(' :: body ++ [')'] = text at h
  cases h with
  | number hnumber =>
      refine absurd ?_ (hnumber.not_mem (c := '(') (by decide))
      rw [← htext]
      exact List.mem_cons_self
  | text _ => cases htext
  | @tuple items numbers hitems _ =>
      obtain rfl : body = [','].intercalate items := by simpa using htext
      exact hjoined items (by simpa using eq_nil_or_spellsSigned hitems [] (by simp))
  | @closedTuple items numbers hitems _ =>
      obtain rfl : body = [','].intercalate (items ++ [[]]) := by simpa using htext
      exact hjoined _ (eq_nil_or_spellsSigned hitems [[]] (by simp))

/-! ## 3. Literals -/

variable {text : List Char}

/-- Without a comma a number is its own literal. -/
theorem ofList_numeral (n : Numeral) : ofList n.text = n.text :=
  ofList_of_isNumberList (isNumberList_iff.mpr ⟨n, rfl⟩)

/-- Without a comma, what is no number is the literal of the text that it is. -/
theorem spells_ofList_text (hcomma : ',' ∉ text) (hnumber : isNumberList text = false)
    (h : ∀ c ∈ text, c ∉ unquotable) : Spells (ofList text) (.text text) := by
  rw [ofList_of_text hcomma hnumber, quoteList]
  exact .text h

/-- A text with a comma is cut in two parts at least. -/
theorem one_lt_length_split (h : ',' ∈ text) : 1 < (Text.split ',' text).length := by
  obtain ⟨front, back, rfl⟩ := List.append_of_mem h
  have hfront := List.length_pos_iff.mpr (Text.split_ne_nil ',' front)
  have hback := List.length_pos_iff.mpr (Text.split_ne_nil ',' back)
  rw [Text.split_append_cons, List.length_append]
  omega

/-- **Numbers between commas are the literal of their tuple**, unless one of them is padded. -/
theorem spells_ofList_tuple (hcomma : ',' ∈ text) {numerals : List Numeral}
    {ends : List (List Char)} (hends : ends = [] ∨ ends = [[]])
    (hitems : (Text.split ',' text).map Text.trim = numerals.map Numeral.text ++ ends)
    (h : ∀ n ∈ numerals, ¬ n.IsPadded) :
    Spells (ofList text) (.tuple (numerals.map Numeral.constant)) := by
  have hlength := one_lt_length_split hcomma
  rw [← List.length_map Text.trim, hitems, List.length_append] at hlength
  have hspelled : List.Forall₂ SpellsSigned (numerals.map Numeral.text)
      (numerals.map Numeral.constant) := by
    rw [List.forall₂_map_left_iff, List.forall₂_map_right_iff, List.forall₂_same]
    exact fun n hn => n.spellsSigned (h n hn)
  rw [ofList_of_mem hcomma, tupleList, hitems]
  rcases hends with rfl | rfl
  · rw [List.append_nil]
    refine .tuple hspelled ?_
    rw [List.length_nil] at hlength
    omega
  · refine .closedTuple hspelled ?_
    rw [List.length_singleton] at hlength
    exact List.length_pos_iff.mp (by omega)

/-- A padded number among them spoils it. -/
theorem not_spells_ofList_tuple (hcomma : ',' ∈ text) {numerals : List Numeral}
    {ends : List (List Char)}
    (hitems : (Text.split ',' text).map Text.trim = numerals.map Numeral.text ++ ends)
    (h : ∃ n ∈ numerals, n.IsPadded) (c : Constant) : ¬ Spells (ofList text) c := by
  obtain ⟨n, hn, hpadded⟩ := h
  have hmem : n.text ∈ (Text.split ',' text).map Text.trim := by
    rw [hitems]
    exact List.mem_append_left _ (List.mem_map_of_mem hn)
  rw [ofList_of_mem hcomma, tupleList]
  intro hspells
  have hsplit := split_items text
  rw [items] at hsplit
  rcases hspells.forall_mem_split n.text (by rwa [hsplit]) with hempty | ⟨m, hm⟩
  · exact n.text_ne_nil hempty
  · exact hpadded.not_spellsSigned m hm

/-- **A literal is one of the script language unless a padded number is in it.** A number is the
literal of what it means and of nothing else, a text that is no number and needs no escape is that
of itself, and numbers between commas, of which the last may be missing, are that of their tuple.
What a padded number is in is the literal of nothing. -/
theorem literal_is_legal_unless_padded (raw : String) :
    (∀ text, isNumberList text = true ↔ ∃ n : Numeral, n.text = text) ∧
    (∀ n : Numeral, n.text = raw.toList → ∀ c,
      Spells (ofText raw).toList c ↔ ¬ n.IsPadded ∧ c = .number n.constant) ∧
    (',' ∉ raw.toList → isNumber raw = false → (∀ c ∈ raw.toList, c ∉ unquotable) → ∀ c,
      Spells (ofText raw).toList c ↔ c = .text raw.toList) ∧
    (',' ∈ raw.toList → ∀ (numerals : List Numeral) (ends : List (List Char)),
      ends = [] ∨ ends = [[]] →
      (Text.split ',' raw.toList).map Text.trim = numerals.map Numeral.text ++ ends → ∀ c,
      Spells (ofText raw).toList c ↔
        (∀ n ∈ numerals, ¬ n.IsPadded) ∧ c = .tuple (numerals.map Numeral.constant)) := by
  rw [ofText, String.toList_ofList]
  refine ⟨fun text => isNumberList_iff, fun n hn => ?_, fun hcomma hnumber h => ?_,
    fun hcomma numerals ends hends hitems => ?_⟩
  · rw [← hn, ofList_numeral]
    exact Spells.iff_and_eq (fun h => .number (n.spellsSigned h)) fun h => (not_not.mp h).not_spells
  · exact (spells_ofList_text hcomma hnumber h).iff_eq
  · refine Spells.iff_and_eq (spells_ofList_tuple hcomma hends hitems) fun h => ?_
    exact not_spells_ofList_tuple hcomma hitems (by simpa using h)

/-- Digits from their characters. -/
def Digits.ofChars (chars : List Char) (h : chars ≠ [] ∧ chars.all isDigit = true) : Digits :=
  ⟨chars, h.1, List.all_eq_true.mp h.2⟩

/-- A whole number, and a negative one with a fraction. -/
def sizes : List Numeral := [
  ⟨false, .ofChars ['2', '8'] (by decide), none, none⟩,
  ⟨true, .ofChars ['0', '1'] (by decide), some (.ofChars ['5', '0'] (by decide)), none⟩]

theorem literal_is_legal_unless_padded_sizes :
    ofText "28, -01.50," = "(28,-01.50,)" ∧
      Spells (ofText "28, -01.50,").toList (.tuple [.integer 28, .real (-3 / 2)]) := by
  have hconstants : sizes.map Numeral.constant = [.integer 28, .real (-3 / 2)] := by
    have hwhole : (Digits.ofChars ['2', '8'] (by decide)).value = 28 := rfl
    have hone : (Digits.ofChars ['0', '1'] (by decide)).value = 1 := rfl
    have hfifty : (Digits.ofChars ['5', '0'] (by decide)).value = 50 := rfl
    have hplaces : (Digits.ofChars ['5', '0'] (by decide)).chars.length = 2 := rfl
    norm_num [sizes, Numeral.constant, Numeral.unsigned, Numeral.magnitude, Number.neg,
      Digits.fractionValue, hwhole, hone, hfifty, hplaces]
  obtain ⟨-, -, -, htuple⟩ := literal_is_legal_unless_padded "28, -01.50,"
  have hspells := htuple (by decide) sizes [[]] (Or.inr rfl) (by decide)
  rw [hconstants] at hspells
  refine ⟨by decide, (hspells _).mpr ⟨?_, rfl⟩⟩
  simp [sizes, Numeral.IsPadded, Digits.ofChars]

/-- Seven, padded with two zeros. -/
def paddedSeven : Numeral where
  minus := false
  whole := .ofChars ['0', '0', '7'] (by decide)
  fraction := none
  exponent := none

theorem isPadded_paddedSeven : paddedSeven.IsPadded :=
  ⟨rfl, rfl, rfl, '7', by decide, by decide⟩

/-- What is taken for a number need not be one: seven with two zeros in front is left as it is,
and the script language has no such literal. -/
theorem padded_number_is_no_literal :
    isNumber "007" = true ∧ ofText "007" = "007" ∧ ∀ c, ¬ Spells (ofText "007").toList c := by
  have htext : (ofText "007").toList = paddedSeven.text := by decide
  refine ⟨by decide, by decide, ?_⟩
  rw [htext]
  exact isPadded_paddedSeven.not_spells

end Literal

end LayerScript