/-
`Proofs/Grammar.lean` -- the constants of the script language and how they are spelled.

`Literal.Spells` is the grammar of the constants that concern us, one constructor for each of its
productions: whole numbers in the four bases, decimal numbers with a point or an exponent, digits
grouped by single underscores, texts between double quotes without escapes, and tuples of numbers
without blanks. It is no part of how literals are made, and knows more spellings than those.

A text spells one constant at most (`Literal.Spells.unique`). What it can spell is decided by
single characters: the first one tells numbers, texts and tuples apart, the letter behind a zero
gives the base, and a point or the letter of an exponent can be found since no digit is either.
`Literal.read` follows them to the constant, whether the text is well formed or not.
-/
import LayerScript.Proofs.Literal
import Mathlib.Data.Rat.Defs
import Mathlib.Algebra.Order.Field.Rat

set_option autoImplicit false

namespace LayerScript

namespace Literal

/-! ## 1. Constants -/

/-- A number of the script language: whole numbers are kept apart from those with a point or an
exponent. -/
inductive Number where
  | integer (value : ℤ)
  | real (value : ℚ)

/-- The number with the other sign. -/
def Number.neg : Number → Number
  | .integer value => .integer (-value)
  | .real value => .real (-value)

/-- A constant of the script language. -/
inductive Constant where
  | number (n : Number)
  | text (chars : List Char)
  | tuple (items : List Number)

/-! ## 2. The grammar -/

/-- The number that a digit stands for; from ten on digits are letters. -/
def digitValue (c : Char) : ℕ :=
  if isDigit c then c.toNat - '0'.toNat else c.toLower.toNat - 'a'.toNat + 10

/-- Whether a character is a digit in a base up to sixteen. -/
def isDigitOf (base : ℕ) (c : Char) : Bool :=
  (isDigit c || ('a' ≤ c.toLower && c.toLower ≤ 'f')) && digitValue c < base

/-- Digits, of which any two may have an underscore between them. -/
inductive IsRun (digit : Char → Bool) : List Char → Prop
  | single {c : Char} (h : digit c = true) : IsRun digit [c]
  | next {c : Char} {rest : List Char} (h : digit c = true) (run : IsRun digit rest) :
      IsRun digit (c :: rest)
  | grouped {c : Char} {rest : List Char} (h : digit c = true) (run : IsRun digit rest) :
      IsRun digit (c :: '_' :: rest)

/-- The digits of a run. -/
def runDigits (text : List Char) : List Char :=
  text.filter (· ≠ '_')

/-- The number that a run stands for in a base. -/
def runValue (base : ℕ) (text : List Char) : ℕ :=
  (runDigits text).foldl (fun n c => base * n + digitValue c) 0

/-- The number that a run behind a point stands for. -/
def fractionValue (text : List Char) : ℚ :=
  runValue 10 text / 10 ^ (runDigits text).length

/-- The letters behind the zero that a number in another base begins with. -/
def baseLetters : List (Char × ℕ) :=
  [('b', 2), ('B', 2), ('o', 8), ('O', 8), ('x', 16), ('X', 16)]

/-- Whether a text is a whole number. -/
inductive SpellsInteger : List Char → ℕ → Prop
  /-- Only zero begins with a zero. -/
  | decimal {c : Char} {rest : List Char} (lead : c ≠ '0')
      (run : IsRun (isDigitOf 10) (c :: rest)) :
      SpellsInteger (c :: rest) (runValue 10 (c :: rest))
  | zero {text : List Char} (run : IsRun (· == '0') text) : SpellsInteger text 0
  | based {letter : Char} {base : ℕ} {text : List Char} (hletter : (letter, base) ∈ baseLetters)
      (run : IsRun (isDigitOf base) text) :
      SpellsInteger ('0' :: letter :: text) (runValue base text)
  | basedGrouped {letter : Char} {base : ℕ} {text : List Char}
      (hletter : (letter, base) ∈ baseLetters) (run : IsRun (isDigitOf base) text) :
      SpellsInteger ('0' :: letter :: '_' :: text) (runValue base text)

/-- Whether a text is a number with a point. There are digits on one side of it at least. -/
inductive SpellsPoint : List Char → ℚ → Prop
  | between {whole fraction : List Char} (hwhole : IsRun (isDigitOf 10) whole)
      (hfraction : IsRun (isDigitOf 10) fraction) :
      SpellsPoint (whole ++ '.' :: fraction) (runValue 10 whole + fractionValue fraction)
  | leading {fraction : List Char} (hfraction : IsRun (isDigitOf 10) fraction) :
      SpellsPoint ('.' :: fraction) (fractionValue fraction)
  | trailing {whole : List Char} (hwhole : IsRun (isDigitOf 10) whole) :
      SpellsPoint (whole ++ ['.']) (runValue 10 whole)

/-- Whether a text is an exponent. -/
inductive SpellsExponent : List Char → ℤ → Prop
  | unsigned {letter : Char} {text : List Char} (hletter : letter ∈ ['e', 'E'])
      (run : IsRun (isDigitOf 10) text) : SpellsExponent (letter :: text) (runValue 10 text)
  | plus {letter : Char} {text : List Char} (hletter : letter ∈ ['e', 'E'])
      (run : IsRun (isDigitOf 10) text) :
      SpellsExponent (letter :: '+' :: text) (runValue 10 text)
  | minus {letter : Char} {text : List Char} (hletter : letter ∈ ['e', 'E'])
      (run : IsRun (isDigitOf 10) text) :
      SpellsExponent (letter :: '-' :: text) (-runValue 10 text)

/-- Whether a text is a number with a point or an exponent. -/
inductive SpellsReal : List Char → ℚ → Prop
  | point {text : List Char} {value : ℚ} (h : SpellsPoint text value) : SpellsReal text value
  | pointExponent {text exponent : List Char} {value : ℚ} {shift : ℤ} (h : SpellsPoint text value)
      (hexponent : SpellsExponent exponent shift) :
      SpellsReal (text ++ exponent) (value * 10 ^ shift)
  | exponent {text exponent : List Char} {shift : ℤ} (run : IsRun (isDigitOf 10) text)
      (hexponent : SpellsExponent exponent shift) :
      SpellsReal (text ++ exponent) (runValue 10 text * 10 ^ shift)

/-- Whether a text is a number without a sign. -/
inductive SpellsNumber : List Char → Number → Prop
  | integer {text : List Char} {value : ℕ} (h : SpellsInteger text value) :
      SpellsNumber text (.integer value)
  | real {text : List Char} {value : ℚ} (h : SpellsReal text value) :
      SpellsNumber text (.real value)

/-- Whether a text is a number, which may have a minus in front. -/
inductive SpellsSigned : List Char → Number → Prop
  | plain {text : List Char} {n : Number} (h : SpellsNumber text n) : SpellsSigned text n
  | minus {text : List Char} {n : Number} (h : SpellsNumber text n) :
      SpellsSigned ('-' :: text) n.neg

/-- The characters that end a text between double quotes, or need an escape in it, or may not
stand in a script. -/
def unquotable : List Char := ['"', '\\', '\n', '\r', '\x00']

/-- Whether a text is a literal of the script language, and for which constant. -/
inductive Spells : List Char → Constant → Prop
  | number {text : List Char} {n : Number} (h : SpellsSigned text n) : Spells text (.number n)
  | text {chars : List Char} (h : ∀ c ∈ chars, c ∉ unquotable) :
      Spells ('"' :: chars ++ ['"']) (.text chars)
  /-- A comma behind the last item is needed when that is the only one. -/
  | tuple {items : List (List Char)} {numbers : List Number}
      (h : List.Forall₂ SpellsSigned items numbers) (several : items.length ≠ 1) :
      Spells ('(' :: [','].intercalate items ++ [')']) (.tuple numbers)
  | closedTuple {items : List (List Char)} {numbers : List Number}
      (h : List.Forall₂ SpellsSigned items numbers) (nonempty : items ≠ []) :
      Spells ('(' :: [','].intercalate (items ++ [[]]) ++ [')']) (.tuple numbers)

/-! ## 3. Characters -/

/-- Decimal digits are the digits of base ten, and no underscores. -/
theorem of_isDigit {c : Char} (h : isDigit c = true) :
    isDigitOf 10 c = true ∧ digitValue c = c.toNat - '0'.toNat ∧ c ≠ '_' := by
  have hvalue : digitValue c = c.toNat - '0'.toNat := if_pos h
  have hle : c.toNat ≤ '9'.toNat := by
    rw [isDigit, Bool.and_eq_true, decide_eq_true_eq, decide_eq_true_eq] at h
    exact h.2
  refine ⟨?_, hvalue, ?_⟩
  · rw [isDigitOf, h, Bool.true_or, Bool.true_and, decide_eq_true_eq, hvalue]
    have hnine : '9'.toNat = 57 := rfl
    have hzero : '0'.toNat = 48 := rfl
    omega
  · rintro rfl
    revert h
    decide

theorem isDigit_of_isDigitOf {c : Char} (h : isDigitOf 10 c = true) : isDigit c = true := by
  rw [isDigitOf, Bool.and_eq_true, decide_eq_true_eq] at h
  by_contra hletter
  -- The letters stand for ten and more.
  rw [digitValue, if_neg hletter] at h
  omega

/-- Whether a character can stand in a decimal number. -/
def isDecimalChar (c : Char) : Bool :=
  isDigit c || ['_', '.', 'e', 'E', '+', '-'].contains c

/-- Whether a character can stand in a number in any base. -/
def isNumberChar (c : Char) : Bool :=
  isDecimalChar c || isDigitOf 16 c || ['b', 'B', 'o', 'O', 'x', 'X'].contains c

theorem isNumberChar_of_isDecimalChar {c : Char} (h : isDecimalChar c = true) :
    isNumberChar c = true := by
  rw [isNumberChar, h, Bool.true_or, Bool.true_or]

/-- The letters of bases stand in no decimal number. -/
theorem of_mem_baseLetters : ∀ p ∈ baseLetters,
    isNumberChar p.1 = true ∧ isDecimalChar p.1 = false ∧ p.2 ≤ 16 ∧
      baseLetters.lookup p.1 = some p.2 := by
  decide

theorem of_mem_exponentLetters {c : Char} (h : c ∈ ['e', 'E']) :
    isDecimalChar c = true ∧ isDigit c = false := by
  rcases List.mem_pair.mp h with rfl | rfl <;> decide

/-- The characters that a number with a point or an exponent has, and a whole number in base ten
does not. -/
def realMarks : List Char := ['.', 'e', 'E']

theorem isDigit_of_mem_realMarks {c : Char} (h : c ∈ realMarks) : isDigit c = false := by
  rcases List.mem_cons.mp h with rfl | hletter
  · decide
  · exact (of_mem_exponentLetters hletter).2

section

variable {digit : Char → Bool} {base : ℕ} {text : List Char}

theorem IsRun.forall_mem (h : IsRun digit text) : ∀ c ∈ text, digit c = true ∨ c = '_' := by
  induction h with
  | single h => exact fun c hc => Or.inl (List.mem_singleton.mp hc ▸ h)
  | next h _ ih => exact List.forall_mem_cons.mpr ⟨Or.inl h, ih⟩
  | grouped h _ ih =>
      exact List.forall_mem_cons.mpr ⟨Or.inl h, List.forall_mem_cons.mpr ⟨Or.inr rfl, ih⟩⟩

/-- Runs begin with a digit. -/
theorem IsRun.exists_cons (h : IsRun digit text) :
    ∃ c rest, text = c :: rest ∧ digit c = true := by
  cases h with
  | single h => exact ⟨_, _, rfl, h⟩
  | next h _ => exact ⟨_, _, rfl, h⟩
  | grouped h _ => exact ⟨_, _, rfl, h⟩

/-- Any digits at all are a run. -/
theorem isRun_of_forall (hne : text ≠ []) (h : ∀ c ∈ text, digit c = true) : IsRun digit text := by
  induction text with
  | nil => exact absurd rfl hne
  | cons c rest ih =>
      rw [List.forall_mem_cons] at h
      by_cases hrest : rest = []
      · rw [hrest]
        exact .single h.1
      · exact .next h.1 (ih hrest h.2)

/-- A run in base ten holds neither points nor letters nor signs. -/
theorem IsRun.isDigit_or (h : IsRun (isDigitOf 10) text) :
    ∀ c ∈ text, isDigit c = true ∨ c = '_' :=
  fun c hc => (h.forall_mem c hc).imp_left isDigit_of_isDigitOf

theorem IsRun.isDecimalChar (h : IsRun (isDigitOf 10) text) :
    ∀ c ∈ text, isDecimalChar c = true := by
  intro c hc
  rcases h.isDigit_or c hc with hdigit | rfl
  · rw [Literal.isDecimalChar, hdigit, Bool.true_or]
  · decide

theorem IsRun.isNumberChar (hbase : base ≤ 16) (h : IsRun (isDigitOf base) text) :
    ∀ c ∈ text, isNumberChar c = true := by
  intro c hc
  rcases h.forall_mem c hc with hdigit | rfl
  · have hsixteen : isDigitOf 16 c = true := by
      rw [isDigitOf, Bool.and_eq_true, decide_eq_true_eq] at hdigit ⊢
      exact ⟨hdigit.1, by omega⟩
    rw [Literal.isNumberChar, hsixteen, Bool.or_true, Bool.true_or]
  · decide

/-- In front of an exponent there are digits and points. -/
theorem SpellsPoint.isDigit_or {value : ℚ} (h : SpellsPoint text value) :
    ∀ c ∈ text, isDigit c = true ∨ c ∈ ['_', '.'] := by
  have hrun : ∀ {text : List Char}, IsRun (isDigitOf 10) text →
      ∀ c ∈ text, isDigit c = true ∨ c ∈ ['_', '.'] :=
    fun run c hc => (run.isDigit_or c hc).imp_right fun hc => by simp [hc]
  cases h with
  | between hwhole hfraction =>
      rw [List.forall_mem_append, List.forall_mem_cons]
      exact ⟨hrun hwhole, Or.inr (by simp), hrun hfraction⟩
  | leading hfraction => exact List.forall_mem_cons.mpr ⟨Or.inr (by simp), hrun hfraction⟩
  | trailing hwhole =>
      rw [List.forall_mem_append, List.forall_mem_singleton]
      exact ⟨hrun hwhole, Or.inr (by simp)⟩

theorem SpellsPoint.isDecimalChar {value : ℚ} (h : SpellsPoint text value) :
    ∀ c ∈ text, isDecimalChar c = true := by
  intro c hc
  rcases h.isDigit_or c hc with hdigit | hmark
  · rw [Literal.isDecimalChar, hdigit, Bool.true_or]
  · rcases List.mem_pair.mp hmark with rfl | rfl <;> decide

theorem SpellsExponent.isDecimalChar {shift : ℤ} (h : SpellsExponent text shift) :
    ∀ c ∈ text, isDecimalChar c = true := by
  cases h with
  | unsigned hletter run =>
      exact List.forall_mem_cons.mpr ⟨(of_mem_exponentLetters hletter).1, run.isDecimalChar⟩
  | plus hletter run =>
      rw [List.forall_mem_cons, List.forall_mem_cons]
      exact ⟨(of_mem_exponentLetters hletter).1, by decide, run.isDecimalChar⟩
  | minus hletter run =>
      rw [List.forall_mem_cons, List.forall_mem_cons]
      exact ⟨(of_mem_exponentLetters hletter).1, by decide, run.isDecimalChar⟩

theorem SpellsReal.isDecimalChar {value : ℚ} (h : SpellsReal text value) :
    ∀ c ∈ text, isDecimalChar c = true := by
  cases h with
  | point h => exact h.isDecimalChar
  | pointExponent h hexponent =>
      exact List.forall_mem_append.mpr ⟨h.isDecimalChar, hexponent.isDecimalChar⟩
  | exponent run hexponent =>
      exact List.forall_mem_append.mpr ⟨run.isDecimalChar, hexponent.isDecimalChar⟩

theorem SpellsInteger.isNumberChar {value : ℕ} (h : SpellsInteger text value) :
    ∀ c ∈ text, isNumberChar c = true := by
  cases h with
  | decimal _ run => exact run.isNumberChar (by decide)
  | zero run =>
      intro c hc
      rcases run.forall_mem c hc with hzero | rfl
      · rw [beq_iff_eq.mp hzero]
        decide
      · decide
  | based hletter run =>
      obtain ⟨hchar, -, hbase, -⟩ := of_mem_baseLetters _ hletter
      rw [List.forall_mem_cons, List.forall_mem_cons]
      exact ⟨by decide, hchar, run.isNumberChar hbase⟩
  | basedGrouped hletter run =>
      obtain ⟨hchar, -, hbase, -⟩ := of_mem_baseLetters _ hletter
      rw [List.forall_mem_cons, List.forall_mem_cons, List.forall_mem_cons]
      exact ⟨by decide, hchar, by decide, run.isNumberChar hbase⟩

theorem SpellsNumber.isNumberChar {n : Number} (h : SpellsNumber text n) :
    ∀ c ∈ text, isNumberChar c = true := by
  cases h with
  | integer h => exact h.isNumberChar
  | real h => exact fun c hc => isNumberChar_of_isDecimalChar (h.isDecimalChar c hc)

/-- **Numbers are made of the characters of numbers.** -/
theorem SpellsSigned.isNumberChar {n : Number} (h : SpellsSigned text n) :
    ∀ c ∈ text, isNumberChar c = true := by
  cases h with
  | plain h => exact h.isNumberChar
  | minus h => exact List.forall_mem_cons.mpr ⟨by decide, h.isNumberChar⟩

theorem SpellsSigned.not_mem {n : Number} (h : SpellsSigned text n) {c : Char}
    (hc : Literal.isNumberChar c = false) : c ∉ text := by
  intro hmem
  rw [h.isNumberChar c hmem] at hc
  cases hc

/-- Whether a text begins as a number without a sign does: with a digit or a point. -/
def BeginsAsNumber (text : List Char) : Prop :=
  ∃ c rest, text = c :: rest ∧ (isDigit c = true ∨ c = '.')

theorem BeginsAsNumber.append (h : BeginsAsNumber text) (back : List Char) :
    BeginsAsNumber (text ++ back) := by
  obtain ⟨c, rest, rfl, hc⟩ := h
  exact ⟨c, rest ++ back, rfl, hc⟩

theorem IsRun.beginsAsNumber (h : IsRun (isDigitOf 10) text) : BeginsAsNumber text := by
  obtain ⟨c, rest, rfl, hc⟩ := h.exists_cons
  exact ⟨c, rest, rfl, Or.inl (isDigit_of_isDigitOf hc)⟩

theorem SpellsInteger.beginsAsNumber {value : ℕ} (h : SpellsInteger text value) :
    BeginsAsNumber text := by
  cases h with
  | decimal _ run => exact run.beginsAsNumber
  | zero run =>
      obtain ⟨c, rest, rfl, hc⟩ := run.exists_cons
      rw [beq_iff_eq.mp hc]
      exact ⟨'0', rest, rfl, Or.inl (by decide)⟩
  | based _ _ => exact ⟨_, _, rfl, Or.inl (by decide)⟩
  | basedGrouped _ _ => exact ⟨_, _, rfl, Or.inl (by decide)⟩

theorem SpellsPoint.beginsAsNumber {value : ℚ} (h : SpellsPoint text value) :
    BeginsAsNumber text := by
  cases h with
  | between hwhole _ => exact hwhole.beginsAsNumber.append _
  | leading _ => exact ⟨_, _, rfl, Or.inr rfl⟩
  | trailing hwhole => exact hwhole.beginsAsNumber.append _

theorem SpellsNumber.beginsAsNumber {n : Number} (h : SpellsNumber text n) :
    BeginsAsNumber text := by
  cases h with
  | integer h => exact h.beginsAsNumber
  | real h =>
      cases h with
      | point h => exact h.beginsAsNumber
      | pointExponent h _ => exact h.beginsAsNumber.append _
      | exponent run _ => exact run.beginsAsNumber.append _

/-- A point or the letter of an exponent is there to be found. -/
theorem SpellsReal.exists_mem {value : ℚ} (h : SpellsReal text value) :
    ∃ c ∈ text, c ∈ realMarks := by
  have hpoint : ∀ {text : List Char} {value : ℚ}, SpellsPoint text value → '.' ∈ text := by
    intro text value h
    cases h with
    | between _ _ => exact List.mem_append_cons_self
    | leading _ => exact List.mem_cons_self
    | trailing _ => exact List.mem_append_cons_self
  have hexponent : ∀ {text : List Char} {shift : ℤ}, SpellsExponent text shift →
      ∃ c ∈ text, c ∈ ['e', 'E'] := by
    intro text shift h
    cases h with
    | unsigned hletter _ => exact ⟨_, List.mem_cons_self, hletter⟩
    | plus hletter _ => exact ⟨_, List.mem_cons_self, hletter⟩
    | minus hletter _ => exact ⟨_, List.mem_cons_self, hletter⟩
  cases h with
  | point h => exact ⟨'.', hpoint h, List.mem_cons_self⟩
  | pointExponent h _ => exact ⟨'.', List.mem_append_left _ (hpoint h), List.mem_cons_self⟩
  | exponent _ h =>
      obtain ⟨c, hc, hletter⟩ := hexponent h
      exact ⟨c, List.mem_append_right _ hc, List.mem_cons_of_mem _ hletter⟩

end

/-! ## 4. Reading -/

/-- The exponent that a text is, and zero where there is none. -/
def readExponent : List Char → ℤ
  | _ :: '+' :: text => runValue 10 text
  | _ :: '-' :: text => -runValue 10 text
  | _ :: text => runValue 10 text
  | [] => 0

/-- The number that a text without an exponent is: the digits in front of a point and those
behind it. -/
def readPoint (text : List Char) : ℚ :=
  runValue 10 (text.takeWhile (· ≠ '.')) + fractionValue (text.dropWhile (· ≠ '.')).tail

/-- Whether a character is in front of an exponent still. -/
def isMantissaChar (c : Char) : Bool :=
  !(['e', 'E'].contains c)

/-- The number that a text with a point or an exponent is. -/
def readReal (text : List Char) : ℚ :=
  readPoint (text.takeWhile isMantissaChar) * 10 ^ readExponent (text.dropWhile isMantissaChar)

/-- The number in base ten that a text is, whole if there is neither a point nor an exponent. -/
def readDecimal (text : List Char) : Number :=
  if text.any (realMarks.contains ·) then .real (readReal text)
  else .integer (runValue 10 text)

/-- The base that a text begins with, if it does with one, and what comes behind. -/
def base? : List Char → Option (ℕ × List Char)
  | '0' :: letter :: text => (baseLetters.lookup letter).map (·, text)
  | _ => none

/-- The number that a text without a sign is. -/
def readNumber (text : List Char) : Number :=
  (base? text).elim (readDecimal text) fun p => .integer (runValue p.1 p.2)

/-- The number that a text is. -/
def readSigned : List Char → Number
  | '-' :: text => (readNumber text).neg
  | text => readNumber text

/-- The constant that a text is, if it is one. -/
def read : List Char → Constant
  | '"' :: text => .text text.dropLast
  | '(' :: text =>
      .tuple (((Text.split ',' text.dropLast).filter (!·.isEmpty)).map readSigned)
  | text => .number (readSigned text)

section

variable {text : List Char}

/-- What is cut off in front of a character that is searched for. -/
theorem takeWhile_append_cons {p : Char → Bool} {front : List Char}
    (h : ∀ c ∈ front, p c = true) {c : Char} (hc : p c = false) (back : List Char) :
    (front ++ c :: back).takeWhile p = front ∧ (front ++ c :: back).dropWhile p = c :: back := by
  rw [List.takeWhile_append_of_pos h, List.dropWhile_append_of_pos h]
  simp [hc]

theorem readPoint_append_cons {whole : List Char} (h : ∀ c ∈ whole, c ≠ '.')
    (fraction : List Char) :
    readPoint (whole ++ '.' :: fraction) = runValue 10 whole + fractionValue fraction := by
  obtain ⟨htake, hdrop⟩ := takeWhile_append_cons (p := (· ≠ '.')) (c := '.')
    (fun c hc => decide_eq_true (h c hc)) (by decide) fraction
  rw [readPoint, htake, hdrop, List.tail_cons]

theorem IsRun.ne_point (run : IsRun (isDigitOf 10) text) : ∀ c ∈ text, c ≠ '.' := by
  rintro c hc rfl
  rcases run.isDigit_or '.' hc with h | h <;> revert h <;> decide

theorem IsRun.readPoint_eq (run : IsRun (isDigitOf 10) text) : readPoint text = runValue 10 text := by
  have htake : text.takeWhile (· ≠ '.') = text :=
    List.takeWhile_eq_self_iff.mpr fun c hc => decide_eq_true (run.ne_point c hc)
  have hdrop : text.dropWhile (· ≠ '.') = [] :=
    List.dropWhile_eq_nil_iff.mpr fun c hc => decide_eq_true (run.ne_point c hc)
  rw [readPoint, htake, hdrop]
  simp [fractionValue, runValue, runDigits]

theorem SpellsPoint.readPoint_eq {value : ℚ} (h : SpellsPoint text value) :
    readPoint text = value := by
  cases h with
  | between hwhole _ => exact readPoint_append_cons hwhole.ne_point _
  | @leading fraction _ =>
      have hread := @readPoint_append_cons [] (by simp) fraction
      simpa [runValue, runDigits] using hread
  | trailing hwhole =>
      rw [readPoint_append_cons hwhole.ne_point]
      simp [fractionValue, runValue, runDigits]

theorem SpellsExponent.readExponent_eq {shift : ℤ} (h : SpellsExponent text shift) :
    readExponent text = shift := by
  cases h with
  | unsigned _ run =>
      -- Its digits begin with none of the signs.
      obtain ⟨c, rest, rfl, hc⟩ := run.exists_cons
      unfold readExponent
      split
      · cases ‹_ = _›
        exact absurd hc (by decide)
      · cases ‹_ = _›
        exact absurd hc (by decide)
      · cases ‹_ = _›
        rfl
      · cases ‹_ = _›
  | plus _ _ => rfl
  | minus _ _ => rfl

theorem SpellsExponent.exists_cons {shift : ℤ} (h : SpellsExponent text shift) :
    ∃ letter ∈ ['e', 'E'], ∃ rest, text = letter :: rest := by
  cases h with
  | unsigned hletter _ => exact ⟨_, hletter, _, rfl⟩
  | plus hletter _ => exact ⟨_, hletter, _, rfl⟩
  | minus hletter _ => exact ⟨_, hletter, _, rfl⟩

/-- Digits and points are in front of an exponent. -/
theorem isMantissaChar_of_isDigit_or {c : Char} (h : isDigit c = true ∨ c ∈ ['_', '.']) :
    isMantissaChar c = true := by
  rcases h with hdigit | hmark
  · have hletter : c ∉ ['e', 'E'] := by
      intro hletter
      rw [(of_mem_exponentLetters hletter).2] at hdigit
      cases hdigit
    rw [isMantissaChar, Bool.not_eq_true', List.contains_eq_mem, decide_eq_false_iff_not]
    exact hletter
  · rcases List.mem_pair.mp hmark with rfl | rfl <;> decide

/-- The letter of the exponent is where what stands in front of it ends. -/
theorem readReal_append {exponent : List Char} {shift : ℤ}
    (h : ∀ c ∈ text, isDigit c = true ∨ c ∈ ['_', '.'])
    (hexponent : SpellsExponent exponent shift) :
    readReal (text ++ exponent) = readPoint text * 10 ^ shift := by
  have hread := hexponent.readExponent_eq
  obtain ⟨letter, hletter, rest, rfl⟩ := hexponent.exists_cons
  obtain ⟨htake, hdrop⟩ := takeWhile_append_cons (p := isMantissaChar)
    (fun c hc => isMantissaChar_of_isDigit_or (h c hc)) (c := letter)
    (by simp [isMantissaChar, hletter]) rest
  rw [readReal, htake, hdrop, hread]

theorem SpellsReal.readReal_eq {value : ℚ} (h : SpellsReal text value) : readReal text = value := by
  cases h with
  | point h =>
      have hmantissa : ∀ c ∈ text, isMantissaChar c = true :=
        fun c hc => isMantissaChar_of_isDigit_or (h.isDigit_or c hc)
      rw [readReal, List.takeWhile_eq_self_iff.mpr hmantissa,
        List.dropWhile_eq_nil_iff.mpr hmantissa, h.readPoint_eq, readExponent, zpow_zero, mul_one]
  | pointExponent h hexponent => rw [readReal_append h.isDigit_or hexponent, h.readPoint_eq]
  | exponent run hexponent =>
      rw [readReal_append (fun c hc => (run.isDigit_or c hc).imp_right fun hc => by simp [hc])
        hexponent, run.readPoint_eq]

/-- A decimal number does not begin with a base. -/
theorem base?_eq_none (h : ∀ c ∈ text, isDecimalChar c = true) : base? text = none := by
  unfold base?
  split
  · rename_i letter rest
    rw [Option.map_eq_none_iff, List.lookup_eq_none_iff]
    intro p hp
    have hchar := h letter (by simp)
    rw [bne_iff_ne, ne_eq]
    rintro rfl
    rw [(of_mem_baseLetters p hp).2.1] at hchar
    cases hchar
  · rfl

theorem SpellsReal.readNumber_eq {value : ℚ} (h : SpellsReal text value) :
    readNumber text = .real value := by
  obtain ⟨c, hc, hmark⟩ := h.exists_mem
  have hany : text.any (realMarks.contains ·) = true :=
    List.any_eq_true.mpr ⟨c, hc, by rwa [List.contains_iff_mem]⟩
  rw [readNumber, base?_eq_none h.isDecimalChar, Option.elim_none, readDecimal, if_pos hany,
    h.readReal_eq]

/-- Digits alone are a whole number. -/
theorem IsRun.readNumber_eq (run : IsRun (isDigitOf 10) text) :
    readNumber text = .integer (runValue 10 text) := by
  have hany : ¬ text.any (realMarks.contains ·) = true := by
    rw [List.any_eq_true]
    rintro ⟨c, hc, hmark⟩
    rcases run.isDigit_or c hc with hdigit | rfl
    · rw [isDigit_of_mem_realMarks (List.contains_iff_mem.mp hmark)] at hdigit
      cases hdigit
    · exact absurd hmark (by decide)
  rw [readNumber, base?_eq_none run.isDecimalChar, Option.elim_none, readDecimal, if_neg hany]

/-- Zeros alone are a run in any base, of no value. -/
theorem IsRun.of_zeros (run : IsRun (· == '0') text) :
    IsRun (isDigitOf 10) text ∧ runValue 10 text = 0 := by
  have hvalue : ∀ {text : List Char}, '0' :: runDigits text = runDigits ('0' :: text) := by
    intro text
    rw [runDigits, runDigits, List.filter_cons_of_pos (by decide)]
  induction run with
  | single h =>
      obtain rfl := beq_iff_eq.mp h
      exact ⟨.single (by decide), by decide⟩
  | next h _ ih =>
      obtain rfl := beq_iff_eq.mp h
      refine ⟨.next (by decide) ih.1, ?_⟩
      rw [runValue, ← hvalue, List.foldl_cons]
      exact ih.2
  | @grouped c rest h _ ih =>
      obtain rfl := beq_iff_eq.mp h
      refine ⟨.grouped (by decide) ih.1, ?_⟩
      rw [runValue, ← hvalue, runDigits, List.filter_cons_of_neg (by decide), List.foldl_cons]
      exact ih.2

theorem SpellsInteger.readNumber_eq {value : ℕ} (h : SpellsInteger text value) :
    readNumber text = .integer value := by
  cases h with
  | decimal _ run => exact run.readNumber_eq
  | zero run =>
      obtain ⟨hrun, hvalue⟩ := run.of_zeros
      rw [hrun.readNumber_eq, hvalue]
  | based hletter _ =>
      obtain ⟨-, -, -, hlookup⟩ := of_mem_baseLetters _ hletter
      rw [readNumber, base?, hlookup]
      rfl
  | basedGrouped hletter _ =>
      obtain ⟨-, -, -, hlookup⟩ := of_mem_baseLetters _ hletter
      rw [readNumber, base?, hlookup]
      rfl

theorem SpellsNumber.readNumber_eq {n : Number} (h : SpellsNumber text n) :
    readNumber text = n := by
  cases h with
  | integer h => exact h.readNumber_eq
  | real h => exact h.readNumber_eq

theorem SpellsSigned.readSigned_eq {n : Number} (h : SpellsSigned text n) :
    readSigned text = n := by
  cases h with
  | minus h => rw [readSigned, h.readNumber_eq]
  | plain h =>
      have hread := h.readNumber_eq
      obtain ⟨c, rest, rfl, hc⟩ := h.beginsAsNumber
      unfold readSigned
      split
      · cases ‹_ = _›
        exact absurd hc (by decide)
      · exact hread

theorem SpellsSigned.ne_nil {n : Number} (h : SpellsSigned text n) : text ≠ [] := by
  cases h with
  | plain h =>
      obtain ⟨c, rest, rfl, -⟩ := h.beginsAsNumber
      exact List.cons_ne_nil _ _
  | minus _ => exact List.cons_ne_nil _ _

end

/-- Joined by commas, numbers are cut at the commas into what they were. -/
theorem split_intercalate_numbers {items : List (List Char)} (hne : items ≠ [])
    (h : ∀ item ∈ items, item = [] ∨ ∃ n, SpellsSigned item n) :
    Text.split ',' ([','].intercalate items) = items := by
  refine Text.split_intercalate hne fun item hitem => ?_
  rcases h item hitem with rfl | ⟨n, hn⟩
  · exact List.not_mem_nil
  · exact hn.not_mem (by decide)

/-- The items of a tuple are numbers, and behind them there may be nothing more. -/
theorem eq_nil_or_spellsSigned {items : List (List Char)} {numbers : List Number}
    (h : List.Forall₂ SpellsSigned items numbers) (ends : List (List Char))
    (hends : ∀ item ∈ ends, item = []) :
    ∀ item ∈ items ++ ends, item = [] ∨ ∃ n, SpellsSigned item n := by
  have hitems : ∀ item ∈ items, ∃ n, SpellsSigned item n :=
    ((List.forall₂_and_left _ _).mp (h.imp fun _ n hn => ⟨⟨n, hn⟩, hn⟩)).1
  intro item hitem
  rcases List.mem_append.mp hitem with hitem | hend
  · exact Or.inr (hitems item hitem)
  · exact Or.inl (hends item hend)

theorem read_tuple {items : List (List Char)} {numbers : List Number}
    (h : List.Forall₂ SpellsSigned items numbers) (ends : List (List Char))
    (hends : ∀ item ∈ ends, item = []) :
    read ('(' :: [','].intercalate (items ++ ends) ++ [')']) = .tuple numbers := by
  have hread : items.map readSigned = numbers ∧ items.filter (!·.isEmpty) = items := by
    induction h with
    | nil => exact ⟨rfl, rfl⟩
    | cons h _ ih =>
        rw [List.map_cons, h.readSigned_eq, ih.1, List.filter_cons_of_pos (by simp [h.ne_nil]), ih.2]
        exact ⟨rfl, rfl⟩
  have hnone : ends.filter (!·.isEmpty) = [] :=
    List.filter_eq_nil_iff.mpr fun item hitem => by simp [hends item hitem]
  have hitems := eq_nil_or_spellsSigned h ends hends
  rw [List.cons_append, read, List.dropLast_concat]
  by_cases hne : items ++ ends = []
  · obtain ⟨rfl, rfl⟩ := List.append_eq_nil_iff.mp hne
    obtain rfl := hread.1
    rfl
  · rw [split_intercalate_numbers hne hitems, List.filter_append, hnone, List.append_nil, hread.2,
      hread.1]

/-- **A text is read as the constant that it spells.** -/
theorem Spells.read_eq {text : List Char} {c : Constant} (h : Spells text c) : read text = c := by
  cases h with
  | @number _ n h =>
      have hquote : '"' ∉ text := h.not_mem (by decide)
      have hparenthesis : '(' ∉ text := h.not_mem (by decide)
      have hread := h.readSigned_eq
      unfold read
      split
      · exact absurd List.mem_cons_self hquote
      · exact absurd List.mem_cons_self hparenthesis
      · rw [hread]
  | text _ => rw [List.cons_append, read, List.dropLast_concat]
  | tuple h _ => simpa using read_tuple h [] (by simp)
  | closedTuple h _ => exact read_tuple h [[]] (by simp)

/-- **A text spells one constant at most.** -/
theorem Spells.unique {text : List Char} {c d : Constant} (hc : Spells text c)
    (hd : Spells text d) : c = d := by
  rw [← hc.read_eq, hd.read_eq]

theorem Spells.iff_eq {text : List Char} {c : Constant} (h : Spells text c) (d : Constant) :
    Spells text d ↔ d = c :=
  ⟨fun hd => hd.unique h, fun hd => hd ▸ h⟩

/-- What spells a constant under some condition, and without it none, spells that one alone. -/
theorem Spells.iff_and_eq {p : Prop} {text : List Char} {c : Constant} (h : p → Spells text c)
    (hnot : ¬ p → ∀ d, ¬ Spells text d) (d : Constant) : Spells text d ↔ p ∧ d = c := by
  by_cases hp : p
  · rw [(h hp).iff_eq, and_iff_right hp]
  · exact iff_of_false (hnot hp d) fun hd => hp hd.1

end Literal

end LayerScript
