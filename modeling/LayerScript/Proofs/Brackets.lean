/-
`Proofs/Brackets.lean` -- where a document ends in a text.

Whoever reads the output of a run wants to know where the object that it begins with ends, and
finds out by counting brackets outside of strings. `Json.behindObject?` does this, and knows
nothing of how documents are written: it keeps the brackets that are still to be closed, and in a
string it passes over whatever stands behind a backslash.

That a document which was written ends where it should is then a matter of its parts. A part
leaves the open brackets as it found them (`Json.Skips`), and this property composes: texts
without brackets and quotes have it, strings have it, two in a row have it, and so does one
between brackets. The induction over documents has nothing else to do.
-/
import LayerScript.Json.Writer
import LayerScript.Proofs.Text

set_option autoImplicit false

namespace LayerScript

namespace Json

/-! ## 1. Counting brackets -/

/-- Where a reader stands with respect to strings. -/
inductive Mode where
  | outside
  | inside
  /-- In a string, behind a backslash. -/
  | escaped

/-- What is left of a text behind the bracket that closes the last of those that are open. They
are given by what closes them, the innermost first. -/
def behind : Mode → List Char → List Char → Option (List Char)
  | _, _, [] => none
  | .escaped, closers, _ :: rest => behind .inside closers rest
  | .inside, closers, c :: rest =>
    if c = '\\' then behind .escaped closers rest
    else if c = '"' then behind .outside closers rest
    else behind .inside closers rest
  | .outside, closers, c :: rest =>
    if c = '"' then behind .inside closers rest
    else if c = '\x7b' then behind .outside ('\x7d' :: closers) rest
    else if c = '[' then behind .outside (']' :: closers) rest
    else if c = '\x7d' ∨ c = ']' then
      match closers with
      | [] => none
      | [last] => if c = last then some rest else none
      | next :: more => if c = next then behind .outside more rest else none
    else behind .outside closers rest

/-- What stands behind the object that a text begins with. -/
def behindObject? : List Char → Option (List Char)
  | '\x7b' :: rest => behind .outside ['\x7d'] rest
  | _ => none

/-! ## 2. Texts that leave brackets as they are -/

/-- Whether a text can be passed over while brackets are open. -/
def Skips (text : List Char) : Prop :=
  ∀ closers rest, closers ≠ [] →
    behind .outside closers (text ++ rest) = behind .outside closers rest

/-- The characters that mean something outside of strings. -/
def marks : List Char := ['"', '\x7b', '[', '\x7d', ']']

theorem skips_nil : Skips [] := fun _ _ _ => rfl

theorem Skips.append {front back : List Char} (hfront : Skips front) (hback : Skips back) :
    Skips (front ++ back) := by
  intro closers rest hopen
  rw [List.append_assoc, hfront _ _ hopen, hback _ _ hopen]

theorem skips_of_unmarked {text : List Char} (h : ∀ c ∈ text, c ∉ marks) : Skips text := by
  induction text with
  | nil => exact skips_nil
  | cons c text ih =>
      intro closers rest hopen
      have hc := h c List.mem_cons_self
      simp only [marks, List.mem_cons, List.not_mem_nil, or_false, not_or] at hc
      obtain ⟨hquote, hbrace, hbracket, hbrace', hbracket'⟩ := hc
      have hrest := ih (fun a ha => h a (List.mem_cons_of_mem _ ha)) closers rest hopen
      simpa [behind, hquote, hbrace, hbracket, hbrace', hbracket'] using hrest

theorem skips_given {text : List Char} (h : text.all (fun c => !marks.contains c) = true) :
    Skips text :=
  skips_of_unmarked fun c hc => by simpa using List.all_eq_true.mp h c hc

/-- Behind the bracket that closes the innermost one the others are still open. -/
theorem behind_close {close : Char} (h : close = '\x7d' ∨ close = ']') {closers : List Char}
    (hopen : closers ≠ []) (rest : List Char) :
    behind .outside (close :: closers) (close :: rest) = behind .outside closers rest := by
  obtain ⟨next, more, rfl⟩ := List.exists_cons_of_ne_nil hopen
  rcases h with rfl | rfl
  · simp [behind]
  · simp [behind]

/-- Brackets are passed over together with what is between them. -/
theorem Skips.braces {text : List Char} (h : Skips text) : Skips ('\x7b' :: text ++ ['\x7d']) := by
  intro closers rest hopen
  have hbegin : behind .outside closers ('\x7b' :: (text ++ '\x7d' :: rest))
      = behind .outside ('\x7d' :: closers) (text ++ '\x7d' :: rest) := by
    simp [behind]
  have hassoc : '\x7b' :: text ++ ['\x7d'] ++ rest = '\x7b' :: (text ++ '\x7d' :: rest) := by
    simp
  rw [hassoc, hbegin, h _ _ (List.cons_ne_nil _ _)]
  exact behind_close (Or.inl rfl) hopen rest

theorem Skips.brackets {text : List Char} (h : Skips text) : Skips ('[' :: text ++ [']']) := by
  intro closers rest hopen
  have hbegin : behind .outside closers ('[' :: (text ++ ']' :: rest))
      = behind .outside (']' :: closers) (text ++ ']' :: rest) := by
    simp [behind]
  have hassoc : '[' :: text ++ [']'] ++ rest = '[' :: (text ++ ']' :: rest) := by
    simp
  rw [hassoc, hbegin, h _ _ (List.cons_ne_nil _ _)]
  exact behind_close (Or.inr rfl) hopen rest

/-! ## 3. Strings -/

theorem hexDigit_ne (n : Nat) : hexDigit n ≠ '\\' ∧ hexDigit n ≠ '"' := by
  have hdigit : ∀ k < 16, Nat.digitChar k ≠ '\\' ∧ Nat.digitChar k ≠ '"' := by
    decide
  exact hdigit _ (Nat.mod_lt _ (by decide))

/-- The text of a character does not end the string that it stands in. -/
theorem behind_stringChar (c : Char) (closers rest : List Char) :
    behind .inside closers (stringChar c ++ rest) = behind .inside closers rest := by
  unfold stringChar
  split
  · rfl
  · rename_i hplain
    split
    · -- A control character: a backslash, `u` and four digits.
      simp [behind, hexDigit_ne]
    · -- Written as it is, since quotes and backslashes have short escapes above.
      have hquote : c ≠ '"' := by
        rintro rfl
        cases hplain
      have hslash : c ≠ '\\' := by
        rintro rfl
        cases hplain
      simp [behind, hquote, hslash]

theorem skips_stringText (text : String) : Skips (stringText text).toList := by
  intro closers rest _
  -- Character by character up to the quote, which is the only one that is not escaped.
  have hchars : ∀ cs : List Char, behind .inside closers (cs.flatMap stringChar ++ '"' :: rest)
      = behind .outside closers rest := by
    intro cs
    induction cs with
    | nil => simp [behind]
    | cons c cs ih => rw [List.flatMap_cons, List.append_assoc, behind_stringChar, ih]
  have htext : (stringText text).toList ++ rest
      = '"' :: (text.toList.flatMap stringChar ++ '"' :: rest) := by
    simp [stringText]
  have hbegin : ∀ cs, behind .outside closers ('"' :: cs) = behind .inside closers cs := by
    intro cs
    simp [behind]
  rw [htext, hbegin, hchars]

/-! ## 4. Numbers -/

theorem not_mem_marks_of_isDigit {c : Char} (h : c.isDigit = true) : c ∉ marks := by
  intro hmem
  simp only [marks, List.mem_cons, List.not_mem_nil, or_false] at hmem
  rcases hmem with rfl | rfl | rfl | rfl | rfl <;> exact absurd h (by decide)

theorem unmarked_toDigits (n : Nat) : ∀ c ∈ Nat.toDigits 10 n, c ∉ marks := fun _ hc =>
  not_mem_marks_of_isDigit (Nat.isDigit_of_mem_toDigits (by decide) (by decide) hc)

theorem skips_int (value : Int) : Skips (toString value).toList := by
  rw [Text.toList_toString_int]
  refine Skips.append ?_ (skips_of_unmarked (unmarked_toDigits _))
  by_cases hminus : value < 0
  · rw [if_pos hminus]
    exact skips_given (by decide)
  · rw [if_neg hminus]
    exact skips_nil

end Json

namespace Decimal.Layout

open Json

variable (format : Layout) {digits : List Char}

/-- Wherever the point goes, only digits and the point are written. -/
theorem skips_positional (h : ∀ c ∈ digits, c ∉ marks) (point : Int) :
    Skips (format.positional digits point) := by
  have hzeros : ∀ n, Skips (List.replicate n '0') := fun n =>
    skips_of_unmarked fun c hc => by
      rw [List.eq_of_mem_replicate hc]
      decide
  unfold positional
  split
  · exact ((skips_given (by decide)).append (hzeros _)).append (skips_of_unmarked h)
  · split
    · refine ((skips_of_unmarked fun c hc => h c (List.mem_of_mem_take hc)).append
        (skips_given (by decide))).append ?_
      exact skips_of_unmarked fun c hc => h c (List.mem_of_mem_drop hc)
    · refine ((skips_of_unmarked h).append (hzeros _)).append ?_
      split
      · exact skips_given (by decide)
      · exact skips_nil

/-- With an exponent, its sign and its letter are written besides. -/
theorem skips_scientific (h : ∀ c ∈ digits, c ∉ marks) (leading : Int) :
    Skips (scientific digits leading) := by
  have hfraction : Skips (digits.drop 1) :=
    skips_of_unmarked fun c hc => h c (List.mem_of_mem_drop hc)
  unfold scientific
  refine Skips.append (Skips.append (Skips.append ?_ ?_) ?_) ?_
  · exact skips_of_unmarked fun c hc => h c (List.mem_of_mem_take hc)
  · split
    · exact skips_nil
    · have hpoint : Skips ['.'] := skips_given (by decide)
      exact hpoint.append hfraction
  · split
    · exact skips_given (by decide)
    · exact skips_given (by decide)
  · exact skips_of_unmarked (unmarked_toDigits _)

theorem skips_magnitudeText (m : Nat) (q : Int) : Skips (format.magnitudeText m q) := by
  unfold magnitudeText
  split
  · split
    · exact skips_given (by decide)
    · exact skips_given (by decide)
  · dsimp only
    split
    · exact format.skips_positional (unmarked_toDigits _) _
    · exact skips_scientific (unmarked_toDigits _) _

theorem skips_text (value : Binary64) : Skips (format.text value).toList := by
  cases value with
  | finite negative m q =>
      rw [text, String.toList_ofList]
      refine Skips.append ?_ (format.skips_magnitudeText m q)
      split
      · exact skips_given (by decide)
      · exact skips_nil
  | infinite negative =>
      rw [text]
      split
      · exact skips_given (by decide)
      · exact skips_given (by decide)
  | notANumber =>
      rw [text]
      exact skips_given (by decide)

end Decimal.Layout

namespace Json

theorem skips_numberText (n : Number) : Skips (numberText n).toList := by
  cases n with
  | int value => exact skips_int value
  | float value =>
      rw [numberText]
      split
      · exact Decimal.Layout.skips_text _ _
      · exact skips_given (by decide)

/-! ## 5. Documents -/

theorem skips_newLine (depth : Nat) : Skips (newLine depth).toList := by
  refine skips_of_unmarked fun c hc => ?_
  have htext : (newLine depth).toList = '\n' :: List.replicate (2 * depth) ' ' := by
    simp [newLine]
  rw [htext] at hc
  rcases List.mem_cons.mp hc with rfl | hc
  · decide
  · rw [List.eq_of_mem_replicate hc]
    decide

/-- What stands between the brackets of a list. -/
theorem toList_indented_list (depth : Nat) (v : Value) (rest : List Value) :
    ((Value.list (v :: rest)).indented depth).toList
      = '[' :: ((Value.indentedItems (depth + 1) (v :: rest)).toList
          ++ (newLine depth).toList) ++ [']'] := by
  simp [Value.indented]

theorem toList_indented_object (depth : Nat) (f : String × Value) (rest : List (String × Value)) :
    ((Value.object (f :: rest)).indented depth).toList
      = '\x7b' :: ((Value.indentedFields (depth + 1) (f :: rest)).toList
          ++ (newLine depth).toList) ++ ['\x7d'] := by
  simp [Value.indented]

mutual

/-- **A document leaves brackets as it found them**, whatever it holds. -/
theorem skips_indented (depth : Nat) : ∀ v : Value, Skips (v.indented depth).toList
  | .null => by
      rw [Value.indented]
      exact skips_given (by decide)
  | .bool true => by
      rw [Value.indented]
      exact skips_given (by decide)
  | .bool false => by
      rw [Value.indented]
      exact skips_given (by decide)
  | .number n => by
      rw [Value.indented]
      exact skips_numberText n
  | .text s => by
      rw [Value.indented]
      exact skips_stringText s
  | .list [] => by
      rw [Value.indented]
      exact skips_nil.brackets
  | .object [] => by
      rw [Value.indented]
      exact skips_nil.braces
  | .list (v :: rest) => by
      rw [toList_indented_list]
      exact ((skips_indentedItems (depth + 1) (v :: rest)).append (skips_newLine depth)).brackets
  | .object (f :: rest) => by
      rw [toList_indented_object]
      exact ((skips_indentedFields (depth + 1) (f :: rest)).append (skips_newLine depth)).braces

/-- So do the items of a list. -/
theorem skips_indentedItems (depth : Nat) :
    ∀ items : List Value, Skips (Value.indentedItems depth items).toList
  | [] => skips_nil
  | [v] => by
      rw [Value.indentedItems, String.toList_append]
      exact (skips_newLine depth).append (skips_indented depth v)
  | v :: w :: rest => by
      rw [Value.indentedItems, String.toList_append, String.toList_append, String.toList_append]
      · exact (((skips_newLine depth).append (skips_indented depth v)).append
          (skips_given (by decide))).append (skips_indentedItems depth (w :: rest))
      · exact List.cons_ne_nil _ _

/-- And the fields of an object. -/
theorem skips_indentedFields (depth : Nat) :
    ∀ fields : List (String × Value), Skips (Value.indentedFields depth fields).toList
  | [] => skips_nil
  | [(key, v)] => by
      rw [Value.indentedFields, String.toList_append, String.toList_append, String.toList_append]
      exact (((skips_newLine depth).append (skips_stringText key)).append
        (skips_given (by decide))).append (skips_indented depth v)
  | (key, v) :: f :: rest => by
      rw [Value.indentedFields, String.toList_append, String.toList_append, String.toList_append,
        String.toList_append, String.toList_append]
      · exact (((((skips_newLine depth).append (skips_stringText key)).append
          (skips_given (by decide))).append (skips_indented depth v)).append
          (skips_given (by decide))).append (skips_indentedFields depth (f :: rest))
      · exact List.cons_ne_nil _ _

end

/-- **Behind an object that was written comes what was put behind it.** -/
theorem behindObject?_pretty (fields : List (String × Value)) (rest : List Char) :
    behindObject? ((Value.object fields).pretty.toList ++ rest) = some rest := by
  -- The outermost braces are the object's own; what is between them skips. `Skips` cannot be
  -- asked of the whole, since outside of all brackets a reader stops instead of going on.
  have hbetween : ∃ text, Skips text ∧
      (Value.object fields).pretty.toList = '\x7b' :: text ++ ['\x7d'] := by
    cases fields with
    | nil =>
        refine ⟨[], skips_nil, ?_⟩
        rw [Value.pretty, Value.indented]
        rfl
    | cons f more =>
        exact ⟨_, (skips_indentedFields 1 (f :: more)).append (skips_newLine 0),
          toList_indented_object 0 f more⟩
  obtain ⟨text, htext, hpretty⟩ := hbetween
  have hclose : behindObject? ('\x7b' :: text ++ ['\x7d'] ++ rest)
      = behind .outside ['\x7d'] (text ++ '\x7d' :: rest) := by
    simp [behindObject?]
  rw [hpretty, hclose, htext _ _ (List.cons_ne_nil _ _)]
  simp [behind]

end Json

end LayerScript
