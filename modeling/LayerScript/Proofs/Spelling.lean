/-
`Proofs/Spelling.lean` -- which values are spelled alike.

A literal escapes nothing, so it is not obvious that it still tells what value it was made from.
It does, as far as it can: the first character gives away which of the four shapes a literal has
(`Param.shapeOf_literal`), quotes and numbers are the text again, and a tuple is cut back into its
items at its commas, since no item can hold one. What is lost is white space around commas, and
nothing else (`Param.literal_eq_iff`).

The shape has to be settled first. Inside quotes and parentheses any character may stand, quotes
and parentheses included, so it is the first character alone that can be trusted.
-/
import LayerScript.Proofs.Literal

set_option autoImplicit false

namespace LayerScript

namespace Literal

/-! ## 1. Shapes -/

/-- The shapes of a literal. -/
inductive Shape where
  | switch
  | number
  | text
  | tuple
deriving DecidableEq, Repr

/-- The shape of a literal, as its first character tells. -/
def shapeOf (literal : List Char) : Shape :=
  match literal.head? with
  | some '(' => .tuple
  | some '"' => .text
  | some 'T' => .switch
  | some 'F' => .switch
  | _ => .number

/-- The shape that a text is given. -/
def shapeFor (text : List Char) : Shape :=
  if ',' ∈ text then .tuple
  else if isNumberList text then .number
  else .text

/-! ## 2. Texts -/

variable {a b text : List Char}

/-- A number begins with none of the characters that mark the other shapes. -/
theorem shapeOf_of_isNumberList (h : isNumberList text = true) : shapeOf text = .number := by
  have hhead : ∀ {c : Char}, isNumberPart c = false → text.head? ≠ some c := by
    intro c hc heq
    exact not_mem_of_isNumberList h hc (List.mem_of_head? heq)
  unfold shapeOf
  split
  case h_5 => rfl
  all_goals
    rename_i heq
    exact absurd heq (hhead (by decide))

theorem shapeFor_of_isNumberList (h : isNumberList text = true) : shapeFor text = .number := by
  rw [shapeFor, if_neg (not_mem_of_isNumberList h (by decide)), if_pos h]

/-- **The shape of a literal can be seen**, whatever the text is. -/
theorem shapeOf_ofList (text : List Char) : shapeOf (ofList text) = shapeFor text := by
  unfold shapeFor
  by_cases hcomma : ',' ∈ text
  · rw [if_pos hcomma, ofList_of_mem hcomma]
    rfl
  · rw [if_neg hcomma]
    by_cases hnumber : isNumberList text = true
    · rw [if_pos hnumber, ofList_of_number hcomma hnumber]
      exact shapeOf_of_isNumberList hnumber
    · rw [if_neg hnumber, ofList_of_text hcomma (by simpa using hnumber)]
      rfl

/-- What stands between the parentheses of a tuple is cut into its items again. -/
theorem tupleList_inj : tupleList a = tupleList b ↔ items a = items b := by
  constructor
  · intro h
    have hjoined : [','].intercalate (items a) = [','].intercalate (items b) :=
      (List.append_left_inj _).mp (List.cons.inj h).2
    rw [← split_items a, hjoined, split_items b]
  · intro h
    exact congrArg (fun parts => '(' :: [','].intercalate parts ++ [')']) h

theorem quoteList_inj : quoteList a = quoteList b ↔ a = b := by
  constructor
  · intro h
    exact (List.append_left_inj _).mp (List.cons.inj h).2
  · rintro rfl
    rfl

/-- **Two texts have one literal** when they are one text, or two tuples of the same items. -/
theorem ofList_eq_iff :
    ofList a = ofList b ↔ a = b ∨ ',' ∈ a ∧ ',' ∈ b ∧ items a = items b := by
  constructor
  · intro h
    have hshape : shapeFor a = shapeFor b := by
      rw [← shapeOf_ofList, h, shapeOf_ofList]
    unfold shapeFor at hshape
    -- Texts of different shapes are out, and each shape can be undone.
    by_cases ha : ',' ∈ a
    · by_cases hb : ',' ∈ b
      · rw [ofList_of_mem ha, ofList_of_mem hb] at h
        exact Or.inr ⟨ha, hb, tupleList_inj.mp h⟩
      · rw [if_pos ha, if_neg hb] at hshape
        split at hshape <;> cases hshape
    · by_cases hb : ',' ∈ b
      · rw [if_neg ha, if_pos hb] at hshape
        split at hshape <;> cases hshape
      · rw [if_neg ha, if_neg hb] at hshape
        left
        cases hna : isNumberList a with
        | true =>
            cases hnb : isNumberList b with
            | true => rwa [ofList_of_number ha hna, ofList_of_number hb hnb] at h
            | false => simp [hna, hnb] at hshape
        | false =>
            cases hnb : isNumberList b with
            | true => simp [hna, hnb] at hshape
            | false =>
                rw [ofList_of_text ha hna, ofList_of_text hb hnb] at h
                exact quoteList_inj.mp h
  · rintro (rfl | ⟨ha, hb, h⟩)
    · rfl
    · rw [ofList_of_mem ha, ofList_of_mem hb]
      exact tupleList_inj.mpr h

end Literal

/-! ## 3. Values -/

namespace Param

/-- Whether a value is a switch. -/
def IsFlag (p : Param) : Prop :=
  ∃ value, p = .flag value

/-- The shape that a value is given. -/
def shape : Param → Literal.Shape
  | .flag _ => .switch
  | .number value => Literal.shapeFor value.text.toList
  | .text value => Literal.shapeFor value.toList

/-- The items of the spelling of a value. -/
def items (p : Param) : List (List Char) :=
  Literal.items p.raw.toList

variable {p q : Param}

/-- What is no switch has the literal of its spelling. -/
theorem toList_literal_of_not_isFlag (h : ¬ p.IsFlag) :
    p.literal.toList = Literal.ofList p.raw.toList := by
  cases p with
  | flag value => exact absurd ⟨value, rfl⟩ h
  | number value => exact String.toList_ofList
  | text value => exact String.toList_ofList

theorem shape_of_not_isFlag (h : ¬ p.IsFlag) : p.shape = Literal.shapeFor p.raw.toList := by
  cases p with
  | flag value => exact absurd ⟨value, rfl⟩ h
  | number value => rfl
  | text value => rfl

theorem shapeFor_ne_switch (text : List Char) : Literal.shapeFor text ≠ .switch := by
  unfold Literal.shapeFor
  split
  · simp
  · split <;> simp

/-- **The shape of a value can be seen from its literal.** -/
theorem shapeOf_literal (p : Param) : Literal.shapeOf p.literal.toList = p.shape := by
  by_cases hflag : p.IsFlag
  · obtain ⟨value, rfl⟩ := hflag
    cases value <;> decide
  · rw [toList_literal_of_not_isFlag hflag, shape_of_not_isFlag hflag, Literal.shapeOf_ofList]

/-- A switch is spelled like no other value. -/
theorem isFlag_congr (h : p.literal = q.literal) (hp : p.IsFlag) : q.IsFlag := by
  by_contra hq
  obtain ⟨value, rfl⟩ := hp
  have hshape : shape (.flag value) = q.shape := by
    rw [← shapeOf_literal, h, shapeOf_literal]
  rw [shape_of_not_isFlag hq] at hshape
  exact shapeFor_ne_switch _ hshape.symm

theorem ofBool_inj : ∀ {x y : Bool}, Literal.ofBool x = Literal.ofBool y → x = y := by
  decide

/-- **Two values are spelled alike** when they are one switch, or have one spelling, or are tuples
of the same items. The shape of a value is never in doubt. -/
theorem literal_eq_iff (p q : Param) :
    (p.literal = q.literal ↔
      (∃ value, p = .flag value ∧ q = .flag value) ∨
      (¬ p.IsFlag ∧ ¬ q.IsFlag ∧ p.raw = q.raw) ∨
      (¬ p.IsFlag ∧ ¬ q.IsFlag ∧ ',' ∈ p.raw.toList ∧ ',' ∈ q.raw.toList ∧ p.items = q.items)) ∧
    Literal.shapeOf p.literal.toList = p.shape := by
  refine ⟨?_, p.shapeOf_literal⟩
  by_cases hp : p.IsFlag
  · obtain ⟨value, rfl⟩ := hp
    constructor
    · intro h
      obtain ⟨other, rfl⟩ := isFlag_congr h ⟨value, rfl⟩
      exact Or.inl ⟨value, rfl, by rw [ofBool_inj h]⟩
    · rintro (⟨other, hvalue, rfl⟩ | ⟨hp, -⟩ | ⟨hp, -⟩)
      · rw [hvalue]
      · exact absurd ⟨value, rfl⟩ hp
      · exact absurd ⟨value, rfl⟩ hp
  · by_cases hq : q.IsFlag
    · refine iff_of_false (fun h => hp (isFlag_congr h.symm hq)) ?_
      rintro (⟨value, rfl, -⟩ | ⟨-, hq', -⟩ | ⟨-, hq', -⟩)
      · exact hp ⟨value, rfl⟩
      · exact hq' hq
      · exact hq' hq
    · rw [← String.toList_inj, toList_literal_of_not_isFlag hp, toList_literal_of_not_isFlag hq,
        Literal.ofList_eq_iff, String.toList_inj]
      constructor
      · rintro (h | h)
        · exact Or.inr (Or.inl ⟨hp, hq, h⟩)
        · exact Or.inr (Or.inr ⟨hp, hq, h⟩)
      · rintro (⟨value, rfl, -⟩ | ⟨-, -, h⟩ | ⟨-, -, h⟩)
        · exact absurd ⟨value, rfl⟩ hp
        · exact Or.inl h
        · exact Or.inr h

-- Quotes and parentheses of the text itself mislead nobody, and white space at a comma is lost.
example : (text "(1,2)").literal = "((1,2))" ∧ (text "\"1\"").literal = "\"\"1\"\"" ∧
    (text "1 ,2").literal = (text "1,2").literal := by decide

end Param

end LayerScript
