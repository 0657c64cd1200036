/-
`Proofs/Literal.lean` -- what a literal never contains.

Nothing is escaped inside a literal, so what keeps the arguments of a call apart has to be
read off the three shapes. A comma stands only in a tuple, whose items are trimmed, so no
comma has a space behind it (`Literal.isCompact_ofList`). And a literal that could be taken
for the end of a call with a single variable in it would have to end in a name behind an
opening parenthesis, but quotes and tuples end in other characters and a number has no
parenthesis (`Literal.not_endsOpen_ofList`).
-/
import LayerScript.Param
import LayerScript.Proofs.Text
import Mathlib.Data.List.Chain
import Mathlib.Data.List.TakeWhile

set_option autoImplicit false

namespace LayerScript

namespace Literal

/-! ## 1. The literal of a text -/

section

variable {text : List Char}

/-- The items of a tuple. -/
def items (text : List Char) : List (List Char) :=
  (Text.split ',' text).map Text.trim

theorem not_mem_items (text : List Char) : ∀ item ∈ items text, ',' ∉ item := by
  intro _ hmem
  obtain ⟨part, hpart, rfl⟩ := List.mem_map.mp hmem
  intro hcomma
  exact Text.not_mem_of_mem_split ',' part hpart (Text.mem_of_mem_trim hcomma)

theorem items_ne_nil (text : List Char) : items text ≠ [] := by
  intro h
  exact Text.split_ne_nil ',' text (List.map_eq_nil_iff.mp h)

/-- Joined by bare commas, the items of a tuple can be told apart again. -/
theorem split_items (text : List Char) :
    Text.split ',' ([','].intercalate (items text)) = items text :=
  Text.split_intercalate (items_ne_nil text) (not_mem_items text)

theorem ofList_of_mem (h : ',' ∈ text) : ofList text = tupleList text := by
  rw [ofList, if_pos (List.contains_iff_mem.mpr h)]

theorem ofList_of_number (hcomma : ',' ∉ text) (h : isNumberList text = true) :
    ofList text = text := by
  rw [ofList, if_neg (by rwa [List.contains_iff_mem]), if_pos h]

theorem ofList_of_text (hcomma : ',' ∉ text) (h : isNumberList text = false) :
    ofList text = quoteList text := by
  rw [ofList, if_neg (by rwa [List.contains_iff_mem]), if_neg (by simp [h])]

end

/-! ## 2. Commas -/

/-- Whether no comma of a text has a space behind it, as between two arguments. -/
def IsCompact (text : List Char) : Prop :=
  text.IsChain fun a b => a = ',' → b ≠ ' '

/-- A text without a comma has no space behind one. -/
theorem isCompact_of_not_mem {text : List Char} (h : ',' ∉ text) : IsCompact text := by
  induction text with
  | nil => exact .nil
  | cons c rest ih =>
      rw [List.mem_cons, not_or] at h
      exact List.isChain_cons.mpr ⟨fun _ _ hc => absurd hc.symm h.1, ih h.2⟩

/-- Texts can be put together unless a comma meets a space. -/
theorem IsCompact.append {front back : List Char} (hfront : IsCompact front)
    (hback : IsCompact back) (hhead : back.head? ≠ some ' ') : IsCompact (front ++ back) := by
  refine List.isChain_append.mpr ⟨hfront, hback, fun _ _ b hb _ heq => hhead ?_⟩
  rw [Option.mem_def.mp hb, heq]

/-- Joined by bare commas and closed, items stay compact when none of them begins with a space
or holds a comma. -/
theorem isCompact_items {items : List (List Char)}
    (hitems : ∀ item ∈ items, ',' ∉ item ∧ item.head? ≠ some ' ') :
    IsCompact ([','].intercalate items ++ [')']) ∧
      ([','].intercalate items ++ [')']).head? ≠ some ' ' := by
  induction items with
  | nil => exact ⟨.singleton _, by decide⟩
  | cons item rest ih =>
      obtain ⟨hcomma, hhead⟩ := hitems item List.mem_cons_self
      -- Behind the item there is a comma or the closing parenthesis.
      have hall : ∀ c back, IsCompact (c :: back) → c ≠ ' ' →
          IsCompact (item ++ c :: back) ∧ (item ++ c :: back).head? ≠ some ' ' := by
        intro c back hback hc
        refine ⟨(isCompact_of_not_mem hcomma).append hback (by simpa using hc), ?_⟩
        rw [List.head?_append]
        cases hitem : item.head? with
        | none => simpa using hc
        | some a =>
            rw [hitem] at hhead
            simpa using hhead
      cases rest with
      | nil =>
          rw [List.intercalate_singleton]
          exact hall ')' [] (.singleton _) (by decide)
      | cons next more =>
          obtain ⟨hmore, hnext⟩ := ih fun i hi => hitems i (List.mem_cons_of_mem _ hi)
          rw [List.intercalate_cons_cons, List.append_assoc, List.append_assoc]
          refine hall ',' _ (List.isChain_cons.mpr ⟨fun b hb _ heq => hnext ?_, hmore⟩) (by decide)
          exact (Option.mem_def.mp hb).trans (congrArg some heq)

/-- A tuple is compact: its items were trimmed. -/
theorem isCompact_tupleList (text : List Char) : IsCompact (tupleList text) := by
  have hitems : ∀ item ∈ items text, ',' ∉ item ∧ item.head? ≠ some ' ' := by
    intro item hmem
    refine ⟨not_mem_items text item hmem, ?_⟩
    obtain ⟨part, -, rfl⟩ := List.mem_map.mp hmem
    intro hspace
    exact absurd (Text.isBlank_head?_trim part ' ' hspace) (by decide)
  exact List.isChain_cons.mpr ⟨fun _ _ hc => absurd hc (by decide), (isCompact_items hitems).1⟩

/-- **No literal has a space behind a comma**, whatever the text is. -/
theorem isCompact_ofList (text : List Char) : IsCompact (ofList text) := by
  by_cases hcomma : ',' ∈ text
  · rw [ofList_of_mem hcomma]
    exact isCompact_tupleList text
  · by_cases hnumber : isNumberList text = true
    · rw [ofList_of_number hcomma hnumber]
      exact isCompact_of_not_mem hcomma
    · rw [ofList_of_text hcomma (by simpa using hnumber)]
      refine isCompact_of_not_mem ?_
      simp [quoteList, hcomma]

/-! ## 3. Numbers -/

/-- Whether a character can stand in a number. -/
def isNumberPart (c : Char) : Bool :=
  isDigit c || ['-', '+', '.', 'e', 'E'].contains c

/-- Whether a text goes on with `rest` behind characters of a number. -/
def RunsOn (text rest : List Char) : Prop :=
  ∃ front, text = front ++ rest ∧ ∀ c ∈ front, isNumberPart c = true

namespace RunsOn

theorem refl (text : List Char) : RunsOn text text :=
  ⟨[], rfl, fun _ hc => absurd hc List.not_mem_nil⟩

theorem cons {c : Char} {text rest : List Char} (hc : isNumberPart c = true)
    (h : RunsOn text rest) : RunsOn (c :: text) rest := by
  obtain ⟨front, rfl, hfront⟩ := h
  exact ⟨c :: front, rfl, List.forall_mem_cons.mpr ⟨hc, hfront⟩⟩

theorem trans {a b c : List Char} (hab : RunsOn a b) (hbc : RunsOn b c) : RunsOn a c := by
  obtain ⟨front, rfl, hfront⟩ := hab
  obtain ⟨back, rfl, hback⟩ := hbc
  exact ⟨front ++ back, (List.append_assoc _ _ _).symm,
    List.forall_mem_append.mpr ⟨hfront, hback⟩⟩

end RunsOn

/-- Digits are characters of a number. -/
theorem runsOn_of_afterDigits {text rest : List Char} (h : afterDigits text = some rest) :
    RunsOn text rest := by
  cases text with
  | nil => cases h
  | cons c more =>
      rw [afterDigits] at h
      by_cases hc : isDigit c = true
      · rw [if_pos hc] at h
        cases h
        refine ⟨c :: more.takeWhile isDigit, ?_, fun a ha => ?_⟩
        · rw [List.cons_append, List.takeWhile_append_dropWhile]
        · have hdigit : isDigit a = true := by
            rcases List.mem_cons.mp ha with rfl | ha
            · exact hc
            · exact List.mem_takeWhile_imp ha
          rw [isNumberPart, hdigit, Bool.true_or]
      · rw [if_neg hc] at h
        cases h

theorem runsOn_afterMinus (text : List Char) : RunsOn text (afterMinus text) := by
  unfold afterMinus
  split
  · exact (RunsOn.refl _).cons (by decide)
  · exact RunsOn.refl _

theorem runsOn_afterSign (text : List Char) : RunsOn text (afterSign text) := by
  unfold afterSign
  split
  · exact (RunsOn.refl _).cons (by decide)
  · exact (RunsOn.refl _).cons (by decide)
  · exact RunsOn.refl _

theorem runsOn_of_afterFraction {text rest : List Char} (h : afterFraction text = some rest) :
    RunsOn text rest := by
  unfold afterFraction at h
  split at h
  · exact (runsOn_of_afterDigits h).cons (by decide)
  · cases h
    exact RunsOn.refl _

theorem runsOn_of_afterExponent {text rest : List Char} (h : afterExponent text = some rest) :
    RunsOn text rest := by
  unfold afterExponent at h
  split at h
  · exact ((runsOn_afterSign _).trans (runsOn_of_afterDigits h)).cons (by decide)
  · exact ((runsOn_afterSign _).trans (runsOn_of_afterDigits h)).cons (by decide)
  · cases h
    exact RunsOn.refl _

/-- A number is made of the characters of a number. -/
theorem isNumberPart_of_isNumberList {text : List Char} (h : isNumberList text = true) :
    ∀ c ∈ text, isNumberPart c = true := by
  unfold isNumberList at h
  split at h
  · rename_i hread
    obtain ⟨behind, hfraction, hexponent⟩ := Option.bind_eq_some_iff.mp hread
    obtain ⟨digits, hdigits, hfraction⟩ := Option.bind_eq_some_iff.mp hfraction
    obtain ⟨front, htext, hfront⟩ :=
      (((runsOn_afterMinus text).trans (runsOn_of_afterDigits hdigits)).trans
        (runsOn_of_afterFraction hfraction)).trans (runsOn_of_afterExponent hexponent)
    rw [List.append_nil] at htext
    rwa [htext]
  · cases h

theorem not_mem_of_isNumberList {text : List Char} (h : isNumberList text = true) {c : Char}
    (hc : isNumberPart c = false) : c ∉ text := by
  intro hmem
  rw [isNumberPart_of_isNumberList h c hmem] at hc
  cases hc

/-- A number is its own literal, since no character of a number is a comma. -/
theorem ofList_of_isNumberList {text : List Char} (h : isNumberList text = true) :
    ofList text = text :=
  ofList_of_number (not_mem_of_isNumberList h (by decide)) h

theorem ofText_of_isNumber {text : String} (h : isNumber text = true) : ofText text = text := by
  rw [ofText, ofList_of_isNumberList h, String.ofList_toList]

/-! ## 4. Names -/

/-- A name has a first character, and all its characters are those of names. -/
theorem isNamePart_of_isName {text : String} (h : isName text = true) :
    text.toList ≠ [] ∧ ∀ c ∈ text.toList, isNamePart c = true := by
  unfold isName at h
  split at h
  · cases h
  · rename_i c rest htext
    rw [Bool.and_eq_true, List.all_eq_true] at h
    rw [htext]
    refine ⟨List.cons_ne_nil _ _, List.forall_mem_cons.mpr ⟨?_, h.2⟩⟩
    have hstart := h.1
    rw [isNameStart, Bool.or_eq_true] at hstart
    rw [isNamePart, Char.isAlphanum, Bool.or_eq_true, Bool.or_eq_true]
    exact hstart.imp_left Or.inl

/-- A character that names do not hold is in no name. -/
theorem not_mem_of_isName {text : String} (h : isName text = true) {c : Char}
    (hc : isNamePart c = false) : c ∉ text.toList := by
  intro hmem
  rw [(isNamePart_of_isName h).2 c hmem] at hc
  cases hc

/-- Whether a text ends like a call of a variable that was not closed yet: in a name behind an
opening parenthesis. -/
def EndsOpen (text : List Char) : Prop :=
  ∃ before name, text = before ++ '(' :: name ∧ ∀ c ∈ name, isNamePart c = true

/-- A text does not end so when a character that a name does not hold stands in it, and no
parenthesis is opened there or later. -/
theorem not_endsOpen_of_not_mem {front back : List Char} {c : Char} (hc : isNamePart c = false)
    (hback : '(' ∉ c :: back) : ¬ EndsOpen (front ++ c :: back) := by
  rintro ⟨before, name, htext, hname⟩
  have hmem : c ∉ '(' :: name := by
    rw [List.mem_cons, not_or]
    constructor
    · rintro rfl
      exact hback List.mem_cons_self
    · intro hmem
      rw [hname c hmem] at hc
      cases hc
  -- One of the two characters stands behind the other.
  rcases List.append_eq_append_iff.mp htext with ⟨middle, -, heq⟩ | ⟨middle, -, heq⟩
  · rw [heq] at hback
    exact hback List.mem_append_cons_self
  · rw [heq] at hmem
    exact hmem List.mem_append_cons_self

/-- **No argument ends so**, whatever the text is that it is the literal of. -/
theorem not_endsOpen_ofList (front text : List Char) :
    ¬ EndsOpen (front ++ '=' :: ofList text) := by
  -- Quotes and tuples end in a character of their own.
  have hend : ∀ inner c, isNamePart c = false → '(' ∉ [c] →
      ¬ EndsOpen (front ++ '=' :: (inner ++ [c])) := by
    intro inner c hc hopen
    rw [← List.cons_append, ← List.append_assoc]
    exact not_endsOpen_of_not_mem hc hopen
  by_cases hcomma : ',' ∈ text
  · rw [ofList_of_mem hcomma]
    exact hend _ ')' (by decide) (by decide)
  · by_cases hnumber : isNumberList text = true
    · rw [ofList_of_number hcomma hnumber]
      refine not_endsOpen_of_not_mem (by decide) (List.not_mem_cons_of_ne_of_not_mem (by decide) ?_)
      exact not_mem_of_isNumberList hnumber (by decide)
    · rw [ofList_of_text hcomma (by simpa using hnumber)]
      exact hend _ '"' (by decide) (by decide)

end Literal

/-! ## 5. Parameters -/

namespace Param

/-- A switch has one of two words, and all else is the literal of its spelling. -/
theorem toList_literal (p : Param) :
    p.literal.toList ∈ ["True".toList, "False".toList] ∨
      p.literal.toList = Literal.ofList p.raw.toList := by
  cases p with
  | flag value => exact Or.inl (by cases value <;> decide)
  | number value => exact Or.inr String.toList_ofList
  | text value => exact Or.inr String.toList_ofList

/-- The literal of a parameter has no space behind a comma. -/
theorem isCompact_literal (p : Param) : Literal.IsCompact p.literal.toList := by
  rcases p.toList_literal with hflag | htext
  · refine Literal.isCompact_of_not_mem ?_
    rcases List.mem_pair.mp hflag with h | h <;> rw [h] <;> decide
  · rw [htext]
    exact Literal.isCompact_ofList _

/-- A parameter does not end in a name behind an opening parenthesis. -/
theorem not_endsOpen_literal (front : List Char) (p : Param) :
    ¬ Literal.EndsOpen (front ++ '=' :: p.literal.toList) := by
  rcases p.toList_literal with hflag | htext
  · refine Literal.not_endsOpen_of_not_mem (by decide) ?_
    rcases List.mem_pair.mp hflag with h | h <;> rw [h] <;> decide
  · rw [htext]
    exact Literal.not_endsOpen_ofList _ _

end Param

end LayerScript
