/-
`Proofs/Text.lean` -- cutting, trimming and joining texts.

Scripts and paths are put together from parts, and what is proved of them comes down to
finding the parts again: a text is cut where a separator stands, nothing is lost by
that, and where a separator stands in none of the parts they are the only ones.
-/
import LayerScript.Text.Blank
import LayerScript.Text.Split
import Mathlib.Data.List.Basic

set_option autoImplicit false

namespace LayerScript.Text

variable {text : List Char}

/-! ## 1. The parts of a text -/

/-- A separator is in none of the texts that it separates. -/
theorem not_mem_of_mem_split (separator : Char) :
    ∀ item ∈ split separator text, separator ∉ item := by
  induction text with
  | nil =>
      intro item hitem
      rw [List.mem_singleton.mp hitem]
      exact List.not_mem_nil
  | cons c rest ih =>
      intro item hitem
      rw [split] at hitem
      by_cases hc : c = separator
      · rw [if_pos hc] at hitem
        rcases List.mem_cons.mp hitem with rfl | hrest
        · exact List.not_mem_nil
        · exact ih item hrest
      · rw [if_neg hc] at hitem
        cases hsplit : split separator rest with
        | nil => exact absurd hsplit (split_ne_nil separator rest)
        | cons first more =>
            rw [hsplit] at hitem ih
            rcases List.mem_cons.mp hitem with rfl | hmore
            · rw [List.mem_cons, not_or]
              exact ⟨Ne.symm hc, ih first List.mem_cons_self⟩
            · exact ih item (List.mem_cons_of_mem _ hmore)

/-- A text with a separator in it is cut there. -/
theorem split_append_cons (separator : Char) (front back : List Char) :
    split separator (front ++ separator :: back)
      = split separator front ++ split separator back := by
  induction front with
  | nil => simp [split]
  | cons c rest ih =>
      rw [List.cons_append, split, split, ih]
      by_cases hc : c = separator
      · rw [if_pos hc, if_pos hc, List.cons_append]
      · rw [if_neg hc, if_neg hc]
        cases hsplit : split separator rest with
        | nil => exact absurd hsplit (split_ne_nil separator rest)
        | cons first more => rfl

/-- A text without a separator is not cut. -/
theorem split_of_not_mem {separator : Char} (h : separator ∉ text) :
    split separator text = [text] := by
  induction text with
  | nil => rfl
  | cons c rest ih =>
      rw [List.mem_cons, not_or] at h
      rw [split, if_neg (Ne.symm h.1), ih h.2]

/-! ## 2. Places to cut -/

section

variable {α : Type} {front₁ front₂ back₁ back₂ : List α} {a : α}

/-- A text is cut at the first place where a character stands. -/
theorem cut_first (h₁ : a ∉ front₁) (h₂ : a ∉ front₂)
    (h : front₁ ++ a :: back₁ = front₂ ++ a :: back₂) : front₁ = front₂ ∧ back₁ = back₂ := by
  induction front₁ generalizing front₂ with
  | nil =>
      cases front₂ with
      | nil => exact ⟨rfl, (List.cons.inj h).2⟩
      | cons b rest =>
          obtain ⟨rfl, -⟩ := List.cons.inj h
          exact absurd List.mem_cons_self h₂
  | cons b rest ih =>
      cases front₂ with
      | nil =>
          obtain ⟨rfl, -⟩ := List.cons.inj h
          exact absurd List.mem_cons_self h₁
      | cons c more =>
          obtain ⟨rfl, hrest⟩ := List.cons.inj h
          rw [List.mem_cons, not_or] at h₁ h₂
          obtain ⟨rfl, hback⟩ := ih h₁.2 h₂.2 hrest
          exact ⟨rfl, hback⟩

/-- A text is cut at the last place where a character stands. -/
theorem cut_last (h₁ : a ∉ back₁) (h₂ : a ∉ back₂)
    (h : front₁ ++ a :: back₁ = front₂ ++ a :: back₂) : front₁ = front₂ ∧ back₁ = back₂ := by
  have hreversed : back₁.reverse ++ a :: front₁.reverse = back₂.reverse ++ a :: front₂.reverse := by
    simpa using congrArg List.reverse h
  obtain ⟨hback, hfront⟩ := cut_first (by simpa using h₁) (by simpa using h₂) hreversed
  exact ⟨List.reverse_inj.mp hfront, List.reverse_inj.mp hback⟩

end

/-! ## 3. White space -/

/-- What is left of a text without the white space at its end is where it began. -/
theorem exists_trimEnd_append (text : List Char) : ∃ rest, trimEnd text ++ rest = text := by
  have hsuffix := List.dropWhile_suffix (l := text.reverse) isBlank
  have hprefix := List.reverse_prefix.mpr hsuffix
  rwa [List.reverse_reverse] at hprefix

/-- Trimming adds nothing. -/
theorem mem_of_mem_trim {c : Char} (h : c ∈ trim text) : c ∈ text :=
  (List.dropWhile_suffix isBlank).subset (List.IsPrefix.subset (exists_trimEnd_append _) h)

/-- A trimmed text does not begin with white space. -/
theorem isBlank_head?_trim (text : List Char) : ∀ c ∈ (trim text).head?, isBlank c = false := by
  intro c hc
  obtain ⟨rest, hrest⟩ := exists_trimEnd_append (text.dropWhile isBlank)
  have hhead : (text.dropWhile isBlank).head? = some c := by
    rw [← hrest, List.head?_append]
    change (trim text).head?.or rest.head? = some c
    rw [Option.mem_def.mp hc, Option.some_or]
  have hfirst := List.head?_dropWhile_not isBlank text
  rwa [hhead] at hfirst

/-! ## 4. Joining -/

/-- Joined texts end as the last of them does. -/
theorem exists_intercalate_concat (separator : List Char) (front : List (List Char))
    (last : List Char) : ∃ before, separator.intercalate (front ++ [last]) = before ++ last := by
  induction front with
  | nil => exact ⟨[], by simp⟩
  | cons first rest ih =>
      obtain ⟨before, hbefore⟩ := ih
      cases rest with
      | nil => exact ⟨first ++ separator, by simp [List.intercalate_cons_cons]⟩
      | cons next more =>
          refine ⟨first ++ separator ++ before, ?_⟩
          rw [List.append_assoc _ before, ← hbefore]
          exact List.intercalate_cons_cons

/-- Items that were joined by a separator are the parts that it cuts the text into, when it is in
none of them. -/
theorem split_intercalate {separator : Char} {items : List (List Char)} (hne : items ≠ [])
    (h : ∀ item ∈ items, separator ∉ item) :
    split separator ([separator].intercalate items) = items := by
  induction items with
  | nil => exact absurd rfl hne
  | cons item rest ih =>
      rw [List.forall_mem_cons] at h
      cases rest with
      | nil => rw [List.intercalate_singleton, split_of_not_mem h.1]
      | cons next more =>
          rw [List.intercalate_cons_cons, List.append_assoc, List.singleton_append,
            split_append_cons, split_of_not_mem h.1, ih (List.cons_ne_nil _ _) h.2]
          rfl

/-- A text is read from its bytes. -/
theorem fromUTF8?_toUTF8 (text : String) : String.fromUTF8? text.toUTF8 = some text := by
  simp only [String.fromUTF8?, String.toUTF8_eq_toByteArray, dif_pos text.isValidUTF8]
  rfl

/-! ## 5. Integers -/

theorem toList_toString_nat (n : Nat) : (toString n).toList = Nat.toDigits 10 n :=
  String.toList_ofList

/-- An integer is written with its digits, and a minus in front when it is negative. -/
theorem toList_toString_int (i : Int) :
    (toString i).toList = (if i < 0 then ['-'] else []) ++ Nat.toDigits 10 i.natAbs := by
  cases i with
  | ofNat n =>
      rw [if_neg (by simp), List.nil_append]
      exact toList_toString_nat n
  | negSucc n =>
      rw [if_pos (Int.negSucc_lt_zero n)]
      change ("-" ++ String.ofList (Nat.toDigits 10 (n + 1))).toList = _
      simp

end LayerScript.Text
