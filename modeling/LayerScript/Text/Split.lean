/-
`Text/Split.lean` -- cutting a text at every separator.

Nothing is left out: two separators side by side have an empty text between them,
and so do a separator and the end it stands at. Tuple literals are cut at commas
and paths at slashes.
-/
set_option autoImplicit false

namespace LayerScript.Text

/-- The texts between the separators of a text, one more than there are separators. -/
def split (separator : Char) : List Char → List (List Char)
  | [] => [[]]
  | c :: rest =>
    if c = separator then [] :: split separator rest
    else
      match split separator rest with
      | [] => [[c]]
      | first :: more => (c :: first) :: more

/-- There is always at least one text, if only an empty one. -/
theorem split_ne_nil (separator : Char) (text : List Char) : split separator text ≠ [] := by
  cases text with
  | nil => simp [split]
  | cons c rest =>
    simp only [split]
    split
    · simp
    · split <;> simp

end LayerScript.Text
