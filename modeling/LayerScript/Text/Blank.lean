/-
`Text/Blank.lean` -- the white space that is cut from the ends of a text.

Two places cut white space: the items of a tuple literal are trimmed on both
sides, and an artifact shown on a terminal loses what stands after its last
visible character. Both mean the White_Space property of Unicode, which is
wider than the four characters that `Char.isWhitespace` knows, so the ranges are
spelt out here once.
-/
set_option autoImplicit false

namespace LayerScript.Text

/-! ## 1. The property -/

/-- The code points with the property White_Space, as closed ranges, ascending
and apart. They are 25 in all and have been stable for many versions. -/
def blankRanges : List (Nat × Nat) :=
  [(0x09, 0x0D), (0x20, 0x20), (0x85, 0x85), (0xA0, 0xA0), (0x1680, 0x1680),
   (0x2000, 0x200A), (0x2028, 0x2029), (0x202F, 0x202F), (0x205F, 0x205F), (0x3000, 0x3000)]

/-- Whether a character is white space. -/
def isBlank (c : Char) : Bool :=
  blankRanges.any fun (low, high) => low ≤ c.toNat && c.toNat ≤ high

/-! ## 2. Trimming -/

/-- A text without the white space at its end. -/
def trimEnd (text : List Char) : List Char :=
  (text.reverse.dropWhile isBlank).reverse

/-- A text without the white space at both ends. -/
def trim (text : List Char) : List Char :=
  trimEnd (text.dropWhile isBlank)

end LayerScript.Text
