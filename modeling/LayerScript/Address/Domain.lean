/-
`Address/Domain.lean` -- the names of hosts.

A name consists of labels with points between them. Names that differ only in case
name one host, so a name is folded first: capitals become small letters, letters of
full width those of the usual width, and characters that are drawn as nothing are
left out. A label with characters beyond ASCII is then written in letters, digits
and hyphens behind the mark `xn--`; one that was written so already has to stand
for a folded label.
-/
import LayerScript.Address.Punycode
import LayerScript.Text.Split

set_option autoImplicit false

namespace LayerScript.Address.Domain

/-! ## 1. Folding -/

/-- Letters that fold by a shift: the first and last code point of a run, how far its
members are apart, and the shift. They are the capitals of the Latin, Greek, Cyrillic and
Armenian alphabets, the superscript and other variants of Latin letters and digits, and
the ASCII characters of full width. -/
def shifts : List (Nat × Nat × Nat × Int) :=
  [ (0x41, 0x5A, 1, 32), (0xAA, 0xAA, 1, -73), (0xB2, 0xB3, 1, -128), (0xB5, 0xB5, 1, 775),
    (0xB9, 0xB9, 1, -136), (0xBA, 0xBA, 1, -75), (0xC0, 0xD6, 1, 32), (0xD8, 0xDE, 1, 32),
    (0x100, 0x12E, 2, 1), (0x134, 0x136, 2, 1), (0x139, 0x13D, 2, 1), (0x141, 0x147, 2, 1),
    (0x14A, 0x176, 2, 1), (0x178, 0x178, 1, -121), (0x179, 0x17D, 2, 1), (0x17F, 0x17F, 1, -268),
    (0x1CD, 0x1DB, 2, 1), (0x1DE, 0x1EE, 2, 1), (0x1F8, 0x21E, 2, 1), (0x222, 0x232, 2, 1),
    (0x386, 0x386, 1, 38), (0x388, 0x38A, 1, 37), (0x38C, 0x38C, 1, 64), (0x38E, 0x38F, 1, 63),
    (0x391, 0x3A1, 1, 32), (0x3A3, 0x3AB, 1, 32), (0x400, 0x40F, 1, 80), (0x410, 0x42F, 1, 32),
    (0x460, 0x480, 2, 1), (0x48A, 0x4BE, 2, 1), (0x4C0, 0x4C0, 1, 15), (0x4C1, 0x4CD, 2, 1),
    (0x4D0, 0x52E, 2, 1), (0x531, 0x556, 1, 48), (0x1E00, 0x1E94, 2, 1),
    (0x1E9E, 0x1E9E, 1, -7615), (0x1EA0, 0x1EFE, 2, 1), (0xFF01, 0xFF20, 1, -65248),
    (0xFF21, 0xFF3A, 1, -65216), (0xFF3B, 0xFF5E, 1, -65248) ]

/-- Characters that are drawn as nothing and left out of a name. -/
def isIgnored (c : Char) : Bool :=
  [0xAD, 0x34F, 0x200B, 0x2060, 0x2064, 0xFEFF].contains c.toNat
    || 0xFE00 ≤ c.toNat && c.toNat ≤ 0xFE0F

/-- The points of other scripts, which separate labels too. -/
def isPoint (c : Char) : Bool :=
  c == '.' || [0x3002, 0xFF61].contains c.toNat

/-- One character of a name, folded. -/
def foldChar (c : Char) : Char :=
  if isPoint c then '.'
  else
    match shifts.find? fun (low, high, apart, _) =>
        low ≤ c.toNat && c.toNat ≤ high && (c.toNat - low) % apart == 0 with
    | some (_, _, _, shift) => Char.ofNat (c.toNat + shift).toNat
    | none => c

/-- A name, folded. -/
def fold (name : List Char) : List Char :=
  (name.filter fun c => !isIgnored c).map foldChar

/-! ## 2. Labels -/

/-- Whether no name has this character, once it is folded: controls, spaces and what
separates the parts of an address, joiners, private characters and those that stand for
none. -/
def isRefused (c : Char) : Bool :=
  c.toNat ≤ 0x20 || "%#/:<>?@[\\]^|".toList.contains c
    || [ (0x7F, 0xA0), (0x2000, 0x200F), (0x2028, 0x202F), (0x205F, 0x206F), (0x3000, 0x3000),
         (0xE000, 0xF8FF), (0xFFF0, 0xFFFF), (0xE0000, 0x10FFFF) ].any fun (low, high) =>
      low ≤ c.toNat && c.toNat ≤ high

/-- The mark of a label that is written in letters, digits and hyphens. -/
def encodedMark : List Char := ['x', 'n', '-', '-']

/-- Whether a label is one of ASCII characters. -/
def isPlain (label : List Char) : Bool :=
  label.all Punycode.isBasic

/-- A folded label in ASCII, if there is such a label. -/
def label? (label : List Char) : Option (List Char) :=
  if label.any isRefused then none
  else if encodedMark.isPrefixOf label then
    match Punycode.decode? (label.drop encodedMark.length) with
    | none => none
    | some decoded =>
      if isPlain decoded || decoded.any isRefused || fold decoded != decoded then none
      else some label
  else if isPlain label then some label
  else some (encodedMark ++ Punycode.encode label)

/-- A name in ASCII, if it can be the name of a host. -/
def ofName? (name : List Char) : Option (List Char) :=
  ((Text.split '.' (fold name)).mapM label?).map fun labels => ['.'].intercalate labels

end LayerScript.Address.Domain
