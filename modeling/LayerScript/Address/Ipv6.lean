/-
`Address/Ipv6.lean` -- host addresses of eight groups.

Groups are written in hexadecimal with colons between them. Two colons stand, once
in an address, for groups of zeros; the last two groups may be written like an
address of four bytes. The usual text has small letters, no leading zeros, and the
two colons in place of the first of the longest runs of two or more zeros.
-/
import LayerScript.Address.Ipv4

set_option autoImplicit false

namespace LayerScript.Address.Ipv6

/-- How many groups an address has. -/
def groupCount : Nat := 8

/-! ## 1. Reading -/

/-- A group: one to four hexadecimal digits. -/
def group? (text : List Char) : Option Nat :=
  if text.isEmpty || 4 < text.length then none else Ipv4.ofDigits? 16 text

/-- Groups with colons between them. -/
def groups? (text : List Char) : Option (List Nat) :=
  if text.isEmpty then some [] else (Text.split ':' text).mapM group?

/-- What stands before the first two colons and what behind them. -/
def cutAtGap : List Char → Option (List Char × List Char)
  | ':' :: ':' :: rest => some ([], rest)
  | c :: rest => (cutAtGap rest).map fun (before, behind) => (c :: before, behind)
  | [] => none

/-- A byte in decimal, without leading zeros. -/
def byte? (text : List Char) : Option Nat :=
  match text with
  | [] => none
  | '0' :: _ :: _ => none
  | digits =>
    match Ipv4.ofDigits? 10 digits with
    | some value => if value < 256 then some value else none
    | none => none

/-- Four bytes in decimal as two groups. -/
def pair? (text : List Char) : Option (List Char) :=
  match (Text.split '.' text).mapM byte? with
  | some [a, b, c, d] =>
    some (Nat.toDigits 16 (a * 256 + b) ++ [':'] ++ Nat.toDigits 16 (c * 256 + d))
  | _ => none

/-- The text with its last two groups in hexadecimal. -/
def inGroups? (text : List Char) : Option (List Char) :=
  if text.contains '.' then
    let last := (text.reverse.takeWhile (· != ':')).reverse
    let before := (text.reverse.dropWhile (· != ':')).reverse
    (pair? last).map (before ++ ·)
  else some text

/-- The groups of an address. The two colons stand for at least one group. -/
def ofText? (text : List Char) : Option (List Nat) :=
  match inGroups? text with
  | none => none
  | some text =>
    match cutAtGap text with
    | none =>
      match groups? text with
      | some groups => if groups.length = groupCount then some groups else none
      | none => none
    | some (before, behind) =>
      match groups? before, groups? behind with
      | some before, some behind =>
        let given := before.length + behind.length
        if given < groupCount then
          some (before ++ List.replicate (groupCount - given) 0 ++ behind)
        else none
      | _, _ => none

/-! ## 2. Writing -/

/-- How many zeros a list begins with. -/
def zeros (groups : List Nat) : Nat :=
  (groups.takeWhile (· == 0)).length

/-- Where the first of the longest runs of zeros begins, and how long it is. -/
def longestGap (groups : List Nat) : Nat × Nat :=
  (List.range groups.length).foldl (fun best start =>
    let size := zeros (groups.drop start)
    if best.2 < size then (start, size) else best) (0, 0)

/-- Groups with colons between them. -/
def joined (groups : List Nat) : String :=
  ":".intercalate (groups.map fun group => String.ofList (Nat.toDigits 16 group))

/-- The text of an address. -/
def text (groups : List Nat) : String :=
  let (start, size) := longestGap groups
  if size < 2 then joined groups
  else joined (groups.take start) ++ "::" ++ joined (groups.drop (start + size))

end LayerScript.Address.Ipv6
