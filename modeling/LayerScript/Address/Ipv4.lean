/-
`Address/Ipv4.lean` -- host addresses of four bytes.

They are written as one to four numbers with points between them, of which the last
fills all the bytes that the others leave. A number is decimal, hexadecimal behind
`0x` or octal behind a zero. Any name that ends in a number is meant as such an
address, so it is one or it is refused.
-/
import LayerScript.Address.Escape
import LayerScript.Text.Split

set_option autoImplicit false

namespace LayerScript.Address.Ipv4

/-! ## 1. Numbers -/

/-- The value of digits of a base, which is at most sixteen. -/
def ofDigits? (base : Nat) (digits : List Char) : Option Nat :=
  digits.foldlM (fun value c =>
    match hexDigitValue? c with
    | some digit => if digit < base then some (value * base + digit) else none
    | none => none) 0

/-- The value of a number. Nothing behind the mark of a base is zero. -/
def number? : List Char → Option Nat
  | [] => none
  | '0' :: 'x' :: digits => ofDigits? 16 digits
  | '0' :: 'X' :: digits => ofDigits? 16 digits
  | ['0'] => some 0
  | '0' :: digits => ofDigits? 8 digits
  | digits => ofDigits? 10 digits

/-! ## 2. Addresses -/

/-- The parts of a name. A point at the end separates nothing. -/
def parts (name : List Char) : List (List Char) :=
  let all := Text.split '.' name
  match all.getLast? with
  | some [] => if 1 < all.length then all.dropLast else all
  | _ => all

/-- Whether a name ends in a number. -/
def endsInNumber (name : List Char) : Bool :=
  match (parts name).getLast? with
  | none => false
  | some last => (!last.isEmpty && last.all Char.isDigit) || (number? last).isSome

/-- The value of numbers that each fill a byte, but the last all that are left, most
significant first. -/
def value? : Nat → List Nat → Option Nat
  | _, [] => none
  | 0, _ => none
  | left, [last] => if last < Nat.pow 256 left then some last else none
  | left + 1, byte :: rest =>
    if byte < 256 then (value? left rest).map (byte * Nat.pow 256 left + ·) else none

/-- The address that a name ending in a number stands for. -/
def ofName? (name : List Char) : Option Nat :=
  match (parts name).mapM number? with
  | some numbers => value? 4 numbers
  | none => none

/-- The text of an address: its bytes in decimal. -/
def text (address : Nat) : String :=
  ".".intercalate ([3, 2, 1, 0].map fun i => toString (address / Nat.pow 256 i % 256))

end LayerScript.Address.Ipv4
