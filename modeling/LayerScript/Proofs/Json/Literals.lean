/-
`Proofs/Json/Literals.lean` -- a number of a payload is its own literal.

A parameter that is a number is printed and then looked at like any other text, so it might come
out between quotes or parentheses, and nobody would be told. It does not: what can be read from a
payload is a number that fits (`Json.numbersFit_of_readObject`), whatever fits is printed as a
number, in whichever layout (`Number.isNumber_text`), and the literal of such a text is the text.
A parameter that was written as the same text is not told apart from it.
-/
import LayerScript.Proofs.Decimal.Text
import LayerScript.Proofs.Json.Numbers
import LayerScript.Proofs.Spelling

set_option autoImplicit false

namespace LayerScript

/-- **A number that fits is printed as a number.** -/
theorem Number.isNumber_text {n : Number} (h : n.Fits) : Literal.isNumber n.text = true := by
  cases n with
  | int i => exact isNumber_toString_int i
  | float x =>
      rw [text, Decimal.Layout.isNumber_text]
      exact h.isFinite

/-- A parameter that is a number is one of the numbers of its document. -/
theorem Value.holds_of_ofValue? {v : Value} {n : Number}
    (h : Param.ofValue? v = some (.number n)) : v.Holds n := by
  cases v with
  | number m =>
      cases h
      exact .number
  | _ => cases h

theorem Value.holds_of_lookup {fields : List (String × Value)} {key : String} {n : Number}
    (h : (fields.lookup key).bind Param.ofValue? = some (.number n)) :
    (Value.object fields).Holds n := by
  obtain ⟨v, hv, hn⟩ := Option.bind_eq_some_iff.mp h
  exact .field (mem_of_lookup hv) (holds_of_ofValue? hn)

namespace Param

/-- **A number of a payload is its own literal.** Whatever a payload holds fits, and the literal of
a number that fits is its text; so is the literal of that text. Neither is a text between quotes or
a tuple. -/
theorem literal_of_fits :
    (∀ payload fields, Json.readObject payload = .ok fields →
      ∀ n, (Value.object fields).Holds n → n.Fits) ∧
    ∀ n : Number, n.Fits →
      ofValue? (.number n) = some (.number n) ∧
      (number n).literal = n.text ∧ (text n.text).literal = n.text ∧
      (number n).shape = .number ∧ (text n.text).shape = .number := by
  constructor
  · intro payload fields hfields
    exact Json.numbersFit_of_readObject hfields
  · intro n hn
    have hnumber := Number.isNumber_text hn
    have hliteral := Literal.ofText_of_isNumber hnumber
    have hshape := Literal.shapeFor_of_isNumberList hnumber
    exact ⟨rfl, hliteral, hliteral, hshape, hshape⟩

/-- A payload with the greatest and the least integer, negative zero, and values whose texts have
an exponent. -/
def numbersPayload : String :=
  "\x7b\"a\":18446744073709551615,\"b\":-9223372036854775808,\"c\":-0,"
    ++ "\"d\":0.25e-7,\"e\":1e22\x7d"

/-- Its numbers, and their texts. -/
def numbersOfPayload : List (String × Number × String) :=
  [("a", .int 18446744073709551615, "18446744073709551615"),
   ("b", .int (-9223372036854775808), "-9223372036854775808"),
   ("c", .float (.zero true), "-0.0"),
   ("d", .float (.finite false 7555786372591432 (-78)), "2.5e-8"),
   ("e", .float (.finite false 4768371582031250 21), "1e+22")]

theorem literal_of_fits_numbersPayload :
    ∃ fields, Json.readObject numbersPayload = .ok fields ∧
      ∀ entry ∈ numbersOfPayload, (Value.object fields).Holds entry.2.1 ∧
        (number entry.2.1).literal = entry.2.2 ∧ (text entry.2.2).literal = entry.2.2 := by
  have hrun : (Json.readObject numbersPayload).toOption.map (fun fields =>
        numbersOfPayload.map fun entry => (fields.lookup entry.1).bind ofValue?)
      = some (numbersOfPayload.map fun entry => some (.number entry.2.1)) := by
    decide +kernel
  obtain ⟨fields, hfields, hfound⟩ := Option.map_eq_some_iff.mp hrun
  have hread : Json.readObject numbersPayload = .ok fields := toOption_eq_some_iff.mp hfields
  refine ⟨fields, hread, fun entry hentry => ?_⟩
  have hholds : (Value.object fields).Holds entry.2.1 :=
    Value.holds_of_lookup (List.map_inj_left.mp hfound entry hentry)
  have htext : ∀ entry ∈ numbersOfPayload, entry.2.1.text = entry.2.2 := by
    decide +kernel
  obtain ⟨-, hnumber, htexts, -⟩ :=
    literal_of_fits.2 entry.2.1 (literal_of_fits.1 _ _ hread entry.2.1 hholds)
  rw [htext entry hentry] at hnumber htexts
  exact ⟨hholds, hnumber, htexts⟩

end Param

end LayerScript
