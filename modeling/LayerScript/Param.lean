/-
`Param.lean` -- the value of one parameter of a layer.

A parameter is a switch, a number or a text. A number is passed on in the
spelling of its JSON text and a text as it is; which literal they become is
decided from that spelling alone (`Literal`). A switch has a spelling of its own.
-/
import LayerScript.Decode
import LayerScript.Literal

set_option autoImplicit false

namespace LayerScript

/-- The value of a parameter. -/
inductive Param where
  | flag (value : Bool)
  | number (value : Number)
  | text (value : String)
deriving DecidableEq, Repr

namespace Param

/-- The spelling of a value before it is made a literal. -/
def raw : Param → String
  | .flag value => if value then "true" else "false"
  | .number value => value.text
  | .text value => value

/-- The literal of a value in a script. -/
def literal : Param → String
  | .flag value => Literal.ofBool value
  | .number value => Literal.ofText value.text
  | .text value => Literal.ofText value

/-- The value of a document, if it is of one of the three kinds. -/
def ofValue? : Value → Option Param
  | .bool value => some (.flag value)
  | .number value => some (.number value)
  | .text value => some (.text value)
  | _ => none

/-- Decodes a value. -/
def ofValue (v : Value) : Except Fault Param :=
  match ofValue? v with
  | some p => .ok p
  | none => .error .notParameter

/-- The document of a value. -/
def toValue : Param → Value
  | .flag value => .bool value
  | .number value => .number value
  | .text value => .text value

end Param

end LayerScript
