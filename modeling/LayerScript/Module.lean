/-
`Module.lean` -- the declaration of one layer of a network.

A module names its layer, says which family of constructors it comes from, and
wires it: `input` is the layer it is applied to, `output` a layer that it feeds.
Its name becomes a variable of the generated scripts, so it must look like one
and may not be one that the scripts use for themselves.
-/
import LayerScript.Layer

set_option autoImplicit false

namespace LayerScript

/-! ## 1. Categories and names -/

/-- The family of constructors that a layer is written under. -/
inductive Category where
  | layer
  | math
deriving DecidableEq, Repr

namespace Category

/-- The name of a category, in declarations and in a dialect. -/
def name : Category → String
  | .layer => "Layer"
  | .math => "Math"

/-- Decodes a category. -/
def ofValue : Decoder Category :=
  Decode.choice .json [(layer.name, layer), (math.name, math)]

end Category

/-- The variables that the generated scripts define or import themselves. -/
def reservedNames : List String :=
  ["tf", "tfa", "json", "model", "dataset", "x_train", "y_train", "early_stopping", "reduce_lr",
   "remote_monitor"]

/-! ## 2. Modules -/

/-- The declaration of a layer. -/
structure Module where
  category : Category
  name : String
  input : Option String
  output : Option String
  layer : Layer
deriving DecidableEq, Repr

namespace Module

/-- Whether data enters the network at this module. -/
def isInput (m : Module) : Bool := m.layer.isInput

/-- An absent name of another layer may also be written as the empty text. -/
def wire (name : Option String) : Option String :=
  name.filter fun s => !s.isEmpty

/-- A declaration as it is written, before its name and its parameters are judged. -/
structure Declaration where
  category : Category
  kind : String
  name : String
  input : Option String
  output : Option String
  params : Value

/-- Decodes a declaration. Parameters that are absent or `null` are an empty object. -/
def Declaration.ofValue (v : Value) : Except Fault Declaration := do
  let r ← Record.ofValue "RawModule" ["category", "type", "name", "input", "output", "param"] v
  let category := r.slot "category" Category.ofValue
  let kind := r.slot "type" Decode.text
  let name := r.slot "name" Decode.text
  let input := r.slot "input" (Decode.optional Decode.text)
  let output := r.slot "output" (Decode.optional Decode.text)
  let params := r.slot "param" (Decode.optional .ok)
  r.settle [category.fault, kind.fault, name.fault, input.fault, output.fault, params.fault]
  let d : Declaration := {
    category := ← category.required r
    kind := ← kind.required r
    name := ← name.required r
    input := ← input.orElse none
    output := ← output.orElse none
    params := (← params.orElse none).getD (.object [])
  }
  r.close .json
  .ok d

/-- Judges a declaration: first its name, then its parameters. -/
def ofDeclaration (d : Declaration) : Except Fault Module :=
  if !Literal.isName d.name then .error (.invalidIdentifier d.name)
  else if d.name ∈ reservedNames then .error (.reservedName d.name)
  else
    match Layer.ofFields [("param", d.params), ("type", .text d.kind)] with
    | .error fault => .error (.invalidParameters d.name fault)
    | .ok .unsupported => .error (.invalidKind d.name d.kind)
    | .ok layer =>
      .ok {
        category := d.category
        name := d.name
        input := wire d.input
        output := wire d.output
        layer := layer
      }

/-- Decodes a module. -/
def ofValue (v : Value) : Except Fault Module := do
  let d ← Declaration.ofValue v
  ofDeclaration d

end Module

end LayerScript
