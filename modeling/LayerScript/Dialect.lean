/-
`Dialect.lean` -- where the constructors of the target runtime are found.

The generated scripts name constructors by dotted paths. A dialect says under
which path each of them lives and which lines import the runtime, so that the
same network can be written for another version of it.
-/
import LayerScript.Decode
import LayerScript.Module

set_option autoImplicit false

namespace LayerScript

/-- The paths and the import lines of a target runtime. -/
structure Dialect where
  imports : List String
  /-- The path of the constructors of a category, by the name of the category. -/
  namespaces : List (String × String)
  model : String
  optimizers : String
  callbacks : String
deriving DecidableEq, Repr

namespace Dialect

/-- The dialect of TensorFlow, which is used when none is given. -/
def tensorflow : Dialect where
  imports := ["import tensorflow as tf", "import tensorflow_addons as tfa"]
  namespaces := [("Layer", "tf.keras.layers"), ("Math", "tf.math")]
  model := "tf.keras.Model"
  optimizers := "tf.keras.optimizers"
  callbacks := "tf.keras.callbacks"

/-- The path of the constructors of a category. -/
def path? (d : Dialect) (category : Category) : Option String :=
  d.namespaces.lookup category.name

/-- Decodes a dialect. None of its fields may be left out. -/
def ofValue (format : Format) (v : Value) : Except Fault Dialect := do
  let r ← Record.ofValue "Dialect" ["imports", "namespaces", "model", "optimizers", "callbacks"] v
  let imports := r.slot "imports" (Decode.list Decode.text)
  let namespaces := r.slot "namespaces" Decode.table
  let model := r.slot "model" Decode.text
  let optimizers := r.slot "optimizers" Decode.text
  let callbacks := r.slot "callbacks" Decode.text
  r.settle [imports.fault, namespaces.fault, model.fault, optimizers.fault, callbacks.fault]
  let d : Dialect := {
    imports := ← imports.required r
    namespaces := ← namespaces.required r
    model := ← model.required r
    optimizers := ← optimizers.required r
    callbacks := ← callbacks.required r
  }
  r.close format
  .ok d

/-- The document of a dialect. -/
def toValue (d : Dialect) : Value :=
  .object [
    ("imports", .texts d.imports),
    ("namespaces", .ofFields (d.namespaces.map fun (key, path) => (key, .text path))),
    ("model", .text d.model),
    ("optimizers", .text d.optimizers),
    ("callbacks", .text d.callbacks)]

end Dialect

end LayerScript
