/-
`Layer.lean` -- the kinds of layer and their parameters.

The parameters of a layer are read into a record. What belongs to a record is said three
times: its fields say what is read, its signature what is published, and its entries what
is written and in which order. In the same way a kind has a tag by which declarations ask
for it, a name by which it is written, and a place in the catalog. Nothing here makes these
agree; that they do is proved (`Proofs/Records`). A kind outside the catalog is not a fault
yet; it is kept as `unsupported` and refused where a layer is declared or written.
-/
import LayerScript.Param

set_option autoImplicit false

namespace LayerScript

/-! ## 1. Records of parameters -/

/-- The fields that records are made of. -/
inductive ParamField where
  | shape
  | batchSize
  | dtype
  | filters
  | kernelSize
  | strides
  | padding
  | activation
  | useBias
  | dilationRate
  | units
  | poolSize
  | rate
  | seed
  | axis
  | momentum
  | epsilon
  | center
  | scale
  | dataFormat
deriving DecidableEq, Repr

/-- The key that a field is read from. -/
def ParamField.key : ParamField → String
  | .shape => "shape"
  | .batchSize => "batch_size"
  | .dtype => "dtype"
  | .filters => "filters"
  | .kernelSize => "kernel_size"
  | .strides => "strides"
  | .padding => "padding"
  | .activation => "activation"
  | .useBias => "use_bias"
  | .dilationRate => "dilation_rate"
  | .units => "units"
  | .poolSize => "pool_size"
  | .rate => "rate"
  | .seed => "seed"
  | .axis => "axis"
  | .momentum => "momentum"
  | .epsilon => "epsilon"
  | .center => "center"
  | .scale => "scale"
  | .dataFormat => "data_format"

/-- Whether a field has to be there. -/
inductive Presence where
  | required
  | optional
deriving DecidableEq, Repr

/-- What is published about a record: the keys it must have, and those it may have. -/
structure Signature where
  required : List String
  optional : List String
deriving DecidableEq, Repr

/-- All keys that are published. -/
def Signature.keys (s : Signature) : List String :=
  s.required ++ s.optional

/-- The records that parameters are read into. -/
inductive ParamRecord where
  | input
  | conv2D
  | dense
  | pooling
  | activation
  | dropout
  | batchNormalization
  | flatten
deriving DecidableEq, Repr

namespace ParamRecord

/-- What messages call a record. -/
def name : ParamRecord → String
  | .input => "InputParams"
  | .conv2D => "Conv2DParams"
  | .dense => "DenseParams"
  | .pooling => "PoolingParams"
  | .activation => "ActivationParams"
  | .dropout => "DropoutParams"
  | .batchNormalization => "BatchNormalizationParams"
  | .flatten => "FlattenParams"

/-- The fields of a record, in the order of declaration. -/
def fields : ParamRecord → List (ParamField × Presence)
  | .input => [(.shape, .required), (.batchSize, .optional), (.dtype, .optional)]
  | .conv2D =>
    [(.filters, .required), (.kernelSize, .required), (.strides, .optional),
      (.padding, .optional), (.activation, .optional), (.useBias, .optional),
      (.dilationRate, .optional)]
  | .dense => [(.units, .required), (.activation, .optional), (.useBias, .optional)]
  | .pooling => [(.poolSize, .optional), (.strides, .optional), (.padding, .optional)]
  | .activation => [(.activation, .required)]
  | .dropout => [(.rate, .required), (.seed, .optional)]
  | .batchNormalization =>
    [(.axis, .optional), (.momentum, .optional), (.epsilon, .optional), (.center, .optional),
      (.scale, .optional)]
  | .flatten => [(.dataFormat, .optional)]

/-- The signature of a record. -/
def signature : ParamRecord → Signature
  | .input => ⟨["shape"], ["batch_size", "dtype"]⟩
  | .conv2D =>
    ⟨["filters", "kernel_size"],
      ["strides", "padding", "activation", "use_bias", "dilation_rate"]⟩
  | .dense => ⟨["units"], ["activation", "use_bias"]⟩
  | .pooling => ⟨[], ["pool_size", "strides", "padding"]⟩
  | .activation => ⟨["activation"], []⟩
  | .dropout => ⟨["rate"], ["seed"]⟩
  | .batchNormalization => ⟨[], ["axis", "momentum", "epsilon", "center", "scale"]⟩
  | .flatten => ⟨[], ["data_format"]⟩

/-- The entries of a record, in the order they are written: each has the key that it is
written with and the field that its value is taken from. -/
def entries : ParamRecord → List (String × ParamField)
  | .input => [("shape", .shape), ("batch_size", .batchSize), ("dtype", .dtype)]
  | .conv2D =>
    [("filters", .filters), ("kernel_size", .kernelSize), ("strides", .strides),
      ("padding", .padding), ("activation", .activation), ("use_bias", .useBias),
      ("dilation_rate", .dilationRate)]
  | .dense => [("units", .units), ("activation", .activation), ("use_bias", .useBias)]
  | .pooling => [("pool_size", .poolSize), ("strides", .strides), ("padding", .padding)]
  | .activation => [("activation", .activation)]
  | .dropout => [("rate", .rate), ("seed", .seed)]
  | .batchNormalization =>
    [("axis", .axis), ("momentum", .momentum), ("epsilon", .epsilon), ("center", .center),
      ("scale", .scale)]
  | .flatten => [("data_format", .dataFormat)]

end ParamRecord

/-! ## 2. Reading and writing -/

/-- The fields of a record that have a value, with their values. -/
abbrev FieldValues := List (ParamField × Param)

/-- Parameters as they are written: each with its key, in order. -/
abbrev Params := List (String × Param)

namespace ParamRecord

/-- The keys of the fields, in the order of declaration. -/
def keys (r : ParamRecord) : List String :=
  r.fields.map fun (field, _) => field.key

/-- Whether the field with a key has to be there, if there is such a field. -/
def presence? (r : ParamRecord) (key : String) : Option Presence :=
  (r.fields.find? fun (field, _) => field.key == key).map (·.2)

/-- What is wrong with one field of an object, if anything: an optional field may be
`null`, and a key that no field has is refused. -/
def fieldFault (r : ParamRecord) (key : String) (v : Value) : Option Fault :=
  match r.presence? key, v with
  | none, _ => some (.unknownField key r.keys)
  | some .optional, .null => none
  | some _, v => if (Param.ofValue? v).isSome then none else some .notParameter

/-- The first fault among the fields of an object. -/
def firstFault (r : ParamRecord) (given : List (String × Value)) : Option Fault :=
  given.findSome? fun (key, v) => r.fieldFault key v

/-- The first field that has to be there and is not given. -/
def missing? (r : ParamRecord) (given : List (String × Value)) : Option ParamField :=
  (r.fields.find? fun (field, presence) =>
    presence = .required && (given.lookup field.key).isNone).map (·.1)

/-- The values that the fields are given. -/
def read (r : ParamRecord) (given : List (String × Value)) : FieldValues :=
  r.fields.filterMap fun (field, _) =>
    ((given.lookup field.key).bind Param.ofValue?).map fun p => (field, p)

/-- Decodes the fields of an object. -/
def ofFields (r : ParamRecord) (given : List (String × Value)) : Except Fault FieldValues :=
  match r.firstFault given with
  | some fault => .error fault
  | none =>
    match r.missing? given with
    | some field => .error (.missingField field.key)
    | none => .ok (r.read given)

/-- Decodes fields that are given by position: every field needs its item. -/
def ofItems (r : ParamRecord) (items : List Value) : Except Fault FieldValues :=
  let given := r.keys.zip items
  match r.firstFault given with
  | some fault => .error fault
  | none =>
    if items.length < r.keys.length then
      .error (.wrongLength items.length
        ("struct " ++ r.name ++ " with " ++ elements r.keys.length))
    else if r.keys.length < items.length then
      .error (.wrongLength items.length (elements r.keys.length ++ " in sequence"))
    else .ok (r.read given)

/-- Decodes a record. -/
def decode (r : ParamRecord) : Decoder FieldValues
  | .object given => r.ofFields given
  | .list items => r.ofItems items
  | v => mismatch v ("struct " ++ r.name)

/-- The parameters that are written of a record: its entries whose field has a value. -/
def params (r : ParamRecord) (values : FieldValues) : Params :=
  r.entries.filterMap fun (key, field) => (values.lookup field).map fun p => (key, p)

end ParamRecord

/-! ## 3. Kinds -/

/-- The supported kinds of layer. -/
inductive Kind where
  | input
  | conv2D
  | dense
  | averagePooling2D
  | maxPool2D
  | activation
  | dropout
  | batchNormalization
  | flatten
deriving DecidableEq, Repr

namespace Kind

/-- All kinds. -/
def all : List Kind :=
  [.input, .conv2D, .dense, .averagePooling2D, .maxPool2D, .activation, .dropout,
   .batchNormalization, .flatten]

/-- The tag by which a declaration asks for a kind. -/
def tag : Kind → String
  | .input => "Input"
  | .conv2D => "Conv2D"
  | .dense => "Dense"
  | .averagePooling2D => "AveragePooling2D"
  | .maxPool2D => "MaxPool2D"
  | .activation => "Activation"
  | .dropout => "Dropout"
  | .batchNormalization => "BatchNormalization"
  | .flatten => "Flatten"

/-- The kind with a tag. -/
def ofTag? (tag : String) : Option Kind :=
  all.find? fun kind => kind.tag == tag

/-- The name of a kind in scripts. -/
def name : Kind → String
  | .input => "Input"
  | .conv2D => "Conv2D"
  | .dense => "Dense"
  | .averagePooling2D => "AveragePooling2D"
  | .maxPool2D => "MaxPool2D"
  | .activation => "Activation"
  | .dropout => "Dropout"
  | .batchNormalization => "BatchNormalization"
  | .flatten => "Flatten"

/-- The record of a kind. The two kinds of pooling share theirs. -/
def record : Kind → ParamRecord
  | .input => .input
  | .conv2D => .conv2D
  | .dense => .dense
  | .averagePooling2D => .pooling
  | .maxPool2D => .pooling
  | .activation => .activation
  | .dropout => .dropout
  | .batchNormalization => .batchNormalization
  | .flatten => .flatten

/-- What is published about the parameters of a kind. -/
def signature (kind : Kind) : Signature :=
  kind.record.signature

end Kind

/-- What the catalog says about one kind of layer. -/
structure CatalogEntry where
  kind : String
  required : List String
  optional : List String
deriving DecidableEq, Repr

/-- The entry of a kind with this name, whose parameters are read into this record. -/
def CatalogEntry.ofRecord (kind : String) (r : ParamRecord) : CatalogEntry :=
  ⟨kind, r.signature.required, r.signature.optional⟩

/-- The catalog that is published. -/
def catalog : List CatalogEntry :=
  [ .ofRecord "Input" .input,
    .ofRecord "Conv2D" .conv2D,
    .ofRecord "Dense" .dense,
    .ofRecord "AveragePooling2D" .pooling,
    .ofRecord "MaxPool2D" .pooling,
    .ofRecord "Activation" .activation,
    .ofRecord "Dropout" .dropout,
    .ofRecord "BatchNormalization" .batchNormalization,
    .ofRecord "Flatten" .flatten ]

/-! ## 4. Layers -/

/-- What a declaration says about the layer itself. -/
inductive Layer where
  | supported (kind : Kind) (values : FieldValues)
  | unsupported
deriving DecidableEq, Repr

namespace Layer

/-- The name of the kind of a layer. -/
def kindName : Layer → String
  | .supported kind _ => kind.name
  | .unsupported => "Unsupported"

/-- Whether data enters the network at this layer. -/
def isInput : Layer → Bool
  | .supported .input _ => true
  | _ => false

/-- The parameters of a layer, if it is supported. -/
def params? : Layer → Option Params
  | .supported kind values => some (kind.record.params values)
  | .unsupported => none

/-- Decodes a layer from its type and its parameters. -/
def ofFields (fields : List (String × Value)) : Except Fault Layer :=
  match fields.lookup "type" with
  | none => .error (.missingField "type")
  | some (.text tag) =>
    match Kind.ofTag? tag with
    | none => .ok .unsupported
    | some kind =>
      match fields.lookup "param" with
      | none => .error (.missingField "param")
      | some v => .supported kind <$> kind.record.decode v
  | some v => mismatch v "variant identifier"

/-- Decodes a layer given by position: the type, then the parameters. -/
def ofItems : List Value → Except Fault Layer
  | [] => .error (.missingField "type")
  | .text tag :: rest =>
    match Kind.ofTag? tag, rest with
    | none, [] => .ok .unsupported
    | none, _ => .error (.wrongLength rest.length "0 elements in sequence")
    | some kind, [] =>
      .error (.wrongLength 0 ("struct variant Layer::" ++ kind.tag ++ " with 1 element"))
    | some kind, v :: more => do
      let values ← kind.record.decode v
      if more.isEmpty then .ok (.supported kind values)
      else .error (.wrongLength rest.length "1 element in sequence")
  | v :: _ => mismatch v "variant identifier"

/-- Decodes a layer. -/
def ofValue : Decoder Layer
  | .object fields => ofFields fields
  | .list items => ofItems items
  | v => mismatch v "internally tagged enum Layer"

end Layer

end LayerScript
