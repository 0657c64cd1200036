/-
`Script/Model.lean` -- the script that builds a model.

Each layer is constructed with the parameters it was given and, unless data
enters at it, applied to the layer it reads from; its variable holds the result.
The model is then built between the two ends of the network, and compiled for
training together with the callbacks that the configuration asks for.
-/
import LayerScript.Config
import LayerScript.Dialect
import LayerScript.Network
import LayerScript.Script

set_option autoImplicit false

namespace LayerScript

/-! ## 1. Layers -/

/-- Why a layer cannot be written. -/
inductive UnsupportedError where
  | kind (layer : String)
  | category (layer : String) (category : Category)
deriving DecidableEq, Repr

/-- The text of a fault. -/
def UnsupportedError.message : UnsupportedError → String
  | .kind layer => "layer " ++ backquoted layer ++ " has no supported parameter variant"
  | .category layer missing =>
    "layer " ++ backquoted layer ++ ": category " ++ backquoted missing.name
      ++ " has no namespace in the dialect"

/-- The parameters of a layer as arguments of its constructor. -/
def Params.arguments (params : Params) : List Expr :=
  params.map fun (key, value) => .named key (.literal value.literal)

namespace Module

/-- A layer applied to the one it reads from. Data enters at an input layer, so that
one is never applied. -/
def apply (m : Module) (layer : Expr) : Expr :=
  if m.isInput then layer
  else
    match m.input with
    | none => layer
    | some input => .call layer [.path input]

/-- The statement that constructs and applies a layer. -/
def statement (d : Dialect) (m : Module) : Except UnsupportedError Statement :=
  match m.layer.params? with
  | none => .error (.kind m.name)
  | some params =>
    match d.path? m.category with
    | none => .error (.category m.name m.category)
    | some path =>
      let kind := Expr.path (path ++ "." ++ m.layer.kindName)
      .ok (.assign m.name (m.apply (.call kind params.arguments)))

/-- The statements of several layers, up to the first that cannot be written. -/
def statements (d : Dialect) : List Module → Except UnsupportedError (List Statement)
  | [] => .ok []
  | m :: rest => do
    let s ← m.statement d
    let more ← statements d rest
    .ok (s :: more)

end Module

/-- The statement that builds the model between the ends of a network. -/
def Network.statement (d : Dialect) (c : Network) : Statement :=
  .assign Variable.model
    (.call (.path d.model) [.named "inputs" (.path c.input), .named "outputs" (.path c.output)])

/-! ## 2. Training -/

/-- A floating-point value as a literal. -/
def Expr.real (x : Binary64) : Expr :=
  .literal (Decimal.Layout.script.text x)

/-- A count as a literal. -/
def Expr.count (n : Nat) : Expr :=
  .literal (toString n)

/-- An argument that is given only when it has a value. -/
def Expr.namedIf {α : Type} (name : String) (write : α → Expr) : Option α → List Expr
  | none => []
  | some a => [.named name (write a)]

/-- The constructor of a callback. -/
def Dialect.callback (d : Dialect) (kind : String) (arguments : List Expr) : Expr :=
  .call (.path (d.callbacks ++ "." ++ kind)) arguments

namespace Config

/-- The statement that prepares the model for training. -/
def compileStatement (d : Dialect) (c : Config) : Statement :=
  .evaluate (.call (.path (Variable.model ++ ".compile")) [
    .named "optimizer"
      (.call (.path (d.optimizers ++ "." ++ c.optimizer))
        [.named "learning_rate" (.real c.learningRate)]),
    .named "loss" (.quoted c.loss),
    .named "metrics" (.list (c.metrics.map .quoted))])

end Config

/-- The statement that defines the callback, if it is used. -/
def EarlyStopping.statements (d : Dialect) (e : EarlyStopping) : List Statement :=
  if e.usage then
    [.assign Variable.earlyStopping (d.callback "EarlyStopping"
      ([.named "monitor" (.quoted e.monitor), .named "patience" (.count e.patience)]
        ++ Expr.namedIf "min_delta" .real e.minDelta
        ++ Expr.namedIf "mode" .quoted e.mode
        ++ Expr.namedIf "restore_best_weights" (fun b => .literal (Literal.ofBool b))
            e.restoreBestWeights))]
  else []

/-- The statement that defines the callback, if it is used. -/
def RateReduction.statements (d : Dialect) (l : RateReduction) : List Statement :=
  if l.usage then
    [.assign Variable.reduceLR (d.callback "ReduceLROnPlateau"
      ([.named "monitor" (.quoted l.monitor), .named "factor" (.real l.factor),
          .named "patience" (.count l.patience)]
        ++ Expr.namedIf "min_lr" .real l.minRate))]
  else []

/-- The statements that prepare training: the model first, then the callbacks. -/
def Config.statements (d : Dialect) (c : Config) : List Statement :=
  c.compileStatement d :: c.earlyStopping.statements d ++ c.rateReduction.statements d

/-! ## 3. The script -/

/-- The script that builds a model from layers in this order. -/
def Network.modelScript (d : Dialect) (config : Config) (c : Network) (order : Order) :
    Except UnsupportedError Script := do
  let layers ← Module.statements d order.modules
  .ok {
    name := .model
    statements := d.imports.map .verbatim ++ layers ++ [c.statement d] ++ config.statements d
  }

end LayerScript
