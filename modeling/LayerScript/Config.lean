/-
`Config.lean` -- how a network is trained.

A configuration is decoded from the payload and encoded again for a remote
trainer. The two callbacks are records of their own; each of their fields has a
default of its own, besides the record that stands for one that is left out as a
whole. Both are the same record (`EarlyStopping.ofValue_empty`,
`RateReduction.ofValue_empty`).
-/
import LayerScript.Decode

set_option autoImplicit false

namespace LayerScript

/-- The quantity that is watched unless another is named. -/
def defaultMonitor : String := "val_loss"

/-! ## 1. Ending training early -/

/-- When training ends before its last epoch. The values stand for a record that is left
out. -/
structure EarlyStopping where
  usage : Bool := false
  monitor : String := defaultMonitor
  patience : Nat := 0
  minDelta : Option Binary64 := none
  mode : Option String := none
  restoreBestWeights : Option Bool := none
deriving DecidableEq, Repr

namespace EarlyStopping

/-- Decodes the record. Every field may be left out. -/
def ofValue (v : Value) : Except Fault EarlyStopping := do
  let r ← Record.ofValue "EarlyStopping"
    ["usage", "monitor", "patience", "min_delta", "mode", "restore_best_weights"] v
  let usage := r.slot "usage" Decode.bool
  let monitor := r.slot "monitor" Decode.text
  let patience := r.slot "patience" Decode.count
  let minDelta := r.slot "min_delta" (Decode.optional Decode.real)
  let mode := r.slot "mode" (Decode.optional Decode.text)
  let restore := r.slot "restore_best_weights" (Decode.optional Decode.bool)
  r.settle [usage.fault, monitor.fault, patience.fault, minDelta.fault, mode.fault, restore.fault]
  let e : EarlyStopping := {
    usage := ← usage.orElse false
    monitor := ← monitor.orElse defaultMonitor
    patience := ← patience.orElse 0
    minDelta := ← minDelta.orElse none
    mode := ← mode.orElse none
    restoreBestWeights := ← restore.orElse none
  }
  r.close .json
  .ok e

/-- Leaving out every field is leaving out the record. -/
theorem ofValue_empty : ofValue (.object []) = .ok {} := rfl

/-- The document of the record. -/
def toValue (e : EarlyStopping) : Value :=
  .object [
    ("usage", .bool e.usage),
    ("monitor", .text e.monitor),
    ("patience", .ofNat e.patience),
    ("min_delta", .ofOption (fun x => .number (.float x)) e.minDelta),
    ("mode", .ofOption .text e.mode),
    ("restore_best_weights", .ofOption .bool e.restoreBestWeights)]

end EarlyStopping

/-! ## 2. Lowering the learning rate -/

/-- The factor by which the learning rate is lowered unless another is given. -/
def defaultFactor : Binary64 := .ofDecimal false 1 (-1)

/-- The number of epochs before the learning rate is lowered unless another is given. -/
def defaultReducePatience : Nat := 10

/-- When the learning rate is lowered, and by how much. The values stand for a record that
is left out. -/
structure RateReduction where
  usage : Bool := false
  monitor : String := defaultMonitor
  factor : Binary64 := defaultFactor
  patience : Nat := defaultReducePatience
  minRate : Option Binary64 := none
deriving DecidableEq, Repr

namespace RateReduction

/-- Decodes the record. Every field may be left out. -/
def ofValue (v : Value) : Except Fault RateReduction := do
  let r ← Record.ofValue "LearningRateReduction"
    ["usage", "monitor", "factor", "patience", "min_lr"] v
  let usage := r.slot "usage" Decode.bool
  let monitor := r.slot "monitor" Decode.text
  let factor := r.slot "factor" Decode.real
  let patience := r.slot "patience" Decode.count
  let minRate := r.slot "min_lr" (Decode.optional Decode.real)
  r.settle [usage.fault, monitor.fault, factor.fault, patience.fault, minRate.fault]
  let l : RateReduction := {
    usage := ← usage.orElse false
    monitor := ← monitor.orElse defaultMonitor
    factor := ← factor.orElse defaultFactor
    patience := ← patience.orElse defaultReducePatience
    minRate := ← minRate.orElse none
  }
  r.close .json
  .ok l

/-- Leaving out every field is leaving out the record. -/
theorem ofValue_empty : ofValue (.object []) = .ok {} := rfl

/-- The document of the record. -/
def toValue (l : RateReduction) : Value :=
  .object [
    ("usage", .bool l.usage),
    ("monitor", .text l.monitor),
    ("factor", .number (.float l.factor)),
    ("patience", .ofNat l.patience),
    ("min_lr", .ofOption (fun x => .number (.float x)) l.minRate)]

end RateReduction

/-! ## 3. The configuration -/

/-- How a network is trained. -/
structure Config where
  optimizer : String
  learningRate : Binary64
  loss : String
  metrics : List String
  batchSize : Nat
  epochs : Nat
  earlyStopping : EarlyStopping
  rateReduction : RateReduction
deriving DecidableEq, Repr

namespace Config

/-- Decodes a configuration. -/
def ofValue (v : Value) : Except Fault Config := do
  let r ← Record.ofValue "Config"
    ["optimizer", "learning_rate", "loss", "metrics", "batch_size", "epochs", "early_stopping",
      "learning_rate_reduction"] v
  let optimizer := r.slot "optimizer" Decode.text
  let learningRate := r.slot "learning_rate" Decode.real
  let loss := r.slot "loss" Decode.text
  let metrics := r.slot "metrics" (Decode.list Decode.text)
  let batchSize := r.slot "batch_size" Decode.count
  let epochs := r.slot "epochs" Decode.count
  let earlyStopping := r.slot "early_stopping" EarlyStopping.ofValue
  let rateReduction := r.slot "learning_rate_reduction" RateReduction.ofValue
  r.settle [optimizer.fault, learningRate.fault, loss.fault, metrics.fault, batchSize.fault,
    epochs.fault, earlyStopping.fault, rateReduction.fault]
  let c : Config := {
    optimizer := ← optimizer.required r
    learningRate := ← learningRate.required r
    loss := ← loss.required r
    metrics := ← metrics.orElse []
    batchSize := ← batchSize.required r
    epochs := ← epochs.required r
    earlyStopping := ← earlyStopping.orElse {}
    rateReduction := ← rateReduction.orElse {}
  }
  r.close .json
  .ok c

/-- The document of a configuration. -/
def toValue (c : Config) : Value :=
  .object [
    ("optimizer", .text c.optimizer),
    ("learning_rate", .number (.float c.learningRate)),
    ("loss", .text c.loss),
    ("metrics", .texts c.metrics),
    ("batch_size", .ofNat c.batchSize),
    ("epochs", .ofNat c.epochs),
    ("early_stopping", c.earlyStopping.toValue),
    ("learning_rate_reduction", c.rateReduction.toValue)]

end Config

end LayerScript
