/-
`Settings.lean` -- what an installation is set up to do.

Every setting has a default, and there are settings that stand for a file that is not
there; both are the same (`Settings.ofValue_empty`). The same record is decoded from a JSON
document and from a settings file; they are formats of one document, and `Format` holds what
sets them apart.
-/
import LayerScript.Dialect
import LayerScript.Graph.Emission
import LayerScript.Toml.Document

set_option autoImplicit false

namespace LayerScript

/-- Decodes a policy. -/
def Policy.ofValue (format : Format) : Decoder Policy :=
  Decode.choice format Policy.byName

/-- The directory for requests unless another is named. -/
def defaultOutDir : String := "generated"

/-- The program for training scripts unless another is named. -/
def defaultInterpreter : String := "python3"

/-- The part of the data that is kept back unless another is given. -/
def defaultValidationSplit : Binary64 := .ofDecimal false 2 (-1)

/-- Where progress is reported unless another place is named. -/
def defaultMonitorRoot : String := "http://localhost:9000"

/-- The settings of an installation. The values stand for a settings file that is not there. -/
structure Settings where
  /-- The directory that holds the directories of the requests. -/
  outDir : String := defaultOutDir
  /-- The program that runs training scripts. -/
  interpreter : String := defaultInterpreter
  /-- What to do about layers that are not connected to the input. -/
  unreachable : Policy := .drop
  /-- The part of the data that is kept back. -/
  validationSplit : Binary64 := defaultValidationSplit
  /-- Where training reports its progress. -/
  monitorRoot : String := defaultMonitorRoot
  /-- Where requests for remote training are sent. -/
  trainerUrl : Option String := none
  dialect : Dialect := .tensorflow
deriving DecidableEq, Repr

namespace Settings

/-- Decodes settings. Every one may be left out, and unknown keys are ignored. -/
def ofValue (format : Format) (v : Value) : Except Fault Settings := do
  let r ← Record.ofValue "Settings"
    ["out_dir", "python", "unreachable", "validation_split", "remote_monitor_root",
      "trainer_url", "dialect"] v
  let outDir := r.slot "out_dir" Decode.path
  let interpreter := r.slot "python" Decode.text
  let unreachable := r.slot "unreachable" (Policy.ofValue format)
  let validationSplit := r.slot "validation_split" Decode.real
  let monitorRoot := r.slot "remote_monitor_root" Decode.text
  let trainerUrl := r.slot "trainer_url" (Decode.optional Decode.text)
  let dialect := r.slot "dialect" (Dialect.ofValue format)
  r.settle [outDir.fault, interpreter.fault, unreachable.fault, validationSplit.fault,
    monitorRoot.fault, trainerUrl.fault, dialect.fault]
  let s : Settings := {
    outDir := ← outDir.orElse defaultOutDir
    interpreter := ← interpreter.orElse defaultInterpreter
    unreachable := ← unreachable.orElse .drop
    validationSplit := ← validationSplit.orElse defaultValidationSplit
    monitorRoot := ← monitorRoot.orElse defaultMonitorRoot
    trainerUrl := ← trainerUrl.orElse none
    dialect := ← dialect.orElse .tensorflow
  }
  r.close format
  .ok s

/-- Leaving out every setting is having no settings. -/
theorem ofValue_empty (format : Format) : ofValue format (.object []) = .ok {} := rfl

/-- Reads a settings file. Nothing is said of a file that is none, not even why. -/
def ofFile? (text : String) : Option Settings := do
  let document ← Toml.read text
  (ofValue Toml.format document).toOption

end Settings

end LayerScript
