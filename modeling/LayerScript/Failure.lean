/-
`Failure.lean` -- why a run failed.

A failure is an error with the errors behind it, from the one that was raised last to
the one that started it (`Failure.causes`). Its code is that of the first of them that is of a
kind with a code, wherever it stands, and its text is that of all of them in a row. Some
errors quote the one behind them in their own text, and then that one is named twice.
-/
import LayerScript.Artifacts
import LayerScript.Submission
import LayerScript.Training

set_option autoImplicit false

namespace LayerScript

/-! ## 1. Causes -/

/-- An error: of a kind that has codes, or of another, of which only the text counts. -/
inductive Cause where
  | compile (fault : CompileError)
  | bind (fault : BindError)
  | graph (fault : GraphError)
  | unsupported (fault : UnsupportedError)
  | storage (fault : StorageError)
  | training (fault : TrainingError)
  | submission (fault : SubmissionError)
  | other (text : String)

namespace Cause

/-- The code of an error, if it is of a kind that has codes. What cannot be compiled has the
code of the fault that it stands for. -/
def code? : Cause → Option String
  | .compile (.graph _) => some "GRAPH_ERROR"
  | .compile (.unsupported _) => some "UNSUPPORTED_TYPE"
  | .bind _ => some "BIND_ERROR"
  | .graph _ => some "GRAPH_ERROR"
  | .unsupported _ => some "UNSUPPORTED_TYPE"
  | .storage _ => some "PERSISTENCE_ERROR"
  | .training _ => some "PROCESS_ERROR"
  | .submission _ => some "REMOTE_ERROR"
  | .other _ => none

/-- The text of an error. -/
def message : Cause → String
  | .compile fault => fault.message
  | .bind fault => fault.message
  | .graph fault => fault.message
  | .unsupported fault => fault.message
  | .storage fault => fault.message
  | .training fault => fault.message
  | .submission fault => fault.message
  | .other text => text

end Cause

/-! ## 2. Failures -/

/-- Why a run failed, by the stage that it ended. Of settings that are invalid it is only
said that they are, since reading them gives no reason (`Settings.ofFile?`). -/
inductive Failure where
  | settingsUnread (path : String) (fault : DiskFault)
  | settingsInvalid (path : String)
  | payloadUnread (path : String) (fault : DiskFault)
  | inputUnread (fault : DiskFault)
  | bind (fault : BindError)
  | compile (fault : CompileError)
  | storage (fault : StorageError)
  | training (fault : TrainingError)
  | submission (fault : SubmissionError)
deriving DecidableEq, Repr

namespace Failure

/-- The errors of a failure. The settings are read with the fault put into words, so nothing
is behind it; where a payload is read the fault stays behind what was attempted. -/
def causes : Failure → List Cause
  | .settingsUnread path fault =>
    [.other ("cannot read settings " ++ path ++ ": " ++ fault.message)]
  | .settingsInvalid path => [.other ("invalid settings " ++ path ++ ": TOML parse error")]
  | .payloadUnread path fault => [.other ("reading payload " ++ path), .other fault.message]
  | .inputUnread fault => [.other "reading payload from stdin", .other fault.message]
  | .bind fault => .bind fault :: fault.causes.map .other
  | .compile fault => [.compile fault]
  | .storage fault => .storage fault :: fault.causes.map .other
  | .training fault => .training fault :: fault.causes.map .other
  | .submission fault => .submission fault :: fault.causes.map .other

/-- The code of a failure: that of the first of its errors that has one. -/
def code (e : Failure) : String :=
  (e.causes.findSome? Cause.code?).getD "INTERNAL"

/-- The text of a failure. -/
def chain (e : Failure) : String :=
  ": ".intercalate (e.causes.map Cause.message)

/-- An error and the texts of those behind it give the text of the whole failure. -/
theorem chain_of_causes {e : Failure} (first : Cause) (texts : List String)
    (h : e.causes = first :: texts.map .other) :
    e.chain = ": ".intercalate (first.message :: texts) := by
  have htexts : (texts.map Cause.other).map Cause.message = texts := by
    rw [List.map_map]
    exact List.map_id texts
  rw [chain, h, List.map_cons, htexts]

@[simp] theorem chain_bind (fault : BindError) : (bind fault).chain = fault.chain :=
  chain_of_causes (.bind fault) fault.causes rfl

@[simp] theorem chain_storage (fault : StorageError) : (storage fault).chain = fault.chain :=
  chain_of_causes (.storage fault) fault.causes rfl

@[simp] theorem chain_training (fault : TrainingError) : (training fault).chain = fault.chain :=
  chain_of_causes (.training fault) fault.causes rfl

@[simp] theorem chain_submission (fault : SubmissionError) :
    (submission fault).chain = fault.chain :=
  chain_of_causes (.submission fault) fault.causes rfl

end Failure

end LayerScript
