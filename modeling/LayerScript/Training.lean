/-
`Training.lean` -- running the training script.

A program is started in the directory that holds the directories of the requests,
with the path of the script as its one argument. What becomes of it is for the program to say
(`Programs`). One whose name has a NUL in it is refused before anything is started.
-/
import LayerScript.Programs
import LayerScript.Script.Train

set_option autoImplicit false

namespace LayerScript

/-! ## 1. Faults -/

/-- Why a program was not started. -/
inductive LaunchFault where
  | disk (fault : DiskFault)
  | nulInCommand
  | refused (fault : StartFault)
deriving DecidableEq, Repr

/-- The text of a fault. -/
def LaunchFault.message : LaunchFault → String
  | .disk fault => fault.message
  | .nulInCommand => "nul byte found in provided data"
  | .refused fault => fault.text

/-- Why training did not succeed. -/
inductive TrainingError where
  | notStarted (program : String) (fault : LaunchFault)
  | failed (run : Finished)
deriving DecidableEq, Repr

namespace TrainingError

/-- The text of a fault. -/
def message : TrainingError → String
  | .notStarted program fault => "failed to spawn " ++ program ++ ": " ++ fault.message
  | .failed run => "training script exited with " ++ run.ending.text ++ ": " ++ run.errors

/-- The texts of the faults that a fault was caused by. -/
def causes : TrainingError → List String
  | .notStarted _ fault => [fault.message]
  | .failed _ => []

/-- The text of a fault, followed by those of the faults it was caused by. -/
def chain (e : TrainingError) : String :=
  ": ".intercalate (e.message :: e.causes)

end TrainingError

/-! ## 2. Training -/

/-- The path of the training script of a user, from the directory that it is started in. -/
def trainingArgument (user : String) : String :=
  Path.join user ScriptName.train.file

/-- Runs the training script of a user. It went well when it ended by itself with status zero. -/
def train (programs : Programs) (workingDirectory : Location) (program outDir user : String)
    (d : Disk) : Disk × Except TrainingError Finished :=
  if program.toList.contains '\x00' then (d, .error (.notStarted program .nulInCommand))
  else
    match d.enter workingDirectory outDir with
    | .error fault => (d, .error (.notStarted program (.disk fault)))
    | .ok directory =>
      match programs.start ⟨program, trainingArgument user, directory⟩ d with
      | (d, .error fault) => (d, .error (.notStarted program (.refused fault)))
      | (d, .ok run) => (d, if run.ending = .exited 0 then .ok run else .error (.failed run))

end LayerScript
