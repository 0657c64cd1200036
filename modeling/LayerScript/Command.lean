/-
`Command.lean` -- what the program can be asked to do.

Four commands work on a target: a payload, the user it is for, and what to do
about layers that are not connected to the input. Every option may be left out,
and the settings or a default then decide.
-/
import LayerScript.Project

set_option autoImplicit false

namespace LayerScript

/-- What a command works on. The payload is named by its path; a single dash names the
standard input. -/
structure Target where
  payload : String
  user : Option String
  unreachable : Option Policy
deriving DecidableEq, Repr

/-- Something the program can be asked to do. -/
inductive Command where
  /-- Writes the files of a request. -/
  | compile (target : Target) (outDir : Option String)
  /-- Writes the files of a request and runs the training script. -/
  | train (target : Target) (outDir interpreter : Option String)
  /-- Shows one of the scripts. -/
  | emit (target : Target) (script : ScriptName)
  /-- Shows the order of the layers. -/
  | order (payload : String) (unreachable : Option Policy)
  /-- Shows what a remote trainer would be sent. -/
  | trainBody (payload : String) (user : Option String)
  /-- Sends a request to a remote trainer. -/
  | submit (payload : String) (user address : Option String)
  /-- Shows the kinds of layers. -/
  | layers
deriving DecidableEq, Repr

namespace Command

/-- The path of the payload that a command works on. -/
def payload? : Command → Option String
  | .compile t _ => some t.payload
  | .train t _ _ => some t.payload
  | .emit t _ => some t.payload
  | .order payload _ => some payload
  | .trainBody payload _ => some payload
  | .submit payload _ _ => some payload
  | .layers => none

/-- The target whose files a command writes, and the directory it was told to write to. -/
def written? : Command → Option (Target × Option String)
  | .compile t outDir => some (t, outDir)
  | .train t outDir _ => some (t, outDir)
  | _ => none

/-- Whether a command sends a request. -/
def sends : Command → Bool
  | .submit .. => true
  | _ => false

end Command

/-- A command, and what holds whichever command it is: whether to answer in JSON, and
which settings file to read. -/
structure Invocation where
  json : Bool
  settings : Option String
  command : Command
deriving DecidableEq, Repr

end LayerScript
