/-
`Event.lean` -- what a run notes on the way.

Events are for whoever watches a run; they never change what it does. Each has a
level, and its line names the level, what happened and the values that belong to
it. Lists of names, the name of a program and an address are shown between quotes, all
other values as they are.
-/
import LayerScript.Graph.Emission

set_option autoImplicit false

namespace LayerScript

/-- How much an event matters. -/
inductive Level where
  | debug
  | info
  | warn
deriving DecidableEq, Repr

/-- The name of a level. -/
def Level.name : Level → String
  | .debug => "DEBUG"
  | .info => "INFO"
  | .warn => "WARN"

/-- Something that happened during a run. -/
inductive Event where
  | loadedSettings (path : String)
  | boundProject (user : String) (layers : Nat)
  /-- Layers were left out, which is worth a warning under one of the policies. -/
  | dropped (policy : Policy) (layers : List String)
  | resolved (root : String) (order : List String)
  | compiled (user : String) (layers leftOut : Nat)
  | wroteArtifacts (directory : String)
  | startingTraining (interpreter argument : String)
  | submitted (address : String) (status : Nat) (user : String)
deriving DecidableEq, Repr

namespace Event

/-- The level of an event. -/
def level : Event → Level
  | .loadedSettings _ => .debug
  | .boundProject .. => .debug
  | .dropped policy _ => if policy = .warn then .warn else .debug
  | .resolved .. => .debug
  | .compiled .. => .info
  | .wroteArtifacts _ => .info
  | .startingTraining .. => .info
  | .submitted .. => .info

/-- What happened, with the values that belong to it. -/
def message : Event → String
  | .loadedSettings path => "loaded settings path=" ++ path
  | .boundProject user layers =>
    "bound project user=" ++ user ++ " layers=" ++ toString layers
  | .dropped policy layers =>
    (if policy = .warn then "layers not connected to the input were dropped"
      else "dropping unreachable layers") ++ " dropped=" ++ Text.quotedList layers
  | .resolved root order =>
    "resolved emission order root=" ++ root ++ " order=" ++ Text.quotedList order
  | .compiled user layers leftOut =>
    "compiled project user=" ++ user ++ " layers=" ++ toString layers
      ++ " dropped=" ++ toString leftOut
  | .wroteArtifacts directory => "wrote artifacts dir=" ++ directory
  | .startingTraining interpreter argument =>
    "starting training script python=" ++ Text.quoted interpreter ++ " script=" ++ argument
  | .submitted address status user =>
    "submitted training request url=" ++ Text.quoted address ++ " status=" ++ toString status
      ++ " user=" ++ user

/-- The line of an event. -/
def line (e : Event) : String :=
  e.level.name ++ " " ++ e.message

end Event

end LayerScript
