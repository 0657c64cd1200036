/-
`Graph/Wiring.lean` -- the edges between the modules of a network.

Two fields of a declaration draw edges: `input` names the layer a module is
applied to and draws an edge from it, `output` names a layer it feeds and draws an
edge to it. Here the names are resolved to positions in the list of declarations,
once, so that everything after works on positions and an edge drawn through both
fields is the same edge.

What can be wrong is reported in a fixed order: a name declared twice, then the
number of input layers, then the first declaration that names an unknown layer,
its `input` before its `output`.
-/
import LayerScript.Module

set_option autoImplicit false

namespace LayerScript

/-! ## 1. Faults of a network -/

/-- The two ends of a network as a whole. -/
inductive Endpoint where
  | input
  | output
deriving DecidableEq, Repr

/-- The name of an end. -/
def Endpoint.name : Endpoint → String
  | .input => "input"
  | .output => "output"

/-- Why a network cannot be put in order. -/
inductive GraphError where
  | missingInput
  | multipleInputs (layers : List String)
  | duplicateName (layer : String)
  | danglingInput (layer input : String)
  | danglingOutput (layer output : String)
  | unknownEndpoint (endpoint : Endpoint) (name : String)
  | cycle (layers : List String)
  | unreachable (layers : List String)
deriving DecidableEq, Repr

/-- The text of a fault. -/
def GraphError.message : GraphError → String
  | .missingInput => "no layer of type Input"
  | .multipleInputs layers => "more than one layer of type Input: " ++ ", ".intercalate layers
  | .duplicateName layer => "duplicate layer name " ++ backquoted layer
  | .danglingInput layer input =>
    "layer " ++ backquoted layer ++ " reads from unknown layer " ++ backquoted input
  | .danglingOutput layer output =>
    "layer " ++ backquoted layer ++ " feeds unknown layer " ++ backquoted output
  | .unknownEndpoint endpoint name =>
    "graph " ++ endpoint.name ++ " " ++ backquoted name ++ " does not name a layer"
  | .cycle layers => "dependency cycle through: " ++ ", ".intercalate layers
  | .unreachable layers => "layers not connected to the input: " ++ ", ".intercalate layers

/-! ## 2. Edges between positions -/

/-- The wiring of `n` modules: the one where data enters, and for each the module it
is applied to and the module it feeds. -/
structure Wiring (n : Nat) where
  root : Fin n
  producers : Vector (Option (Fin n)) n
  consumers : Vector (Option (Fin n)) n

namespace Wiring

variable {n : Nat}

/-- The module that a module is applied to. -/
def producer (w : Wiring n) (v : Fin n) : Option (Fin n) := w.producers[v]

/-- The module that a module feeds. -/
def consumer (w : Wiring n) (u : Fin n) : Option (Fin n) := w.consumers[u]

/-- Whether there is an edge from `u` to `v`, drawn by either of them. -/
def edge (w : Wiring n) (u v : Fin n) : Bool :=
  w.producer v == some u || w.consumer u == some v

/-- The modules that a module has an edge to, in the order of declaration. -/
def successors (w : Wiring n) (u : Fin n) : List (Fin n) :=
  (List.finRange n).filter (w.edge u)

end Wiring

/-! ## 3. Resolving names -/

/-- The first name that occurred before, given the names seen so far. -/
def firstRepeated : List String → List String → Option String
  | _, [] => none
  | seen, name :: rest => if name ∈ seen then some name else firstRepeated (name :: seen) rest

/-- The position of the module with a name. -/
def position? (modules : List Module) (name : String) : Option (Fin modules.length) :=
  modules.findFinIdx? fun m => m.name == name

/-- The reference of a module to a layer that is not among the names, if it has one. -/
def danglingReference (names : List String) (m : Module) : Option GraphError :=
  match m.input.filter (· ∉ names) with
  | some input => some (.danglingInput m.name input)
  | none =>
    match m.output.filter (· ∉ names) with
    | some output => some (.danglingOutput m.name output)
    | none => none

/-- The positions of the modules where data enters. -/
def inputPositions (modules : List Module) : List (Fin modules.length) :=
  (List.finRange modules.length).filter fun i => (modules.get i).isInput

/-- Resolves the names of a list of modules. -/
def Wiring.ofModules (modules : List Module) : Except GraphError (Wiring modules.length) :=
  let names := modules.map (·.name)
  match firstRepeated [] names with
  | some name => .error (.duplicateName name)
  | none =>
    match inputPositions modules with
    | [] => .error .missingInput
    | [root] =>
      match modules.findSome? (danglingReference names) with
      | some fault => .error fault
      | none =>
        .ok {
          root := root
          producers := .ofFn fun i => (modules.get i).input.bind (position? modules)
          consumers := .ofFn fun i => (modules.get i).output.bind (position? modules)
        }
    | several => .error (.multipleInputs (several.map fun i => (modules.get i).name))

end LayerScript
