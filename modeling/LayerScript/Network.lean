/-
`Network.lean` -- a network: its modules and the layers at its two ends.

Resolving a network gives the order in which its layers are written. Several
things can stand in the way, and the first of these is reported: the modules
cannot be wired, an end names no layer, the layers cannot be put in order, or an
end names a layer that was left out. The last is a fault under every policy,
since a model cannot begin or end at a layer that is not there.
-/
import LayerScript.Graph.Emission

set_option autoImplicit false

namespace LayerScript

/-- A network with the names of the layers at its ends. -/
structure Network where
  input : String
  output : String
  modules : List Module
deriving DecidableEq, Repr

namespace Network

/-- Decodes a network. -/
def ofValue (v : Value) : Except Fault Network := do
  let r ← Record.ofValue "Content" ["input", "output", "layers"] v
  let input := r.slot "input" Decode.text
  let output := r.slot "output" Decode.text
  let modules := r.slot "layers" (Decode.list Module.ofValue)
  r.settle [input.fault, output.fault, modules.fault]
  let c : Network := {
    input := ← input.required r
    output := ← output.required r
    modules := ← modules.required r
  }
  r.close .json
  .ok c

/-- Whether a name belongs to one of the modules. -/
def declares (c : Network) (name : String) : Bool :=
  c.modules.any fun m => m.name == name

/-- The first end that names no module. -/
def unknownEndpoint (c : Network) : Option GraphError :=
  if !c.declares c.input then some (.unknownEndpoint .input c.input)
  else if !c.declares c.output then some (.unknownEndpoint .output c.output)
  else none

/-- The ends that were left out of an order. -/
def droppedEndpoints (c : Network) (order : Order) : List String :=
  [c.input, c.output].filter (· ∈ order.dropped)

/-- The order of the modules, before it is known whether both ends are in it. -/
def order (c : Network) (policy : Policy) : Except GraphError Order :=
  match Wiring.ofModules c.modules with
  | .error fault => .error fault
  | .ok wiring =>
    match c.unknownEndpoint with
    | some fault => .error fault
    | none => wiring.order c.modules policy

/-- The order in which the layers of a network are written. -/
def resolve (c : Network) (policy : Policy) : Except GraphError Order :=
  match c.order policy with
  | .error fault => .error fault
  | .ok order =>
    match c.droppedEndpoints order with
    | [] => .ok order
    | missing => .error (.unreachable missing)

end Network

end LayerScript
