/-
`Graph/Emission.lean` -- the order in which the modules of a network are written.

Every module is written after all the modules that have an edge to it. Starting
with the root, the first module in the queue is written, and each module that has
now seen the last of its predecessors joins the queue, in the order of
declaration. So branches come out side by side, and the result does not depend on
where in the list the modules of another branch stand.

The state keeps the modules that are not yet in the queue with the number of
predecessors that are still to be written. What waits when the queue is empty
waits for a cycle.
-/
import LayerScript.Graph.Support

set_option autoImplicit false

namespace LayerScript

/-! ## 1. The loop -/

/-- A moment of the loop: what has been written, what will be written next, and what
waits for how many predecessors. -/
structure Emission (n : Nat) where
  written : List (Fin n)
  queue : List (Fin n)
  waiting : List (Fin n × Nat)
deriving DecidableEq, Repr

namespace Emission

variable {n : Nat}

/-- The waiting modules after `u` was written: its successors wait for one less. -/
def countDown (w : Wiring n) (u : Fin n) (waiting : List (Fin n × Nat)) : List (Fin n × Nat) :=
  waiting.map fun (v, pending) => (v, if w.edge u v then pending - 1 else pending)

/-- Whether a module waits for nothing any more. -/
def isReady (entry : Fin n × Nat) : Bool := entry.2 == 0

/-- Writes the module `u` that was taken from the front of the queue. -/
def write (w : Wiring n) (u : Fin n) (rest : List (Fin n)) (s : Emission n) : Emission n :=
  let waiting := countDown w u s.waiting
  {
    written := s.written ++ [u]
    queue := rest ++ (waiting.filter isReady).map (·.1)
    waiting := waiting.filter fun entry => !isReady entry
  }

/-- One step: the state after the front of the queue was written, if there is one. -/
def step (w : Wiring n) (s : Emission n) : Option (Emission n) :=
  match s.queue with
  | [] => none
  | u :: rest => some (s.write w u rest)

/-- What is still to be written, queued or waiting. -/
def size (s : Emission n) : Nat := s.queue.length + s.waiting.length

/-- A step writes one module and loses none. -/
theorem size_of_step {w : Wiring n} {s t : Emission n} (h : s.step w = some t) :
    s.size = t.size + 1 := by
  unfold step at h
  split at h
  · cases h
  · rename_i u rest queue
    cases h
    have split := length_filter_add_length_filter_not isReady (countDown w u s.waiting)
    have same : (countDown w u s.waiting).length = s.waiting.length := by simp [countDown]
    simp only [size, write, queue, List.length_cons, List.length_append, List.length_map]
    omega

/-- Steps until the queue is empty. -/
def run (w : Wiring n) (s : Emission n) : Emission n :=
  match _h : s.step w with
  | none => s
  | some t => t.run w
termination_by s.size
decreasing_by have := size_of_step _h; omega

/-- The state before the first step: the root is in the queue, every other member waits
for all the members that have an edge to it. -/
def start (w : Wiring n) (members : List (Fin n)) : Emission n where
  written := []
  queue := [w.root]
  waiting := (members.filter (· ≠ w.root)).map fun v =>
    (v, (members.filter fun u => w.edge u v).length)

end Emission

/-- The members of the largest supported set in the order they are written, or those
that a cycle keeps from being written. Nothing may feed the root, and the first
module that does is named alone. -/
def Wiring.schedule {n : Nat} (w : Wiring n) : Except (List (Fin n)) (List (Fin n)) :=
  let members := w.supported
  match members.find? fun u => w.edge u w.root with
  | some u => .error [u]
  | none =>
    let final := (Emission.start w members).run w
    match final.waiting with
    | [] => .ok final.written
    | stuck => .error (stuck.map (·.1))

/-! ## 2. Policies -/

/-- What to do about modules that are not connected to the input. -/
inductive Policy where
  | drop
  | warn
  | error
deriving DecidableEq, Repr

namespace Policy

/-- The name of a policy. -/
def name : Policy → String
  | .drop => "drop"
  | .warn => "warn"
  | .error => "error"

/-- The policies by name. -/
def byName : List (String × Policy) :=
  [(drop.name, drop), (warn.name, warn), (error.name, error)]

end Policy

/-! ## 3. Orders -/

/-- The modules of a network in the order they are written, and the names of those
that are left out, in the order of declaration. -/
structure Order where
  modules : List Module
  dropped : List String
deriving DecidableEq, Repr

/-- The names of the modules in the order they are written. -/
def Order.names (o : Order) : List String :=
  o.modules.map (·.name)

/-- Puts the modules of a resolved network in order. Leaving modules out is a fault
only under the strictest policy. -/
def Wiring.order (modules : List Module) (w : Wiring modules.length) (policy : Policy) :
    Except GraphError Order :=
  match w.schedule with
  | .error stuck => .error (.cycle (stuck.map fun i => (modules.get i).name))
  | .ok written =>
    let dropped := w.unsupported.map fun i => (modules.get i).name
    if policy = .error ∧ dropped.isEmpty = false then .error (.unreachable dropped)
    else .ok ⟨written.map modules.get, dropped⟩

end LayerScript
