/-
`Graph/Support.lean` -- which modules of a network can be written at all.

A module can be written when data reaches it from the root and the layer it is
applied to can be written too. The second condition is not implied by the first:
an `output` edge can reach a module whose own `input` lies on an island. Leaving
such a module out may cut off others, so the walk is repeated without it until
nothing changes; what is left is the largest set of modules that support one
another.

The walk is written on lists of candidates instead of marks: a candidate that is
reached moves from the candidates into the queue, so together they only shrink.
-/
import LayerScript.Graph.Wiring

set_option autoImplicit false

namespace LayerScript

/-- A test divides a list: what passes and what fails make up its length. -/
theorem length_filter_add_length_filter_not {α : Type} (p : α → Bool) (l : List α) :
    (l.filter p).length + (l.filter fun a => !p a).length = l.length := by
  induction l with
  | nil => rfl
  | cons a l ih => by_cases h : p a <;> simp [h] <;> omega

namespace Wiring

variable {n : Nat}

/-! ## 1. The walk -/

/-- The candidates that a module has an edge to. -/
def hits (w : Wiring n) (u : Fin n) (candidates : List (Fin n)) : List (Fin n) :=
  candidates.filter fun v => w.edge u v

/-- The candidates that a module has no edge to. -/
def misses (w : Wiring n) (u : Fin n) (candidates : List (Fin n)) : List (Fin n) :=
  candidates.filter fun v => !w.edge u v

/-- A module divides the candidates. -/
theorem length_hits_add_length_misses (w : Wiring n) (u : Fin n) (candidates : List (Fin n)) :
    (w.hits u candidates).length + (w.misses u candidates).length = candidates.length :=
  length_filter_add_length_filter_not _ candidates

/-- Takes the modules in the queue one by one, moves every candidate that one of them
has an edge to into the queue, and returns the candidates that were never reached. -/
def sweep (w : Wiring n) (queue candidates : List (Fin n)) : List (Fin n) :=
  match queue with
  | [] => candidates
  | u :: rest => w.sweep (rest ++ w.hits u candidates) (w.misses u candidates)
termination_by queue.length + candidates.length
decreasing_by
  have h := w.length_hits_add_length_misses u candidates
  simp only [List.length_append, List.length_cons]
  omega

/-- The candidates that are reached from the root through candidates. -/
def connected (w : Wiring n) (candidates : List (Fin n)) : List (Fin n) :=
  let missed := w.sweep [w.root] candidates
  candidates.filter (· ∉ missed)

/-! ## 2. Repeating it -/

/-- The members of a set that are applied to a module outside of it; the root counts
as inside. -/
def orphans (w : Wiring n) (kept : List (Fin n)) : List (Fin n) :=
  kept.filter fun v =>
    match w.producer v with
    | none => false
    | some p => p ≠ w.root && p ∉ kept

/-- One round: the candidates without the orphans among those that are reached, or
nothing when there are no such orphans. -/
def round (w : Wiring n) (candidates : List (Fin n)) : Option (List (Fin n)) :=
  match w.orphans (w.connected candidates) with
  | [] => none
  | orphans => some (candidates.filter (· ∉ orphans))

/-- A round that does not end the search removes a candidate. -/
theorem length_lt_of_round {w : Wiring n} {candidates fewer : List (Fin n)}
    (h : w.round candidates = some fewer) : fewer.length < candidates.length := by
  unfold round at h
  split at h
  · cases h
  · rename_i found notEmpty
    cases h
    obtain ⟨v, hv⟩ := List.exists_mem_of_ne_nil _ notEmpty
    have hc : v ∈ candidates := by
      have := (List.mem_filter.mp hv).1
      exact (List.mem_filter.mp this).1
    refine Nat.lt_of_le_of_ne (List.length_filter_le _ _) fun heq => ?_
    have all := List.length_filter_eq_length_iff.mp heq v hc
    simp [hv] at all

/-- Rounds until none of the modules reached is an orphan. -/
def settled (w : Wiring n) (candidates : List (Fin n)) : List (Fin n) :=
  match _h : w.round candidates with
  | none => w.connected candidates
  | some fewer => w.settled fewer
termination_by candidates.length
decreasing_by exact length_lt_of_round _h

/-- The modules other than the root. -/
def others (w : Wiring n) : List (Fin n) :=
  (List.finRange n).filter (· ≠ w.root)

/-- The modules that can be written, the root among them, in the order of declaration. -/
def supported (w : Wiring n) : List (Fin n) :=
  let kept := w.settled w.others
  (List.finRange n).filter fun v => v = w.root || v ∈ kept

/-- The modules that cannot be written, in the order of declaration. -/
def unsupported (w : Wiring n) : List (Fin n) :=
  let members := w.supported
  (List.finRange n).filter (· ∉ members)

end Wiring

end LayerScript
