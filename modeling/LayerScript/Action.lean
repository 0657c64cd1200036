/-
`Action.lean` -- steps of a run that may fail, and steps that change the disk.

A traced step has noted some events and printed some output by the time it has a result,
or a failure. An action is a traced step on a disk: it leaves a disk behind even when it
fails, so what was written before a failure is not undone, and neither is what was printed.
That a step only looks at the disk is visible from its type: it is traced and no action.
-/
import LayerScript.Event
import LayerScript.Failure

set_option autoImplicit false

namespace LayerScript

/-! ## 1. Traced steps -/

/-- A result, or a failure, together with the events that were noted on the way and what was
printed to the output. -/
structure Traced (α : Type) where
  events : List Event
  output : String
  result : Except Failure α

namespace Traced

variable {α β : Type}

/-- Goes on with a result; a failure ends it. -/
def bind (x : Traced α) (f : α → Traced β) : Traced β :=
  match x.result with
  | .error e => ⟨x.events, x.output, .error e⟩
  | .ok a => ⟨x.events ++ (f a).events, x.output ++ (f a).output, (f a).result⟩

instance : Monad Traced where
  pure a := ⟨[], "", .ok a⟩
  bind := bind

/-- After a failure nothing follows. -/
theorem bind_of_error {x : Traced α} {e : Failure} (h : x.result = .error e)
    (f : α → Traced β) : x >>= f = ⟨x.events, x.output, .error e⟩ := by
  change x.bind f = _
  rw [Traced.bind, h]

/-- After a result its successor follows, and the events and the output of both are kept in
order. -/
theorem bind_of_ok {x : Traced α} {a : α} (h : x.result = .ok a) (f : α → Traced β) :
    x >>= f = ⟨x.events ++ (f a).events, x.output ++ (f a).output, (f a).result⟩ := by
  change x.bind f = _
  rw [Traced.bind, h]

/-- Notes events. -/
def note (events : List Event) : Traced Unit := ⟨events, "", .ok ()⟩

/-- Prints to the output. -/
def print (text : String) : Traced Unit := ⟨[], text, .ok ()⟩

/-- A result without events, where a fault is a failure of this stage. -/
def lift {ε : Type} (failure : ε → Failure) : Except ε α → Traced α
  | .ok a => ⟨[], "", .ok a⟩
  | .error e => ⟨[], "", .error (failure e)⟩

end Traced

/-! ## 2. Actions -/

/-- A step on a disk. -/
abbrev Action (α : Type) := Disk → Disk × Traced α

namespace Action

variable {α β : Type}

/-- Goes on with a result, on the disk that was left. A failure ends it. -/
def bind (x : Action α) (f : α → Action β) : Action β := fun d =>
  match x d with
  | (d, ⟨events, output, .error e⟩) => (d, ⟨events, output, .error e⟩)
  | (d, ⟨events, output, .ok a⟩) =>
    let (d, t) := f a d
    (d, ⟨events ++ t.events, output ++ t.output, t.result⟩)

instance : Monad Action where
  pure a := fun d => (d, ⟨[], "", .ok a⟩)
  bind := bind

/-- After a failure nothing follows, and the disk is left as the failure left it. -/
theorem bind_of_error {x : Action α} {d d' : Disk} {events : List Event} {output : String}
    {e : Failure} (h : x d = (d', ⟨events, output, .error e⟩)) (f : α → Action β) :
    (x >>= f) d = (d', ⟨events, output, .error e⟩) := by
  change x.bind f d = _
  rw [Action.bind, h]

/-- After a result its successor follows on the disk that was left. -/
theorem bind_of_ok {x : Action α} {d d' : Disk} {events : List Event} {output : String} {a : α}
    (h : x d = (d', ⟨events, output, .ok a⟩)) (f : α → Action β) :
    (x >>= f) d = ((f a d').1,
      ⟨events ++ (f a d').2.events, output ++ (f a d').2.output, (f a d').2.result⟩) := by
  change x.bind f d = _
  rw [Action.bind, h]

/-- A step that looks at the disk and leaves it as it is. -/
def observe (f : Disk → Traced α) : Action α := fun d => (d, f d)

/-- Looking changes nothing. -/
@[simp] theorem observe_disk (f : Disk → Traced α) (d : Disk) : (observe f d).1 = d := rfl

/-- A step that changes the disk and may be refused, where a fault is a failure of this
stage. -/
def attempt {ε : Type} (failure : ε → Failure) (f : Disk → Disk × Except ε α) : Action α :=
  fun d =>
    let (d, result) := f d
    (d, .lift failure result)

/-- A step that changes the disk and cannot fail. -/
def change (f : Disk → Disk) : Action Unit := fun d => (f d, ⟨[], "", .ok ()⟩)

/-- Notes an event. -/
def note (e : Event) : Action Unit := observe fun _ => .note [e]

/-- Prints to the output. -/
def print (text : String) : Action Unit := observe fun _ => .print text

end Action

end LayerScript
