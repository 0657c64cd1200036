/-
`Proofs/Steps.lean` -- the result of a sequence of steps.

A step can fail, it can note events and print, and it can change the disk. For each of the
three kinds one lemma says what becomes of two steps in a row: the second is taken when the
first has a result, and a failure of either is a failure of both. Everything that is proved of
a longer sequence is read off these, a step at a time, without looking at how steps are
represented.
-/
import LayerScript.Action

set_option autoImplicit false

namespace LayerScript

/-! ## 1. Steps that can fail -/

/-- Two steps succeed when the first does, and the second does with what it gave. -/
theorem bind_eq_ok_iff {ε α β : Type} {x : Except ε α} {f : α → Except ε β} {b : β} :
    (x >>= f) = .ok b ↔ ∃ a, x = .ok a ∧ f a = .ok b := by
  cases x with
  | error e => simp [bind, Except.bind]
  | ok a => simp [bind, Except.bind]

/-- Naming a fault differently does not make a step succeed. -/
theorem mapError_eq_ok_iff {ε ε' α : Type} {x : Except ε α} {f : ε → ε'} {a : α} :
    x.mapError f = .ok a ↔ x = .ok a := by
  cases x with
  | error e =>
      constructor
      · intro h
        cases h
      · intro h
        cases h
  | ok b =>
      constructor
      · intro h
        cases h
        rfl
      · intro h
        cases h
        rfl

/-- Two steps fail when the first does, or the second does with what the first gave. -/
theorem bind_eq_error_iff {ε α β : Type} {x : Except ε α} {f : α → Except ε β} {e : ε} :
    (x >>= f) = .error e ↔ x = .error e ∨ ∃ a, x = .ok a ∧ f a = .error e := by
  cases x with
  | error e' => simp [bind, Except.bind]
  | ok a => simp [bind, Except.bind]

/-- A fault that was named differently was a fault before. -/
theorem mapError_eq_error_iff {ε ε' α : Type} {x : Except ε α} {f : ε → ε'} {e : ε'} :
    x.mapError f = .error e ↔ ∃ e', x = .error e' ∧ f e' = e := by
  cases x with
  | error e' =>
      change Except.error (f e') = Except.error e ↔ _
      simp
  | ok a =>
      change Except.ok a = Except.error e ↔ _
      simp

/-- A fault ends a sequence of steps, under the name that the first step gives it. -/
theorem mapError_bind_of_error {ε ε' α β : Type} {x : Except ε α} {fault : ε}
    (h : x = .error fault) (f : ε → ε') (next : α → Except ε' β) :
    (x.mapError f >>= next) = .error (f fault) :=
  bind_eq_error_iff.mpr (Or.inl (mapError_eq_error_iff.mpr ⟨fault, h, rfl⟩))

/-- Going on with a result that is computed from another does not make a step succeed. -/
theorem map_eq_ok_iff {ε α β : Type} {f : α → β} {x : Except ε α} {b : β} :
    f <$> x = .ok b ↔ ∃ a, x = .ok a ∧ f a = b := by
  cases x <;> simp [Functor.map, Except.map]

/-- Nor does it change how the step fails. -/
theorem map_eq_error_iff {ε α β : Type} {f : α → β} {x : Except ε α} {e : ε} :
    f <$> x = .error e ↔ x = .error e := by
  cases x <;> simp [Functor.map, Except.map]

/-- A step has a result when one is left of it. -/
theorem toOption_eq_some_iff {ε α : Type} {x : Except ε α} {a : α} :
    x.toOption = some a ↔ x = .ok a := by
  cases x <;> simp [Except.toOption]

/-! ## 2. Steps that note events -/

namespace Traced

variable {α β ε : Type}

/-- The result of two steps, whatever they noted and printed. -/
@[simp] theorem result_bind (x : Traced α) (f : α → Traced β) :
    (x >>= f).result = x.result >>= fun a => (f a).result := by
  cases hx : x.result with
  | error e =>
      rw [bind_of_error hx]
      rfl
  | ok a =>
      rw [bind_of_ok hx]
      rfl

@[simp] theorem result_pure (a : α) : (pure a : Traced α).result = .ok a := rfl

@[simp] theorem result_note (events : List Event) : (note events).result = .ok () := rfl

@[simp] theorem result_lift (failure : ε → Failure) (x : Except ε α) :
    (lift failure x).result = x.mapError failure := by
  cases x <;> rfl

end Traced

/-! ## 3. Steps on a disk -/

namespace Action

variable {α β ε : Type} {d : Disk}

/-- The result of two steps on a disk, the second on what the first left. -/
@[simp] theorem result_bind (x : Action α) (f : α → Action β) :
    ((x >>= f) d).2.result = (x d).2.result >>= fun a => (f a (x d).1).2.result := by
  rcases hx : x d with ⟨left, events, output, _ | a⟩
  · rw [bind_of_error hx]
    rfl
  · rw [bind_of_ok hx]
    rfl

/-- After a result the disk is left as the successor leaves it. -/
theorem disk_bind_of_ok {x : Action α} {a : α} (h : (x d).2.result = .ok a) (f : α → Action β) :
    ((x >>= f) d).1 = (f a (x d).1).1 := by
  rcases hx : x d with ⟨left, events, output, result⟩
  rw [hx] at h
  change result = .ok a at h
  rw [h] at hx
  rw [bind_of_ok hx]

/-- After a failure nothing is done, and the disk is left as the failure left it. -/
theorem bind_of_result_error {x : Action α} {e : Failure} (h : (x d).2.result = .error e)
    (f : α → Action β) :
    (x >>= f) d = ((x d).1, ⟨(x d).2.events, (x d).2.output, .error e⟩) := by
  rcases hx : x d with ⟨left, events, output, result⟩
  rw [hx] at h
  change result = .error e at h
  rw [h] at hx
  rw [bind_of_error hx]

@[simp] theorem result_attempt (failure : ε → Failure) (f : Disk → Disk × Except ε α) :
    (attempt failure f d).2.result = (f d).2.mapError failure :=
  Traced.result_lift _ _

end Action

end LayerScript
