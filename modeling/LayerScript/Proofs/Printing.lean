/-
`Proofs/Printing.lean` -- what a run prints, and when.

Any step of a run could print, also one that is followed by a step that fails, and what was
printed stays printed. Here it is shown that none does: a command prints its report, once and
as its last step, so a run that fails has printed nothing (`Host.presents_run`). The steps of
a command are silent (`Action.IsSilent`), a sequence of silent steps is, and behind silent steps
a report that is printed is all that was printed (`Action.Presents.after`). So what a run has
printed by its end depends on its result alone (`Host.printed_answer`).
-/
import LayerScript.Proofs.Results

set_option autoImplicit false

namespace LayerScript

/-! ## 1. Silent steps -/

namespace Traced

variable {α β ε : Type}

/-- Two steps print nothing when neither does. -/
theorem output_bind {x : Traced α} {f : α → Traced β} (hx : x.output = "")
    (hf : ∀ a, (f a).output = "") : (x >>= f).output = "" := by
  cases hresult : x.result with
  | error e =>
      rw [bind_of_error hresult]
      exact hx
  | ok a =>
      rw [bind_of_ok hresult]
      simp [hx, hf a]

theorem output_lift (failure : ε → Failure) (x : Except ε α) : (lift failure x).output = "" := by
  cases x <;> rfl

end Traced

namespace Action

variable {α β ε : Type}

/-- Whether a step prints nothing, whatever it finds on the disk and whether or not it fails. -/
def IsSilent (x : Action α) : Prop :=
  ∀ d, (x d).2.output = ""

theorem isSilent_observe {f : Disk → Traced α} (hf : ∀ d, (f d).output = "") :
    IsSilent (observe f) :=
  hf

theorem isSilent_attempt (failure : ε → Failure) (f : Disk → Disk × Except ε α) :
    IsSilent (attempt failure f) :=
  fun _ => Traced.output_lift failure _

/-- The output of two steps of which the first is silent is that of the second, if it is taken. -/
theorem output_bind {x : Action α} (hx : IsSilent x) (f : α → Action β) (d : Disk) :
    ((x >>= f) d).2.output
      = match (x d).2.result with
        | .error _ => ""
        | .ok a => (f a (x d).1).2.output := by
  have hsilent := hx d
  rcases hrun : x d with ⟨left, events, output, e | a⟩
  · rw [hrun] at hsilent
    rw [bind_of_error hrun]
    exact hsilent
  · rw [hrun] at hsilent
    change output = "" at hsilent
    rw [bind_of_ok hrun, hsilent]
    exact String.empty_append

theorem IsSilent.bind {x : Action α} {f : α → Action β} (hx : IsSilent x)
    (hf : ∀ a, IsSilent (f a)) : IsSilent (x >>= f) := by
  intro d
  rw [output_bind hx]
  cases (x d).2.result with
  | error e => rfl
  | ok a => exact hf a _

/-- Whether a step prints its report when it has one, and otherwise nothing. -/
def Presents (json : Bool) (x : Action Report) : Prop :=
  ∀ d, (x d).2.output
    = match (x d).2.result with
      | .error _ => ""
      | .ok report => report.shown json

theorem presents_print (json : Bool) (r : Report) : Presents json (r.print json) := by
  intro d
  rw [Report.print_eq]

/-- **A report that is printed behind silent steps is all that was printed.** -/
theorem Presents.after {json : Bool} {x : Action α} {f : α → Action Report} (hx : IsSilent x)
    (hf : ∀ a, Presents json (f a)) : Presents json (x >>= f) := by
  intro d
  rw [output_bind hx, result_bind]
  cases (x d).2.result with
  | error e => rfl
  | ok a => exact hf a _

end Action

/-! ## 2. The steps of commands -/

namespace Host

variable (h : Host) (s : Settings) (d : Disk)

theorem output_readSettings (path : String) : (h.readSettings path d).output = "" := by
  refine Traced.output_bind (Traced.output_lift _ _) fun text => ?_
  split
  · rfl
  · exact Traced.output_bind rfl fun _ => rfl

theorem output_loadSettings (named : Option String) : (h.loadSettings named d).output = "" := by
  unfold loadSettings
  split
  · exact h.output_readSettings d _
  · rfl
  · split
    · exact h.output_readSettings d _
    · rfl

theorem output_bind (path : String) (user : Option String) : (h.bind path user d).output = "" :=
  Traced.output_bind (Traced.output_lift _ _) fun _ =>
    Traced.output_bind (Traced.output_lift _ _) fun _ => Traced.output_bind rfl fun _ => rfl

theorem output_prepare (t : Target) : (h.prepare s t d).output = "" := by
  refine Traced.output_bind (h.output_bind d _ _) fun p => ?_
  refine Traced.output_bind ?_ fun _ => rfl
  exact Traced.output_bind rfl fun _ =>
    Traced.output_bind (Traced.output_lift _ _) fun _ => Traced.output_bind rfl fun _ => rfl

theorem output_resolve (payload : String) (policy : Option Policy) :
    (h.resolve s payload policy d).output = "" :=
  Traced.output_bind (h.output_bind d _ _) fun _ =>
    Traced.output_bind rfl fun _ => Traced.output_lift _ _

theorem output_send (payload : String) (user address : Option String) :
    (h.send s payload user address d).output = "" :=
  Traced.output_bind (h.output_bind d _ _) fun _ =>
    Traced.output_bind (Traced.output_lift _ _) fun _ =>
      Traced.output_bind rfl fun _ => Traced.output_bind (Traced.output_lift _ _) fun _ => rfl

/-- Writing the files of a target prints nothing, also when not all of them can be written. -/
theorem isSilent_compile (t : Target) (outDir : String) :
    Action.IsSilent (h.compile s t outDir) := by
  refine (Action.isSilent_observe fun d => h.output_prepare s d t).bind ?_
  rintro ⟨p, c⟩
  refine (Action.isSilent_attempt _ _).bind fun artifacts => ?_
  -- What remains is to note an event and to put one on record.
  exact Action.IsSilent.bind (fun _ => rfl) fun _ =>
    Action.IsSilent.bind (fun _ => rfl) fun _ _ => rfl

/-- Running the training script prints nothing; the output of the program is kept. -/
theorem isSilent_runTraining (interpreter outDir user : String) :
    Action.IsSilent (h.runTraining interpreter outDir user) :=
  Action.IsSilent.bind (fun _ => rfl) fun _ => Action.isSilent_attempt _ _

/-! ## 3. Commands -/

/-- **Every command prints its report and nothing before it.** -/
theorem presents_perform (json : Bool) (command : Command) :
    Action.Presents json (h.perform json s command) := by
  cases command with
  | compile t outDir =>
      exact .after (h.isSilent_compile s t _) fun report => Action.presents_print _ _
  | train t outDir interpreter =>
      refine .after (h.isSilent_compile s t _) fun report => ?_
      exact .after (h.isSilent_runTraining _ _ _) fun run => Action.presents_print _ _
  | emit t name =>
      refine .after (Action.isSilent_observe fun d => h.output_prepare s d t) ?_
      exact fun _ => Action.presents_print _ _
  | order payload policy =>
      refine .after (Action.isSilent_observe fun d => h.output_resolve s d payload policy) ?_
      exact fun _ => Action.presents_print _ _
  | trainBody payload user =>
      refine .after (Action.isSilent_observe fun d => h.output_bind d payload user) ?_
      exact fun _ => Action.presents_print _ _
  | submit payload user address =>
      refine .after (Action.isSilent_observe fun d => h.output_send s d payload user address) ?_
      rintro ⟨p, report⟩
      exact .after (fun _ => rfl) fun _ => Action.presents_print _ _
  | layers => exact Action.presents_print _ _

/-- **A run prints its report, or nothing.** -/
theorem presents_run (i : Invocation) : Action.Presents i.json (h.run i) :=
  .after (Action.isSilent_observe fun d => h.output_loadSettings d i.settings) fun s =>
    h.presents_perform s i.json i.command

end Host

/-! ## 4. The end of a run -/

/-- What is printed when a run has this result: its report, or its failure. -/
def Printed.ofResult (json : Bool) : Except Failure Report → Printed
  | .ok report => ⟨0, report.shown json, ""⟩
  | .error failure =>
    if json then ⟨1, unlines [failure.envelope.pretty], ""⟩
    else ⟨1, "", unlines ["error: " ++ failure.chain]⟩

/-- **What a run has printed by its end depends on its result alone.** -/
theorem Host.printed_answer (h : Host) (i : Invocation) (d : Disk) :
    (h.answer i d).printed = .ofResult i.json (h.run i d).2.result := by
  have houtput := h.presents_run i d
  change Printed.ofEnd i.json (h.run i d).2.output (h.run i d).2.result = _
  rw [houtput]
  cases (h.run i d).2.result with
  | error e => rw [Printed.ofEnd, Printed.ofResult, String.empty_append]
  | ok report => rfl

end LayerScript
