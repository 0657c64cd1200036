/-
`Proofs/Failures.lean` -- a run that fails early leaves nothing behind.

A run that writes does so at its end: settings, payload, order and scripts are all there before
the first directory is made. So a failure whose code belongs to one of those stages is a failure
of a step that only looks (`Host.prepare_of_compile_error`), and then the disk is the very disk
that the run found, not only one that looks the same. That no program was started cannot be seen
on a disk. It is said by letting programs fare differently: a run that comes out the same
whatever a started program would do has started none (`Host.LeavesNothing.unstarted`).

The other commands look and do nothing else, except that a request for remote training is put on
record once it was answered.
-/
import LayerScript.Proofs.Results

set_option autoImplicit false

namespace LayerScript

/-! ## 1. Leaving nothing -/

/-- The codes of the stages that come before anything is written. -/
def earlyCodes : List String :=
  ["INTERNAL", "BIND_ERROR", "GRAPH_ERROR", "UNSUPPORTED_TYPE"]

namespace Host

/-- A host on which programs that are started fare differently. -/
def withStart (h : Host) (start : Launch → Disk → Disk × Except StartFault Finished) : Host :=
  { h with programs := { h.programs with start := start } }

/-- Whether a run leaves nothing behind. -/
structure LeavesNothing (h : Host) (i : Invocation) (d : Disk) : Prop where
  /-- The disk is the one that the run found. -/
  disk : (h.answer i d).disk = d
  /-- No program was started, so it does not matter what one would have done. -/
  unstarted : ∀ start, (h.withStart start).answer i d = h.answer i d

/-- Whether nothing should be left of a run: it only looks, or it fails, and where its command
writes it fails at a stage before that. -/
def EndsEarly (h : Host) (i : Invocation) (d : Disk) : Prop :=
  match i.command with
  | .compile .. | .train .. => ∃ e, (h.run i d).2.result = .error e ∧ e.code ∈ earlyCodes
  | .submit .. => ∃ e, (h.run i d).2.result = .error e
  | .emit .. | .order .. | .trainBody .. | .layers => True

/-! ## 2. Commands that write -/

variable {h : Host} {s : Settings} {t : Target} {d : Disk} {e : Failure} {json : Bool}

/-- **A target that fails early was not prepared**: what comes after has codes of its own. -/
theorem prepare_of_compile_error {outDir : String}
    (he : (h.compile s t outDir d).2.result = .error e) (hcode : e.code ∈ earlyCodes) :
    (h.prepare s t d).result = .error e := by
  rw [result_compile] at he
  rcases bind_eq_error_iff.mp he with hprepare | ⟨⟨p, c⟩, -, hwrite⟩
  · exact hprepare
  · rcases bind_eq_error_iff.mp hwrite with hstorage | ⟨artifacts, -, hrest⟩
    · obtain ⟨fault, -, rfl⟩ := mapError_eq_error_iff.mp hstorage
      exact absurd hcode (by change "PERSISTENCE_ERROR" ∉ earlyCodes; decide)
    · cases hrest

/-- What is not prepared is not written. -/
theorem disk_compile_of_error {outDir : String}
    (he : (h.compile s t outDir d).2.result = .error e) (hcode : e.code ∈ earlyCodes) :
    (h.compile s t outDir d).1 = d := by
  have hprepare : (Action.observe (h.prepare s t) d).2.result = .error e :=
    prepare_of_compile_error he hcode
  rw [compile, Action.bind_of_result_error hprepare, Action.observe_disk]

/-- A training run that fails early was not written: training that did not succeed has a code of
its own. -/
theorem compile_of_train_error {outDir interpreter : Option String}
    (he : (h.perform json s (.train t outDir interpreter) d).2.result = .error e)
    (hcode : e.code ∈ earlyCodes) :
    (h.compile s t (outDir.getD s.outDir) d).2.result = .error e := by
  rw [result_perform_train] at he
  rcases bind_eq_error_iff.mp he with hcompile | ⟨report, -, hrun⟩
  · exact hcompile
  · rcases bind_eq_error_iff.mp hrun with htraining | ⟨finished, -, hrest⟩
    · obtain ⟨fault, -, rfl⟩ := mapError_eq_error_iff.mp htraining
      exact absurd hcode (by change "PROCESS_ERROR" ∉ earlyCodes; decide)
    · cases hrest

/-! ## 3. Every command -/

/-- A request that came to nothing was not put on record. -/
theorem send_of_submit_error {payload : String} {named address : Option String}
    (he : (h.perform json s (.submit payload named address) d).2.result = .error e) :
    (h.send s payload named address d).result = .error e := by
  rw [perform, Action.result_bind] at he
  rcases bind_eq_error_iff.mp he with hsend | ⟨report, -, hrest⟩
  · exact hsend
  · rw [Action.result_bind, Report.print_eq] at hrest
    cases hrest

/-- A command that ends early leaves the disk alone, and does the same whatever programs do. -/
theorem perform_of_endsEarly {command : Command}
    (hends : match command with
      | .compile .. | .train .. =>
        ∃ e, (h.perform json s command d).2.result = .error e ∧ e.code ∈ earlyCodes
      | .submit .. => ∃ e, (h.perform json s command d).2.result = .error e
      | .emit .. | .order .. | .trainBody .. | .layers => True) :
    (h.perform json s command d).1 = d ∧
      ∀ start, (h.withStart start).perform json s command d = h.perform json s command d := by
  cases command with
  | compile t outDir =>
      obtain ⟨e, he, hcode⟩ := hends
      rw [result_perform_compile] at he
      have hcompile : (h.compile s t (outDir.getD s.outDir) d).2.result = .error e :=
        map_eq_error_iff.mp he
      refine ⟨?_, fun start => rfl⟩
      rw [disk_perform_compile, disk_compile_of_error hcompile hcode]
  | train t outDir interpreter =>
      obtain ⟨e, he, hcode⟩ := hends
      have hcompile := compile_of_train_error he hcode
      refine ⟨?_, fun start => ?_⟩
      · rw [perform, Action.bind_of_result_error hcompile, disk_compile_of_error hcompile hcode]
      · -- Writing starts no program, so it fails on either host.
        have hsame : ((h.withStart start).compile s t (outDir.getD s.outDir) d).2.result
            = .error e := hcompile
        rw [perform, perform, Action.bind_of_result_error hcompile,
          Action.bind_of_result_error hsame]
        rfl
  | submit payload named address =>
      obtain ⟨e, he⟩ := hends
      have hsend : (Action.observe (h.send s payload named address) d).2.result = .error e :=
        send_of_submit_error he
      refine ⟨?_, fun start => rfl⟩
      rw [perform, Action.bind_of_result_error hsend, Action.observe_disk]
  | emit | order | trainBody | layers =>
      exact ⟨disk_perform_of_looks h json s d trivial, fun start => rfl⟩

/-! ## 4. Every run -/

/-- Without settings nothing follows. -/
theorem run_of_unsettled {i : Invocation} (hload : (h.loadSettings i.settings d).result = .error e) :
    h.run i d = (d, ⟨(h.loadSettings i.settings d).events, (h.loadSettings i.settings d).output,
      .error e⟩) := by
  have hobserve : (Action.observe (h.loadSettings i.settings) d).2.result = .error e := hload
  rw [run, Action.bind_of_result_error hobserve]
  rfl

/-- With settings a run is what its command does, behind what was noted and printed before. -/
theorem run_of_settled {i : Invocation} (hload : (h.loadSettings i.settings d).result = .ok s) :
    h.run i d = ((h.perform i.json s i.command d).1,
      ⟨(h.loadSettings i.settings d).events ++ (h.perform i.json s i.command d).2.events,
        (h.loadSettings i.settings d).output ++ (h.perform i.json s i.command d).2.output,
        (h.perform i.json s i.command d).2.result⟩) := by
  have hobserve : Action.observe (h.loadSettings i.settings) d
      = (d, ⟨(h.loadSettings i.settings d).events, (h.loadSettings i.settings d).output,
        .ok s⟩) := by
    rw [← hload]
    rfl
  exact Action.bind_of_ok hobserve _

/-- **A run that ends early leaves nothing behind**: the disk is the one that it found, and no
program was started. This holds of writing and of training when they fail while the settings or
the payload are read, the payload is bound, its layers are put in order or its scripts are
generated; of sending when it fails; and of every run that only shows something. -/
theorem leavesNothing_of_endsEarly (h : Host) (i : Invocation) (d : Disk)
    (hends : h.EndsEarly i d) : h.LeavesNothing i d := by
  suffices hrun : (h.run i d).1 = d ∧ ∀ start, (h.withStart start).run i d = h.run i d by
    refine ⟨hrun.1, fun start => ?_⟩
    rw [answer, answer, hrun.2]
  -- Settings are loaded alike whatever programs do, so the lemmas serve for either host.
  rcases hload : (h.loadSettings i.settings d).result with e | s
  · have hsame (start) : ((h.withStart start).loadSettings i.settings d).result = .error e := hload
    refine ⟨?_, fun start => ?_⟩
    · rw [run_of_unsettled hload]
    · rw [run_of_unsettled hload, run_of_unsettled (hsame start)]
      rfl
  · have hsame (start) : ((h.withStart start).loadSettings i.settings d).result = .ok s := hload
    have hresult : (h.run i d).2.result = (h.perform i.json s i.command d).2.result := by
      rw [run_of_settled hload]
    rw [EndsEarly, hresult] at hends
    obtain ⟨hdisk, hperform⟩ := perform_of_endsEarly hends
    refine ⟨?_, fun start => ?_⟩
    · rw [run_of_settled hload, hdisk]
    · rw [run_of_settled hload, run_of_settled (hsame start), hperform start]
      rfl

end Host

/-- A host whose standard input is no project. -/
def unprojectedHost : Host :=
  ⟨["work"], some "/home", "\x7b\x7d".toUTF8, 0, standardPrograms⟩

/-- An invocation that trains on the standard input. -/
def trainingFromInput : Invocation :=
  ⟨false, none, .train ⟨"-", none, none⟩ none none⟩

theorem Host.leavesNothing_of_endsEarly_unprojected :
    unprojectedHost.EndsEarly trainingFromInput .empty ∧
      unprojectedHost.LeavesNothing trainingFromInput .empty := by
  have hcode : (match (unprojectedHost.run trainingFromInput .empty).2.result with
      | .error e => e.code
      | .ok _ => "") = "BIND_ERROR" := by
    decide +kernel
  have hends : unprojectedHost.EndsEarly trainingFromInput .empty := by
    rcases hresult : (unprojectedHost.run trainingFromInput .empty).2.result with e | report
    · rw [hresult] at hcode
      change e.code = "BIND_ERROR" at hcode
      exact ⟨e, hresult, by rw [hcode]; decide⟩
    · rw [hresult] at hcode
      change "" = "BIND_ERROR" at hcode
      exact absurd hcode (by decide)
  exact ⟨hends, Host.leavesNothing_of_endsEarly _ _ _ hends⟩

end LayerScript
