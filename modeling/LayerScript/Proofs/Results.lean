/-
`Proofs/Results.lean` -- what the result of each command is made of.

A command is a sequence of steps that note events and change the disk between them. Its result
depends on neither but for one thing, which disk the training program is started on. Here the
result of each command is written as a sequence of the steps that can fail, and everything that
is said of failures and of agreement starts from these equations. For the two commands that
write, the disk that they leave is taken apart in the same way.
-/
import LayerScript.Proofs.Steps
import LayerScript.Session

set_option autoImplicit false

namespace LayerScript.Host

variable (h : Host) (json : Bool) (s : Settings) (d : Disk)

/-- To print a report at the end leaves the disk as it was left before. -/
theorem disk_bind_print {α : Type} (x : Action α) (f : α → Report) (d : Disk) :
    ((x >>= fun a => (f a).print json) d).1 = (x d).1 := by
  cases hx : (x d).2.result with
  | error e => rw [Action.bind_of_result_error hx]
  | ok a => rw [Action.disk_bind_of_ok hx, Report.print_eq]

/-- Binding: the payload is read, then judged. -/
theorem result_bind (path : String) (user : Option String) :
    (h.bind path user d).result
      = h.readPayload path d >>= fun text => (Project.ofPayload text user).mapError .bind := by
  rw [bind]
  simp only [Traced.result_bind, Traced.result_lift, Traced.result_note, Traced.result_pure]
  cases h.readPayload path d with
  | error e => rfl
  | ok text =>
      change ((Project.ofPayload text user).mapError _ >>= _)
        = (Project.ofPayload text user).mapError _
      cases Project.ofPayload text user <;> rfl

/-- Preparing a target: its payload is bound, then compiled. -/
theorem result_prepare (t : Target) :
    (h.prepare s t d).result
      = (h.bind t.payload t.user d).result >>= fun p =>
          (p.compile s.dialect (s.optionsWith t.unreachable)).mapError .compile >>= fun c =>
            .ok (p, c) := by
  rw [prepare]
  simp only [Traced.result_bind, Project.compileTraced, Traced.result_lift, Traced.result_note,
    Traced.result_pure]
  cases (h.bind t.payload t.user d).result with
  | error e => rfl
  | ok p =>
      change ((p.compile _ _).mapError _ >>= _) >>= _ = (p.compile _ _).mapError _ >>= _
      cases p.compile s.dialect (s.optionsWith t.unreachable) <;> rfl

/-- Writing a target: it is prepared, then its files are stored. -/
theorem result_compile (t : Target) (outDir : String) :
    (h.compile s t outDir d).2.result
      = (h.prepare s t d).result >>= fun (p, c) =>
          (writeArtifacts h.workingDirectory outDir p c d).2.mapError .storage
            >>= fun artifacts => .ok ⟨p.user, outDir, artifacts, c.order, c.dropped⟩ := by
  rw [compile, Action.result_bind]
  change (h.prepare s t d).result >>= _ = _
  cases (h.prepare s t d).result with
  | error e => rfl
  | ok prepared =>
      simp only [Action.result_bind, Action.result_attempt]
      rfl

/-- The command that writes: its report is that about the target. -/
theorem result_perform_compile (t : Target) (outDir : Option String) :
    (h.perform json s (.compile t outDir) d).2.result
      = Report.compiled <$> (h.compile s t (outDir.getD s.outDir) d).2.result := by
  rw [perform, Action.result_bind]
  simp only [Report.print_eq]
  cases (h.compile s t (outDir.getD s.outDir) d).2.result <;> rfl

/-- The command that trains: the program is started on the disk that writing left. -/
theorem result_perform_train (t : Target) (outDir interpreter : Option String) :
    (h.perform json s (.train t outDir interpreter) d).2.result
      = (h.compile s t (outDir.getD s.outDir) d).2.result >>= fun report =>
          (LayerScript.train h.programs h.workingDirectory (interpreter.getD s.interpreter)
            (outDir.getD s.outDir) report.user
            (h.compile s t (outDir.getD s.outDir) d).1).2.mapError .training
            >>= fun run => .ok (.trained report run) := by
  rw [perform, Action.result_bind]
  cases (h.compile s t (outDir.getD s.outDir) d).2.result with
  | error e => rfl
  | ok report =>
      simp only [runTraining, Action.result_bind, Action.result_attempt, Report.print_eq]
      rfl

/-- What writing a target leaves: nothing unless it is prepared, then as much as could be stored,
and that is put on record when it was everything. -/
theorem disk_compile (t : Target) (outDir : String) :
    (h.compile s t outDir d).1
      = match (h.prepare s t d).result with
        | .error _ => d
        | .ok (p, c) =>
          match writeArtifacts h.workingDirectory outDir p c d with
          | (written, .error _) => written
          | (written, .ok _) => h.record (.compiled p.user c.model.digest) written := by
  rw [compile]
  cases hprepare : (h.prepare s t d).result with
  | error e =>
      have hobserve : (Action.observe (h.prepare s t) d).2.result = .error e := hprepare
      rw [Action.bind_of_result_error hobserve, Action.observe_disk]
  | ok prepared =>
      obtain ⟨p, c⟩ := prepared
      have hobserve : (Action.observe (h.prepare s t) d).2.result = .ok (p, c) := hprepare
      rw [Action.disk_bind_of_ok hobserve, Action.observe_disk]
      dsimp only
      rcases hwrite : writeArtifacts h.workingDirectory outDir p c d with ⟨written, e | artifacts⟩
      · have hattempt : (Action.attempt .storage
            (writeArtifacts h.workingDirectory outDir p c) d).2.result = .error (.storage e) := by
          rw [Action.result_attempt, hwrite]
          rfl
        rw [Action.bind_of_result_error hattempt]
        exact congrArg Prod.fst hwrite
      · have hattempt : (Action.attempt .storage
            (writeArtifacts h.workingDirectory outDir p c) d).2.result = .ok artifacts := by
          rw [Action.result_attempt, hwrite]
          rfl
        rw [Action.disk_bind_of_ok hattempt]
        exact congrArg (fun written => h.record (.compiled p.user c.model.digest) written.1) hwrite

/-- Writing a target succeeds when all of its files were stored, and that is put on record. -/
theorem compile_of_stored {t : Target} {outDir : String} {p : Project} {c : Compiled}
    {written : Disk} {artifacts : List ArtifactReport}
    (hprepared : (h.prepare s t d).result = .ok (p, c))
    (hstored : writeArtifacts h.workingDirectory outDir p c d = (written, .ok artifacts)) :
    (h.compile s t outDir d).2.result
        = .ok ⟨p.user, outDir, artifacts, c.order, c.dropped⟩ ∧
      (h.compile s t outDir d).1 = h.record (.compiled p.user c.model.digest) written := by
  constructor
  · rw [result_compile]
    exact bind_eq_ok_iff.mpr ⟨(p, c), hprepared,
      bind_eq_ok_iff.mpr ⟨artifacts, mapError_eq_ok_iff.mpr (by rw [hstored]), rfl⟩⟩
  · rw [disk_compile, hprepared]
    dsimp only
    rw [hstored]

/-- To write for the command leaves what writing a target leaves. -/
theorem disk_perform_compile (t : Target) (outDir : Option String) :
    (h.perform json s (.compile t outDir) d).1 = (h.compile s t (outDir.getD s.outDir) d).1 := by
  rw [perform]
  exact disk_bind_print json _ _ d

/-- What training leaves: what writing left, and then what the program did, put on record. -/
theorem disk_perform_train (t : Target) (outDir interpreter : Option String) :
    (h.perform json s (.train t outDir interpreter) d).1
      = match (h.compile s t (outDir.getD s.outDir) d).2.result with
        | .error _ => (h.compile s t (outDir.getD s.outDir) d).1
        | .ok report =>
          let trained := LayerScript.train h.programs h.workingDirectory
            (interpreter.getD s.interpreter) (outDir.getD s.outDir) report.user
            (h.compile s t (outDir.getD s.outDir) d).1
          h.record (.trained report.user trained.2.isOk) trained.1 := by
  rw [perform]
  cases hcompile : (h.compile s t (outDir.getD s.outDir) d).2.result with
  | error e => rw [Action.bind_of_result_error hcompile]
  | ok report =>
      rw [Action.disk_bind_of_ok hcompile]
      refine (disk_bind_print json _ _ _).trans ?_
      rfl

/-- A command that looks and then prints leaves the disk as it is. -/
theorem disk_perform_of_looks {command : Command}
    (hlooks : match command with
      | .emit .. | .order .. | .trainBody .. | .layers => True
      | .compile .. | .train .. | .submit .. => False) :
    (h.perform json s command d).1 = d := by
  cases command with
  | compile | train | submit => exact hlooks.elim
  | layers => rw [perform, Report.print_eq]
  | emit | order | trainBody =>
      rw [perform]
      exact disk_bind_print json _ _ d

/-- Showing a script: the target is prepared and nothing else. -/
theorem result_perform_emit (t : Target) (name : ScriptName) :
    (h.perform json s (.emit t name) d).2.result
      = (h.prepare s t d).result >>= fun (_, c) =>
          .ok (.script (match name with
            | .model => c.model
            | .train => c.trainer)) := by
  rw [perform, Action.result_bind]
  simp only [Report.print_eq]
  rfl

/-- Showing the order: the payload is bound without a user, then its layers are put in order. -/
theorem result_perform_order (payload : String) (policy : Option Policy) :
    (h.perform json s (.order payload policy) d).2.result
      = (h.bind payload none d).result >>= fun p =>
          (p.network.resolve (s.optionsWith policy).unreachable).mapError (.compile ∘ .graph)
            >>= fun o => .ok (.order o.names o.dropped) := by
  rw [perform, Action.result_bind]
  simp only [Report.print_eq]
  change (h.resolve s payload policy d).result >>= _ = _
  rw [resolve]
  simp only [Traced.result_bind, Network.resolveTraced, Traced.result_lift, Traced.result_note]
  cases (h.bind payload none d).result <;> rfl

/-- Showing what would be sent: the payload is bound and nothing else. -/
theorem result_perform_trainBody (payload : String) (user : Option String) :
    (h.perform json s (.trainBody payload user) d).2.result
      = (h.bind payload user d).result >>= fun p => .ok (.trainBody p.trainBody) := by
  rw [perform, Action.result_bind]
  simp only [Report.print_eq]
  rfl

/-- Sending: the payload is bound, then sent, then the answer is read to its end. -/
theorem result_perform_submit (payload : String) (user address : Option String) :
    (h.perform json s (.submit payload user address) d).2.result
      = (h.bind payload user d).result >>= fun p =>
          (LayerScript.send h.programs (address <|> s.trainerUrl) p.trainBody).mapError .submission
            >>= fun (text, response) =>
              response.body.mapError (fun fault => .submission (.notAnswered fault))
                >>= fun body => .ok (.submitted ⟨text, response.status, body⟩) := by
  rw [perform, Action.result_bind]
  simp only [Action.result_bind, Report.print_eq]
  change (h.send s payload user address d).result >>= _ = _
  rw [send]
  simp only [Traced.result_bind, Traced.result_lift, Traced.result_note, Traced.result_pure]
  cases (h.bind payload user d).result with
  | error e => rfl
  | ok p =>
      change ((LayerScript.send _ _ _).mapError _ >>= _) >>= _
        = (LayerScript.send _ _ _).mapError _ >>= _
      cases LayerScript.send h.programs (address <|> s.trainerUrl) p.trainBody with
      | error e => rfl
      | ok sent =>
          change (sent.2.body.mapError _ >>= _) >>= _ = sent.2.body.mapError _ >>= _
          cases sent.2.body <;> rfl

end LayerScript.Host
