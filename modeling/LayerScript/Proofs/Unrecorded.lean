/-
`Proofs/Unrecorded.lean` -- a run does the same without a record.

With a directory in the place of the record nothing can be put on record, and nobody is told. That
a run is the same otherwise is said of two disks that agree beside that place (`Disk.Obstructed`):
a step agrees on them when it notes and returns the same and leaves them in agreement
(`Action.Agrees`), a sequence of such steps agrees, and it remains to see that every step of a
command is one. Looking and writing agree along paths that avoid the place; putting something on
record agrees because what it changes is at the place; and what programs do is theirs to say
(`Programs.Overlook`).
-/
import LayerScript.Proofs.Disk.Beside
import LayerScript.Proofs.Record

set_option autoImplicit false

namespace LayerScript

open Disk LayerScript.Path

/-! ## 1. Steps that agree -/

namespace Action

variable {α β ε : Type} {T : Disk → Disk → Prop} {d d' : Disk}

/-- Whether a step does the same on two disks, and leaves them related. -/
structure Agrees (T : Disk → Disk → Prop) (x : Action α) (d d' : Disk) : Prop where
  traced : (x d).2 = (x d').2
  disks : T (x d).1 (x d').1

/-- Two steps in a row agree when the second does on what the first leaves and gives. -/
theorem Agrees.bind {x : Action α} {f : α → Action β} (h : Agrees T x d d')
    (hnext : ∀ a, (x d).2.result = .ok a → Agrees T (f a) (x d).1 (x d').1) :
    Agrees T (x >>= f) d d' := by
  obtain ⟨htraced, hdisks⟩ := h
  rcases hx : x d with ⟨left, traced⟩
  rcases hx' : x d' with ⟨left', traced'⟩
  rw [hx, hx'] at htraced hdisks hnext
  dsimp only at htraced hdisks hnext
  subst htraced
  rcases traced with ⟨events, output, e | a⟩
  · exact ⟨by rw [bind_of_error hx, bind_of_error hx'],
      by rw [bind_of_error hx, bind_of_error hx']; exact hdisks⟩
  · obtain ⟨hsecond, hleft⟩ := hnext a rfl
    exact ⟨by rw [bind_of_ok hx, bind_of_ok hx', hsecond],
      by rw [bind_of_ok hx, bind_of_ok hx']; exact hleft⟩

theorem agrees_pure (a : α) (h : T d d') : Agrees T (pure a : Action α) d d' :=
  ⟨rfl, h⟩

theorem agrees_observe {f : Disk → Traced α} (h : T d d') (hsame : f d = f d') :
    Agrees T (observe f) d d' :=
  ⟨hsame, h⟩

theorem agrees_attempt {failure : ε → Failure} {f : Disk → Disk × Except ε α}
    (hsame : (f d).2 = (f d').2) (h : T (f d).1 (f d').1) : Agrees T (attempt failure f) d d' :=
  ⟨congrArg (Traced.lift failure) hsame, h⟩

theorem agrees_change {f : Disk → Disk} (h : T (f d) (f d')) : Agrees T (change f) d d' :=
  ⟨rfl, h⟩

theorem agrees_note (e : Event) (h : T d d') : Agrees T (note e) d d' :=
  agrees_observe h rfl

theorem agrees_print (json : Bool) (r : Report) (h : T d d') : Agrees T (r.print json) d d' := by
  constructor
  · rw [Report.print_eq, Report.print_eq]
  · rw [Report.print_eq, Report.print_eq]
    exact h

end Action

/-! ## 2. Looking -/

/-- Whether programs take no notice of what stands at a place, unless they are given a path that
leads there or are started below it. -/
def Programs.Overlook (programs : Programs) (place : Location) : Prop :=
  ∀ (l : Launch) (d d' : Disk), Obstructed place d d' → Avoids l.directory l.argument place →
    (programs.start l d).2 = (programs.start l d').2

namespace Host

variable {h : Host} {i : Invocation} {d d' : Disk} {place : Location} {s : Settings}
  {path outDir user : String} {p : Project} {c : Compiled} {t : Target}

theorem readSettings_eq (hrel : Obstructed place d d') (h : Host)
    (havoids : Avoids h.workingDirectory path place) :
    h.readSettings path d = h.readSettings path d' := by
  unfold readSettings
  rw [readText_eq_of_avoids hrel havoids]

/-- The settings are the same when the files they may come from avoid the place. -/
theorem loadSettings_eq (hrel : Obstructed place d d')
    (hpaths : ∀ path ∈ h.inputPaths i, Avoids h.workingDirectory path place) :
    h.loadSettings i.settings d = h.loadSettings i.settings d' := by
  unfold loadSettings
  unfold inputPaths at hpaths
  rcases hnamed : i.settings with _ | named
  · rcases hhome : h.home with _ | home
    · rfl
    · have havoids : Avoids h.workingDirectory (settingsFile home) place := by
        refine hpaths _ ?_
        rw [hnamed, hhome]
        cases i.command.payload? <;> simp
      dsimp only
      rw [contains_eq_of_avoids hrel havoids, readSettings_eq hrel h havoids]
  · have havoids : Avoids h.workingDirectory named place := by
      refine hpaths _ ?_
      rw [hnamed]
      cases i.command.payload? <;> simp
    exact readSettings_eq hrel h havoids

theorem bind_eq (hrel : Obstructed place d d')
    (hpaths : ∀ path ∈ h.inputPaths i, Avoids h.workingDirectory path place)
    (hpath : i.command.payload? = some path) (user : Option String) :
    h.bind path user d = h.bind path user d' := by
  have havoids : Avoids h.workingDirectory path place := by
    refine hpaths path ?_
    unfold inputPaths
    rw [hpath]
    exact List.mem_append_right _ (List.mem_singleton_self path)
  unfold bind readPayload
  rw [readText_eq_of_avoids hrel havoids]

theorem prepare_eq (hrel : Obstructed place d d')
    (hpaths : ∀ path ∈ h.inputPaths i, Avoids h.workingDirectory path place)
    (ht : i.command.target? = some t) : h.prepare s t d = h.prepare s t d' := by
  unfold prepare
  rw [bind_eq hrel hpaths (Command.of_target? ht).1]

/-! ## 3. Acting -/

/-- The directory of the record avoids the record if that can be kept: it is passed on the way, and
no directory stands in its place. -/
theorem avoids_configDirectory (hplace : h.recordPlace? = some place)
    (hbelow : ¬ place <+: h.workingDirectory) (hcan : h.CanRecord d) :
    ∀ home ∈ h.home, Avoids h.workingDirectory (configDirectory home) place := by
  intro home hhome
  obtain ⟨l, hlocate, hat⟩ := (canRecord_iff hhome).mp hcan
  rw [eq_locationOf_of_locate hlocate, ← eq_of_recordPlace hplace hhome] at hat
  refine (avoids_iff hbelow).mpr ?_
  rintro ⟨front, back, hsteps, heq⟩
  -- Were the record passed on the way, the path could only be followed past a directory there.
  obtain ⟨-, q, hq, hfollow, -⟩ := locate_eq_ok_iff.mp hlocate
  obtain ⟨hstart, hq⟩ := start_and_steps_of_ofText h.workingDirectory hq
  rw [hstart, hq, auditFile, stepsOf_join _ isEntryName_auditFile,
    startOf_join _ _ isEntryName_auditFile, hsteps, List.append_assoc] at hfollow
  rw [heq] at hat
  exact hat (at?_walk_of_follow (by simp) hfollow)

/-- **What is put on record is noticed nowhere else.** -/
theorem obstructed_record (hrel : Obstructed place d d') (hplace : h.recordPlace? = some place)
    (hconfig : ∀ home ∈ h.home, Avoids h.workingDirectory (configDirectory home) place)
    (e : AuditEvent) : Obstructed place (h.record e d) (h.record e d') := by
  obtain ⟨home, hhome, -⟩ := Option.map_eq_some_iff.mp hplace
  have hat := eq_of_recordPlace hplace hhome
  obtain ⟨-, hmade⟩ := createDirectories_of_avoids hrel (hconfig home hhome)
  rw [record_eq hhome, record_eq hhome]
  -- The second disk has a directory there, so nothing is added on it.
  rcases hrefused : (d'.createDirectories h.workingDirectory (configDirectory home)).1.append
      h.workingDirectory (auditFile home) (e.line h.time) with fault | made
  · rcases happend : (d.createDirectories h.workingDirectory (configDirectory home)).1.append
        h.workingDirectory (auditFile home) (e.line h.time) with fault | made
    · exact hmade
    · obtain ⟨l, old, hlocate, -, rfl⟩ := exists_of_alter happend
      rw [eq_locationOf_of_locate hlocate, ← hat]
      exact hmade.put _
  · exact absurd hrefused (ne_ok_of_alter (hat ▸ hmade.directory) made)

theorem Binds.isEntryName (hbinds : h.Binds i d s p) : Step.IsEntryName p.user := by
  obtain ⟨-, -, text, -, -, hp⟩ := hbinds
  exact isEntryName_of_isUser (Project.isUser_of_ofPayload hp)

/-- **Writing the files of a request does the same on both.** -/
theorem obstructed_writeArtifacts (hrel : Obstructed place d d')
    (hplace : h.recordPlace? = some place) (hgenerates : h.Generates i d s p c)
    (havoids : Avoids h.workingDirectory (userDirectory outDir p.user) place) :
    (writeArtifacts h.workingDirectory outDir p c d).2
        = (writeArtifacts h.workingDirectory outDir p c d').2 ∧
      Obstructed place (writeArtifacts h.workingDirectory outDir p c d).1
        (writeArtifacts h.workingDirectory outDir p c d').1 := by
  have huser : Step.IsEntryName p.user := hgenerates.binds.isEntryName
  have huniform : Uniform (Obstructed place) (requestChanges h.workingDirectory outDir p.user)
      (writeArtifacts h.workingDirectory outDir p c) :=
    uniform_writeArtifacts_of_alike huser (stable_obstructed place) c
      (fun _ _ hsteps => alikeAlong_of_avoids havoids hsteps) fun file hfile =>
        alikeOn_of_avoids (havoids.join (Compiled.isEntryName_of_mem_files file hfile)
          (ne_of_mem_files hplace hgenerates file hfile))
  obtain ⟨-, -, -, -, hresult, hafter⟩ := huniform d d' hrel
  exact ⟨hresult, hafter⟩

/-- **Training does the same on both**, if programs overlook the place. -/
theorem train_eq (hrel : Obstructed place d d') (hplace : h.recordPlace? = some place)
    (hover : h.programs.Overlook place) (huser : Step.IsEntryName user)
    (havoids : Avoids h.workingDirectory (userDirectory outDir user) place)
    (interpreter : String) :
    (LayerScript.train h.programs h.workingDirectory interpreter outDir user d).2
      = (LayerScript.train h.programs h.workingDirectory interpreter outDir user d').2 := by
  unfold LayerScript.train
  split
  · rfl
  · rw [← enter_eq_of_avoids hrel (havoids.of_join huser)]
    rcases henter : d.enter h.workingDirectory outDir with fault | directory
    · rfl
    · -- The program is told a path from the directory that it is started in.
      have hother : place.getLast? ≠ some ScriptName.train.file := by
        rw [getLast?_recordPlace hplace]
        decide
      have hscript : Avoids directory (trainingArgument user) place := by
        rw [eq_locationOf_of_enter henter]
        exact (havoids.relative huser).join ScriptName.train.isEntryName_file hother
      have hlaunch := hover ⟨interpreter, trainingArgument user, directory⟩ d d' hrel hscript
      rcases hstart : h.programs.start ⟨interpreter, trainingArgument user, directory⟩ d with
        ⟨left, outcome⟩
      rcases hstart' : h.programs.start ⟨interpreter, trainingArgument user, directory⟩ d' with
        ⟨left', outcome'⟩
      rw [hstart, hstart'] at hlaunch
      dsimp only at hlaunch ⊢
      rw [hstart, hstart']
      subst hlaunch
      cases outcome <;> rfl

/-! ## 4. Commands -/

/-- The directory that the files of a run are to be written into, if it gets that far. -/
def requestDirectory? (h : Host) (i : Invocation) (d : Disk) : Option String := do
  let s ← (h.loadSettings i.settings d).result.toOption
  let (t, named) ← i.command.written?
  let p ← (h.bind t.payload t.user d).result.toOption
  return userDirectory (named.getD s.outDir) p.user

/-- The paths that a run uses besides that of the record. -/
def usedPaths (h : Host) (i : Invocation) (d : Disk) : List String :=
  h.inputPaths i ++ (h.requestDirectory? i d).toList

variable {named : Option String}

theorem Generates.mem_usedPaths (hgenerates : h.Generates i d s p c)
    (hw : i.command.written? = some (t, named)) :
    userDirectory (named.getD s.outDir) p.user ∈ h.usedPaths i d := by
  obtain ⟨hpath, huser, -⟩ := Command.of_target? (Command.target?_of_written? hw)
  have hbind := hgenerates.binds.result_bind hpath
  rw [huser] at hbind
  have hdirectory : h.requestDirectory? i d
      = some (userDirectory (named.getD s.outDir) p.user) := by
    rw [requestDirectory?, hgenerates.binds.settled, hw]
    change (h.bind t.payload t.user d).result.toOption >>= _ = _
    rw [hbind]
    rfl
  rw [usedPaths, hdirectory]
  exact List.mem_append_right _ (List.mem_singleton_self _)

/-- What is assumed of a host and a run for the record to go unnoticed: the record is kept at the
place, its directory is not below it, and neither is anything that the run uses. -/
structure Evades (h : Host) (i : Invocation) (d : Disk) (place : Location) : Prop where
  recorded : h.recordPlace? = some place
  config : ∀ home ∈ h.home, Avoids h.workingDirectory (configDirectory home) place
  paths : ∀ path ∈ h.usedPaths i d, Avoids h.workingDirectory path place
  quiet : ∀ l d, (h.programs.start l d).1 = d
  overlook : h.programs.Overlook place

theorem Evades.inputs (hevades : h.Evades i d place) :
    ∀ path ∈ h.inputPaths i, Avoids h.workingDirectory path place :=
  fun path hpath => hevades.paths path (List.mem_append_left _ hpath)

theorem agrees_compile (hrel : Obstructed place d d') (hevades : h.Evades i d place)
    (settled : (h.loadSettings i.settings d).result = .ok s)
    (hw : i.command.written? = some (t, named)) :
    Action.Agrees (Obstructed place) (h.compile s t (named.getD s.outDir)) d d' := by
  have ht := Command.target?_of_written? hw
  unfold compile
  -- In the order of the steps: preparing, writing, noting, putting on record.
  refine (Action.agrees_observe hrel (prepare_eq hrel hevades.inputs ht)).bind ?_
  rintro ⟨p, c⟩ hprepare
  have hgenerates := generates_of_prepare_ok settled ht hprepare
  obtain ⟨hresult, hwritten⟩ := obstructed_writeArtifacts hrel hevades.recorded hgenerates
    (hevades.paths _ (hgenerates.mem_usedPaths hw))
  refine (Action.agrees_attempt hresult hwritten).bind fun artifacts _ => ?_
  refine (Action.agrees_note _ hwritten).bind fun _ _ => ?_
  have hrecord := obstructed_record hwritten hevades.recorded hevades.config
    (.compiled p.user c.model.digest)
  exact (Action.agrees_change hrecord).bind fun _ _ => Action.agrees_pure _ hrecord

theorem agrees_runTraining (hrel : Obstructed place d d') {origin : Disk}
    (hevades : h.Evades i origin place) (huser : Step.IsEntryName user)
    (havoids : Avoids h.workingDirectory (userDirectory outDir user) place)
    (interpreter : String) :
    Action.Agrees (Obstructed place) (h.runTraining interpreter outDir user) d d' := by
  have htrain := train_eq hrel hevades.recorded hevades.overlook huser havoids interpreter
  have hdone : Obstructed place
      (h.record (.trained user (LayerScript.train h.programs h.workingDirectory interpreter outDir
        user d).2.isOk) d)
      (h.record (.trained user (LayerScript.train h.programs h.workingDirectory interpreter outDir
        user d').2.isOk) d') := by
    rw [← htrain]
    exact obstructed_record hrel hevades.recorded hevades.config _
  unfold runTraining
  refine (Action.agrees_note _ hrel).bind fun _ _ => Action.agrees_attempt htrain ?_
  change Obstructed place (h.record _ (LayerScript.train _ _ _ _ _ d).1)
    (h.record _ (LayerScript.train _ _ _ _ _ d').1)
  rw [train_disk hevades.quiet, train_disk hevades.quiet]
  exact hdone

/-- **Every command agrees.** -/
theorem agrees_perform (hrel : Obstructed place d d') (hevades : h.Evades i d place)
    (settled : (h.loadSettings i.settings d).result = .ok s) :
    Action.Agrees (Obstructed place) (h.perform i.json s i.command) d d' := by
  have hbind {path : String} (hpath : i.command.payload? = some path) (user : Option String) :=
    bind_eq hrel hevades.inputs hpath user
  cases hcommand : i.command with
  | compile t named =>
      have hw : i.command.written? = some (t, named) := by rw [hcommand]; rfl
      have hcompile := agrees_compile hrel hevades settled hw
      exact hcompile.bind fun report _ => Action.agrees_print _ _ hcompile.disks
  | train t named interpreter =>
      have hw : i.command.written? = some (t, named) := by rw [hcommand]; rfl
      have hcompile := agrees_compile hrel hevades settled hw
      refine hcompile.bind fun report hreport => ?_
      obtain ⟨p, c, artifacts, written, hprepare, -, -, rfl⟩ := exists_of_compile hreport
      have hgenerates := generates_of_prepare_ok settled (Command.target?_of_written? hw) hprepare
      have htrain := agrees_runTraining hcompile.disks hevades hgenerates.binds.isEntryName
        (hevades.paths _ (hgenerates.mem_usedPaths hw)) (interpreter.getD s.interpreter)
      exact htrain.bind fun run _ => Action.agrees_print _ _ htrain.disks
  | emit t name =>
      have hprepare : h.prepare s t d = h.prepare s t d' :=
        prepare_eq hrel hevades.inputs (by rw [hcommand]; rfl)
      exact (Action.agrees_observe hrel hprepare).bind fun _ _ => Action.agrees_print _ _ hrel
  | order payload policy =>
      have hresolve : h.resolve s payload policy d = h.resolve s payload policy d' := by
        unfold resolve
        rw [hbind (by rw [hcommand]; rfl)]
      exact (Action.agrees_observe hrel hresolve).bind fun _ _ => Action.agrees_print _ _ hrel
  | trainBody payload user =>
      have hproject : h.bind payload user d = h.bind payload user d' :=
        hbind (by rw [hcommand]; rfl) user
      exact (Action.agrees_observe hrel hproject).bind fun _ _ => Action.agrees_print _ _ hrel
  | submit payload user address =>
      have hsend : h.send s payload user address d = h.send s payload user address d' := by
        unfold send
        rw [hbind (by rw [hcommand]; rfl)]
      refine (Action.agrees_observe hrel hsend).bind ?_
      rintro ⟨p, report⟩ -
      have hrecord := obstructed_record hrel hevades.recorded hevades.config
        (.submitted p.user report.status)
      exact (Action.agrees_change hrecord).bind fun _ _ => Action.agrees_print _ _ hrecord
  | layers => exact Action.agrees_print _ _ hrel

/-- **Every run agrees.** -/
theorem agrees_run (hrel : Obstructed place d d') (hevades : h.Evades i d place) :
    Action.Agrees (Obstructed place) (h.run i) d d' :=
  (Action.agrees_observe hrel (loadSettings_eq hrel hevades.inputs)).bind
    fun _ settled => agrees_perform hrel hevades settled

end Host

end LayerScript
