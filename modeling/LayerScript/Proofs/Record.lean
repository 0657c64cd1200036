/-
`Proofs/Record.lean` -- what a run adds to the record.

The record is a file of its own: nothing that is written for a request bears its name, so its
bytes change only when an event is put on record (`Disk.bytes_writeArtifacts`), and then a line
is added to them (`Host.bytes_record`). Which events those are follows from how far the run got,
and `Host.Puts` says it in terms of the files: writing is put on record once all of them were
written, training right after, and nothing else ever.

An event goes unrecorded without a word when the record cannot be kept. Whether it can is asked
only once, of the disk that the run leaves, since what keeps an event from being put on record
keeps the next one from it as well (`Host.CanRecord.of_record`).
-/
import LayerScript.Proofs.Envelopes
import LayerScript.Proofs.Storage

set_option autoImplicit false

namespace LayerScript

open Disk LayerScript.Path

/-! ## 1. Bytes at a location -/

namespace Disk

variable {d d' : Disk} {workingDirectory l : Location} {path text : String}

/-- The bytes of the file at a location, or none where there is no file. -/
def bytes (d : Disk) (l : Location) : ByteArray :=
  match d.at? l with
  | some (.file content) => content
  | _ => .empty

theorem bytes_congr (h : d.at? l = d'.at? l) : d.bytes l = d'.bytes l := by
  rw [bytes, bytes, h]

theorem bytes_eq_getD_file? (d : Disk) (l : Location) : d.bytes l = (d.file? l).getD .empty := by
  unfold bytes file?
  rcases d.at? l with _ | (_ | content) <;> rfl

/-- Creating directories gives no file other bytes, and puts no file where there was none. -/
theorem bytes_createDirectories (d : Disk) (workingDirectory : Location) (path : String)
    (l : Location) : (d.createDirectories workingDirectory path).1.bytes l = d.bytes l := by
  rw [bytes_eq_getD_file?, bytes_eq_getD_file?, file?_createDirectories]

/-- Files that are written under other names leave what stands at a location. -/
theorem at?_writeFiles (workingDirectory : Location) (directory : String)
    {files : List (String × String)} (hnames : ∀ file ∈ files, Step.IsEntryName file.1)
    (hother : ∀ file ∈ files, l.getLast? ≠ some file.1) (d : Disk) :
    (writeFiles workingDirectory (filesIn directory files) d).1.at? l = d.at? l := by
  -- A write that fails ends the writing, so the disk in between is arbitrary.
  induction files generalizing d with
  | nil => rfl
  | cons file rest ih =>
      rw [List.forall_mem_cons] at hnames hother
      rw [filesIn_cons, writeFiles]
      cases hwrite : d.write workingDirectory (Path.join directory file.1) file.2 with
      | error fault => rfl
      | ok made =>
          dsimp only
          rw [ih hnames.2 hother.2 made]
          obtain ⟨m, old, hlocate, -, rfl⟩ := exists_of_alter hwrite
          refine at?_put_of_ne d _ ?_
          rintro rfl
          exact hother.1 (getLast?_of_locate_join hnames.1 hlocate).1

/-- **What is written for a request leaves the bytes of all files of other names.** -/
theorem bytes_writeArtifacts {p : Project} {c : Compiled} {outDir : String}
    (hother : ∀ file ∈ c.files p, l.getLast? ≠ some file.1) (d : Disk) :
    (writeArtifacts workingDirectory outDir p c d).1.bytes l = d.bytes l := by
  rw [writeArtifacts_eq, ← bytes_createDirectories d workingDirectory
    (userDirectory outDir p.user) l]
  rcases d.createDirectories workingDirectory (userDirectory outDir p.user) with
    ⟨made, fault | _⟩
  · rfl
  · change (storeFiles workingDirectory (userDirectory outDir p.user) p c made).1.bytes l
      = made.bytes l
    have hwrite := bytes_congr (at?_writeFiles workingDirectory (userDirectory outDir p.user)
      Compiled.isEntryName_of_mem_files hother made)
    rw [← hwrite, storeFiles, artifactFiles_eq]
    rcases writeFiles workingDirectory (filesIn (userDirectory outDir p.user) (c.files p)) made
      with ⟨written, e | _⟩ <;> rfl

/-- A file can get new content where its path leads to no directory. What content does not
matter. -/
theorem exists_alter_iff {content : Option ByteArray → ByteArray} :
    (∃ made, d.alter workingDirectory path content = .ok made) ↔
      ∃ l, d.locate workingDirectory path = .ok (l, false) ∧ d.at? l ≠ some .directory := by
  constructor
  · rintro ⟨made, halter⟩
    obtain ⟨l, old, hlocate, hold, -⟩ := exists_of_alter halter
    refine ⟨l, hlocate, ?_⟩
    rw [hold]
    cases old <;> simp
  · rintro ⟨l, hlocate, hat⟩
    unfold alter
    rw [hlocate]
    rcases hold : d.at? l with _ | (_ | old)
    · exact ⟨_, by simp only [bind, Except.bind, hold]; rfl⟩
    · exact absurd hold hat
    · exact ⟨_, by simp only [bind, Except.bind, hold]; rfl⟩

/-- A text that was added to a file stands behind what the file held. -/
theorem bytes_append (h : d.append workingDirectory path text = .ok d') :
    d'.bytes (locationOf workingDirectory path)
      = d.bytes (locationOf workingDirectory path) ++ text.toUTF8 := by
  obtain ⟨l, old, hlocate, hold, rfl⟩ := exists_of_alter h
  rw [← eq_locationOf_of_locate hlocate]
  have hroot : l ≠ [] := by
    rintro rfl
    rw [at?_root] at hold
    cases old <;> cases hold
  rw [bytes, bytes, at?_put_self d _ hroot, hold]
  cases old <;> rfl

end Disk

/-! ## 2. The record of a host -/

/-- The lines of events, each with the time at which it is put on record. -/
def AuditEvent.lines (events : List (Nat × AuditEvent)) : String :=
  String.join (events.map fun (time, e) => e.line time)

@[simp] theorem AuditEvent.toUTF8_lines_nil : (lines []).toUTF8 = .empty := rfl

theorem AuditEvent.toUTF8_lines_cons (time : Nat) (e : AuditEvent)
    (events : List (Nat × AuditEvent)) :
    (lines ((time, e) :: events)).toUTF8 = (e.line time).toUTF8 ++ (lines events).toUTF8 := by
  simp [lines]

theorem AuditEvent.toUTF8_lines_append (front back : List (Nat × AuditEvent)) :
    (lines (front ++ back)).toUTF8 = (lines front).toUTF8 ++ (lines back).toUTF8 := by
  simp [lines]

namespace Host

variable {h : Host} {i : Invocation} {d : Disk} {place : Location} {e : AuditEvent}

/-- Where the record of a host is kept, if there is a home directory. -/
def recordPlace? (h : Host) : Option Location :=
  h.home.map fun home => locationOf h.workingDirectory (auditFile home)

/-- Whether a text can be added to the record, once its directory was made where that can be. -/
def CanRecord (h : Host) (d : Disk) : Prop :=
  ∃ home ∈ h.home, ∀ text, ∃ made,
    (d.createDirectories h.workingDirectory (configDirectory home)).1.append h.workingDirectory
      (auditFile home) text = .ok made

theorem isEntryName_auditFile : Step.IsEntryName "audit.jsonl" :=
  ⟨by decide, by decide⟩

theorem eq_of_recordPlace (hplace : h.recordPlace? = some place) {home : String}
    (hhome : h.home = some home) : place = locationOf h.workingDirectory (auditFile home) := by
  rw [recordPlace?, hhome] at hplace
  exact (Option.some.inj hplace).symm

theorem canRecord_iff {home : String} (hhome : h.home = some home) :
    h.CanRecord d ↔ ∃ l, (d.createDirectories h.workingDirectory (configDirectory home)).1.locate
        h.workingDirectory (auditFile home) = .ok (l, false) ∧
      (d.createDirectories h.workingDirectory (configDirectory home)).1.at? l
        ≠ some .directory := by
  constructor
  · rintro ⟨named, hnamed, hcan⟩
    cases hhome.symm.trans hnamed
    exact exists_alter_iff.mp (hcan "")
  · exact fun hplace => ⟨home, hhome, fun _ => exists_alter_iff.mpr hplace⟩

/-- An event is added to the record, if that can be done once its directory was made. -/
theorem record_eq {home : String} (hhome : h.home = some home) (e : AuditEvent) (d : Disk) :
    h.record e d = match (d.createDirectories h.workingDirectory (configDirectory home)).1.append
        h.workingDirectory (auditFile home) (e.line h.time) with
      | .ok made => made
      | .error _ => (d.createDirectories h.workingDirectory (configDirectory home)).1 := by
  obtain ⟨workingDirectory, named, input, time, programs⟩ := h
  subst hhome
  rfl

/-- **An event is a line at the end of the record.** -/
theorem bytes_record (hplace : h.recordPlace? = some place) (hcan : h.CanRecord d)
    (e : AuditEvent) :
    (h.record e d).bytes place = d.bytes place ++ (e.line h.time).toUTF8 := by
  obtain ⟨home, hhome, happend⟩ := hcan
  obtain ⟨made, happend⟩ := happend (e.line h.time)
  have hline := bytes_append happend
  rw [bytes_createDirectories] at hline
  rw [record_eq hhome, happend, eq_of_recordPlace hplace hhome]
  exact hline

/-- **An event that could not be put on record keeps nothing from being tried again**, and it is
refused again: if there is room for an event afterwards, there was before. -/
theorem CanRecord.of_record (hcan : h.CanRecord (h.record e d)) : h.CanRecord d := by
  obtain ⟨home, hhome, hafter⟩ := hcan
  rcases happend : (d.createDirectories h.workingDirectory (configDirectory home)).1.append
      h.workingDirectory (auditFile home) (e.line h.time) with fault | made
  · -- Only the directories are there now, and they are not made twice.
    rw [record_eq hhome, happend] at hafter
    dsimp only at hafter
    rw [createDirectories_again] at hafter
    exact ⟨home, hhome, hafter⟩
  · exact (canRecord_iff hhome).mpr (exists_alter_iff.mp ⟨made, happend⟩)

/-- The record has a name that no file of a request has. -/
theorem getLast?_recordPlace (hplace : h.recordPlace? = some place) :
    place.getLast? = some "audit.jsonl" := by
  obtain ⟨home, -, rfl⟩ := Option.map_eq_some_iff.mp hplace
  rw [auditFile, locationOf_join _ _ isEntryName_auditFile, List.getLast?_concat]

theorem ne_of_mem_files (hplace : h.recordPlace? = some place) {s : Settings} {p : Project}
    {c : Compiled} (hgenerates : h.Generates i d s p c) :
    ∀ file ∈ c.files p, place.getLast? ≠ some file.1 := by
  have hmodel : c.model.name = .model :=
    Project.name_script_of_compile hgenerates.compiled .model
  have htrain : c.trainer.name = .train :=
    Project.name_script_of_compile hgenerates.compiled .train
  rw [getLast?_recordPlace hplace]
  simp only [Compiled.files, List.forall_mem_cons, hmodel, htrain]
  exact ⟨by decide, by decide, by decide, fun _ hfile => absurd hfile List.not_mem_nil⟩

theorem bytes_written (hplace : h.recordPlace? = some place) {s : Settings} {p : Project}
    {c : Compiled} (hgenerates : h.Generates i d s p c) (outDir : String) :
    (writeArtifacts h.workingDirectory outDir p c d).1.bytes place = d.bytes place :=
  bytes_writeArtifacts (ne_of_mem_files hplace hgenerates) d

/-! ## 3. Runs that write -/

/-- Whether all files of a run were written, under which settings and for whom, and what is on the
disk then. -/
def Stores (h : Host) (i : Invocation) (d : Disk) (s : Settings) (user : String)
    (written : Disk) : Prop :=
  ∃ p c t named artifacts, h.Generates i d s p c ∧ i.command.written? = some (t, named) ∧
    user = p.user ∧
    writeArtifacts h.workingDirectory (named.getD s.outDir) p c d = (written, .ok artifacts)

/-- Whether a training program was started in the directory for all requests and succeeded. -/
def TrainsWell (h : Host) (interpreter outDir user : String) (d : Disk) : Prop :=
  '\x00' ∉ interpreter.toList ∧ ∃ directory run, d.enter h.workingDirectory outDir = .ok directory ∧
    (h.programs.start ⟨interpreter, trainingArgument user, directory⟩ d).2 = .ok run ∧
    run.ending = .exited 0

/-- The events that a run puts on record: that all files were written, with the digest of the model
script as it can be read from then on; that the training program was run, and whether it did well;
and nothing if not all files were written, or none were to be. -/
inductive Puts (h : Host) (i : Invocation) (d : Disk) : List AuditEvent → Prop
  | compiled {s : Settings} {t : Target} {named : Option String} {user content : String}
      {written : Disk} (compiles : i.command = .compile t named)
      (stores : h.Stores i d s user written)
      (model : (h.answer i d).disk.read h.workingDirectory
        (Path.join (userDirectory (named.getD s.outDir) user) ScriptName.model.file)
          = .ok content.toUTF8) :
      Puts h i d [.compiled user (Digest.sha256 content)]
  | trained {s : Settings} {t : Target} {named interpreter : Option String}
      {user content : String} {written : Disk} {ok : Bool}
      (trains : i.command = .train t named interpreter)
      (stores : h.Stores i d s user written)
      (model : (h.answer i d).disk.read h.workingDirectory
        (Path.join (userDirectory (named.getD s.outDir) user) ScriptName.model.file)
          = .ok content.toUTF8)
      (well : ok = true ↔ h.TrainsWell (interpreter.getD s.interpreter) (named.getD s.outDir) user
        (h.record (.compiled user (Digest.sha256 content)) written)) :
      Puts h i d [.compiled user (Digest.sha256 content), .trained user ok]
  | nothing (unstored : ∀ s user written, ¬ h.Stores i d s user written) : Puts h i d []

/-! ## 4. What a run puts on record -/

section

variable {s : Settings} {t : Target} {named : Option String} {p : Project} {c : Compiled}
  {interpreter outDir user : String} {written : Disk} {artifacts : List ArtifactReport}

theorem read_model (hgenerates : h.Generates i d s p c)
    (hwrite : writeArtifacts h.workingDirectory outDir p c d = (written, .ok artifacts)) :
    written.read h.workingDirectory
        (Path.join (userDirectory outDir p.user) ScriptName.model.file)
      = .ok c.model.text.toUTF8 := by
  have hname := Project.name_script_of_compile hgenerates.compiled
  have hmodel : c.model.name = .model := hname .model
  have hread := (read_of_writeArtifacts hmodel (hname .train) hwrite).2 _
    (Compiled.mem_files p c .model)
  rwa [hname .model] at hread

theorem read_model_record {directory content : String}
    (hread : d.read h.workingDirectory (Path.join directory ScriptName.model.file)
      = .ok content.toUTF8) (e : AuditEvent) :
    (h.record e d).read h.workingDirectory (Path.join directory ScriptName.model.file)
      = .ok content.toUTF8 :=
  (d.keeps_record h.workingDirectory h.home h.time e).read_join
    ScriptName.model.isEntryName_file (by decide) hread

theorem Stores.eq {s' : Settings} (hstores : h.Stores i d s' user written)
    (settled : (h.loadSettings i.settings d).result = .ok s)
    (hw : i.command.written? = some (t, named)) :
    ∃ p c artifacts, (h.prepare s t d).result = .ok (p, c) ∧
      writeArtifacts h.workingDirectory (named.getD s.outDir) p c d
        = (written, .ok artifacts) := by
  obtain ⟨p, c, t', named', artifacts, hgenerates, hw', -, hwrite⟩ := hstores
  cases settled.symm.trans hgenerates.binds.settled
  cases hw.symm.trans hw'
  exact ⟨p, c, artifacts, hgenerates.result_prepare (Command.target?_of_written? hw), hwrite⟩

/-- **Writing is put on record or leaves the record alone**, and it is put on record when all files
were written. -/
theorem compile_cases (settled : (h.loadSettings i.settings d).result = .ok s)
    (hw : i.command.written? = some (t, named)) (hplace : h.recordPlace? = some place) :
    (∃ p c artifacts written report, h.Generates i d s p c ∧
      writeArtifacts h.workingDirectory (named.getD s.outDir) p c d = (written, .ok artifacts) ∧
      (h.compile s t (named.getD s.outDir) d).2.result = .ok report ∧ report.user = p.user ∧
      (h.compile s t (named.getD s.outDir) d).1
        = h.record (.compiled p.user c.model.digest) written) ∨
    (∃ e, (h.compile s t (named.getD s.outDir) d).2.result = .error e) ∧
      (h.compile s t (named.getD s.outDir) d).1.bytes place = d.bytes place ∧
      ∀ s' user written, ¬ h.Stores i d s' user written := by
  have ht := Command.target?_of_written? hw
  rcases hresult : (h.compile s t (named.getD s.outDir) d).2.result with e | report
  · refine Or.inr ⟨⟨e, rfl⟩, ?_, fun s' user written hstores => ?_⟩
    · rw [disk_compile]
      rcases hprepare : (h.prepare s t d).result with e | ⟨p, c⟩
      · rfl
      · -- Some files may have been written, but none of them is the record.
        have hgenerates := generates_of_prepare_ok settled ht hprepare
        have hbytes := bytes_written hplace hgenerates (named.getD s.outDir)
        dsimp only
        rcases hwrite : writeArtifacts h.workingDirectory (named.getD s.outDir) p c d with
          ⟨written, fault | artifacts⟩
        · rw [hwrite] at hbytes
          exact hbytes
        · rw [(compile_of_stored h s d hprepare hwrite).1] at hresult
          cases hresult
    · obtain ⟨p, c, artifacts, hprepare, hwrite⟩ := hstores.eq settled hw
      rw [(compile_of_stored h s d hprepare hwrite).1] at hresult
      cases hresult
  · obtain ⟨p, c, artifacts, written, hprepare, hwrite, hdisk, rfl⟩ := exists_of_compile hresult
    exact Or.inl ⟨p, c, artifacts, written, _, generates_of_prepare_ok settled ht hprepare, hwrite,
      rfl, rfl, hdisk⟩

theorem train_disk (hquiet : ∀ l d, (h.programs.start l d).1 = d) :
    (LayerScript.train h.programs h.workingDirectory interpreter outDir user d).1 = d := by
  unfold LayerScript.train
  split
  · rfl
  · cases d.enter h.workingDirectory outDir with
    | error fault => rfl
    | ok directory =>
        have hdisk := hquiet ⟨interpreter, trainingArgument user, directory⟩ d
        dsimp only
        rcases hstart : h.programs.start ⟨interpreter, trainingArgument user, directory⟩ d with
          ⟨left, fault | run⟩
        · rw [hstart] at hdisk
          exact hdisk
        · rw [hstart] at hdisk
          exact hdisk

/-- Training goes well when the program is started and succeeds. -/
theorem isOk_train_iff :
    (LayerScript.train h.programs h.workingDirectory interpreter outDir user d).2.isOk = true ↔
      h.TrainsWell interpreter outDir user d := by
  unfold LayerScript.train TrainsWell
  by_cases hnul : interpreter.toList.contains '\x00' = true
  · rw [if_pos hnul]
    have hmem : '\x00' ∈ interpreter.toList := by simpa using hnul
    refine ⟨fun hok => ?_, fun hwell => absurd hmem hwell.1⟩
    cases hok
  · rw [if_neg hnul]
    have hmem : '\x00' ∉ interpreter.toList := by simpa using hnul
    rw [and_iff_right hmem]
    cases d.enter h.workingDirectory outDir with
    | error fault =>
        refine ⟨fun hok => ?_, fun ⟨_, _, henter, _⟩ => ?_⟩
        · cases hok
        · cases henter
    | ok directory =>
        dsimp only
        rcases hstart : h.programs.start ⟨interpreter, trainingArgument user, directory⟩ d with
          ⟨left, fault | run⟩
        · refine ⟨fun hok => ?_, fun ⟨_, _, henter, hrun, _⟩ => ?_⟩
          · cases hok
          · cases henter
            rw [hstart] at hrun
            cases hrun
        · dsimp only
          refine ⟨fun hok => ⟨directory, run, rfl, ?_, ?_⟩, fun ⟨_, _, henter, hrun, hending⟩ => ?_⟩
          · rw [hstart]
          · by_contra hending
            rw [if_neg hending] at hok
            cases hok
          · cases henter
            rw [hstart] at hrun
            cases hrun
            rw [if_pos hending]
            rfl

/-- Whether events account for what a run adds to the record. -/
def Accounts (h : Host) (i : Invocation) (d : Disk) (place : Location)
    (events : List AuditEvent) : Prop :=
  h.Puts i d events ∧ (h.answer i d).disk.bytes place
    = d.bytes place ++ (AuditEvent.lines (events.map (h.time, ·))).toUTF8

theorem accounts_nothing (hsame : (h.answer i d).disk.bytes place = d.bytes place)
    (unstored : ∀ s user written, ¬ h.Stores i d s user written) :
    h.Accounts i d place [] :=
  ⟨.nothing unstored, by
    rw [hsame, List.map_nil, AuditEvent.toUTF8_lines_nil, ByteArray.append_empty]⟩

theorem exists_accounts_compile (hplace : h.recordPlace? = some place)
    (settled : (h.loadSettings i.settings d).result = .ok s)
    (hcommand : i.command = .compile t named) (hcan : h.CanRecord (h.answer i d).disk) :
    ∃ events, h.Accounts i d place events := by
  have hw : i.command.written? = some (t, named) := by rw [hcommand]; rfl
  have hdisk : (h.answer i d).disk = (h.compile s t (named.getD s.outDir) d).1 := by
    change (h.run i d).1 = _
    rw [run_of_settled settled, hcommand, disk_perform_compile]
  rcases compile_cases settled hw hplace with
    ⟨p, c, artifacts, written, report, hgenerates, hwrite, -, -, hrecord⟩ |
    ⟨-, hsame, hunstored⟩
  · rw [hrecord] at hdisk
    have hmodel := read_model_record (read_model hgenerates hwrite)
      (.compiled p.user c.model.digest)
    have hwritten := bytes_written hplace hgenerates (named.getD s.outDir)
    rw [hwrite] at hwritten
    -- The record can be kept afterwards, and so it could be when the event was put on it.
    rw [hdisk] at hcan
    refine ⟨_, .compiled hcommand ⟨p, c, t, named, artifacts, hgenerates, hw, rfl, hwrite⟩
      (hdisk ▸ hmodel), ?_⟩
    rw [hdisk, bytes_record hplace hcan.of_record, hwritten, List.map_singleton,
      AuditEvent.toUTF8_lines_cons, AuditEvent.toUTF8_lines_nil, ByteArray.append_empty,
      Script.digest]
  · exact ⟨[], accounts_nothing (by rw [hdisk, hsame]) hunstored⟩

/-- A run that trains is accounted for by both, unless it stored nothing to train with. -/
theorem exists_accounts_train (hplace : h.recordPlace? = some place)
    (settled : (h.loadSettings i.settings d).result = .ok s) {interpreter : Option String}
    (hcommand : i.command = .train t named interpreter)
    (hquiet : ∀ l d, (h.programs.start l d).1 = d) (hcan : h.CanRecord (h.answer i d).disk) :
    ∃ events, h.Accounts i d place events := by
  have hw : i.command.written? = some (t, named) := by rw [hcommand]; rfl
  have hdisk : (h.answer i d).disk
      = (h.perform i.json s (.train t named interpreter) d).1 := by
    change (h.run i d).1 = _
    rw [run_of_settled settled, hcommand]
  rw [disk_perform_train] at hdisk
  rcases compile_cases settled hw hplace with
    ⟨p, c, artifacts, written, report, hgenerates, hwrite, hreport, huser, hrecord⟩ |
    ⟨⟨e, he⟩, hsame, hunstored⟩
  · rw [hreport, hrecord] at hdisk
    dsimp only at hdisk
    rw [train_disk hquiet, huser] at hdisk
    -- Two events, so the script is read past both, and the record could be kept before either.
    have hmodel := read_model_record (read_model_record (read_model hgenerates hwrite)
      (.compiled p.user c.model.digest))
    have hwritten := bytes_written hplace hgenerates (named.getD s.outDir)
    rw [hwrite] at hwritten
    rw [hdisk] at hcan
    refine ⟨_, .trained hcommand ⟨p, c, t, named, artifacts, hgenerates, hw, rfl, hwrite⟩
      (hdisk ▸ hmodel _) isOk_train_iff, ?_⟩
    rw [hdisk, bytes_record hplace hcan.of_record, bytes_record hplace hcan.of_record.of_record,
      hwritten, List.map_cons, List.map_singleton, AuditEvent.toUTF8_lines_cons,
      AuditEvent.toUTF8_lines_cons, AuditEvent.toUTF8_lines_nil, ByteArray.append_empty,
      ByteArray.append_assoc, Script.digest]
  · rw [he] at hdisk
    exact ⟨[], accounts_nothing (by rw [hdisk, hsame]) hunstored⟩

/-- A run that writes nothing and leaves the disk alone is accounted for by nothing. -/
theorem accounts_of_looking (settled : (h.loadSettings i.settings d).result = .ok s)
    (hw : i.command.written? = none) (hleft : (h.perform i.json s i.command d).1 = d) :
    h.Accounts i d place [] := by
  have hdisk : (h.answer i d).disk = d := by
    change (h.run i d).1 = d
    rw [run_of_settled settled, hleft]
  refine accounts_nothing (by rw [hdisk]) fun s user written hstores => ?_
  obtain ⟨_, _, t, named, _, -, hwritten, -⟩ := hstores
  cases hw.symm.trans hwritten

/-- **What a run adds to the record is accounted for**, if it sends nothing, programs leave the
disk alone and the record can be kept. -/
theorem exists_accounts (hplace : h.recordPlace? = some place)
    (hquiet : ∀ l d, (h.programs.start l d).1 = d)
    (hunsent : ¬ (i.command.sends = true ∧ (h.answer i d).printed.exit = 0))
    (hcan : h.CanRecord (h.answer i d).disk) : ∃ events, h.Accounts i d place events := by
  rcases hload : (h.loadSettings i.settings d).result with e | s
  · -- Without settings nothing is stored, and the disk is the one that was found.
    have hdisk : (h.answer i d).disk = d := by
      change (h.run i d).1 = d
      rw [run_of_unsettled hload]
    refine ⟨[], accounts_nothing (by rw [hdisk]) fun s user written hstores => ?_⟩
    obtain ⟨_, _, _, _, _, hgenerates, -⟩ := hstores
    cases hload.symm.trans hgenerates.binds.settled
  · cases hcommand : i.command with
    | compile t named => exact exists_accounts_compile hplace hload hcommand hcan
    | train t named interpreter =>
        exact exists_accounts_train hplace hload hcommand hquiet hcan
    | submit payload named address =>
        rcases hresult : (h.perform i.json s i.command d).2.result with e | report
        · rw [hcommand] at hresult
          have hfails : ∃ e, (h.perform i.json s (.submit payload named address) d).2.result
              = .error e := ⟨e, hresult⟩
          have hleft : (h.perform i.json s (.submit payload named address) d).1 = d :=
            (perform_of_endsEarly hfails).1
          exact ⟨[], accounts_of_looking hload (by rw [hcommand]; rfl) (by rw [hcommand, hleft])⟩
        · -- A request that was answered to its end is one that was sent.
          refine absurd ⟨by rw [hcommand]; rfl, ?_⟩ hunsent
          rw [h.printed_answer, run_of_settled hload, hresult]
          rfl
    | emit | order | trainBody | layers =>
        refine ⟨[], accounts_of_looking hload (by rw [hcommand]; rfl) ?_⟩
        rw [hcommand]
        exact disk_perform_of_looks h i.json s d trivial

end

end Host

end LayerScript
