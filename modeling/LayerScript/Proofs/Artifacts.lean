/-
`Proofs/Artifacts.lean` -- the files of a request can be read back.

The scripts and the data set of a request are written one after another into one directory,
and afterwards the request is put on record in another file. All of them have names of their
own, so wherever the two directories are, none of them is written over
(`read_of_writeArtifacts`, `Disk.keeps_record`).
-/
import LayerScript.Artifacts
import LayerScript.Audit
import LayerScript.Proofs.Disk.Access
import LayerScript.Proofs.Scripts

set_option autoImplicit false

namespace LayerScript

variable {d d' : Disk} {workingDirectory : Location} {directory : String}

/-! ## 1. Files in a directory -/

/-- Files of a directory, given by their names. -/
def filesIn (directory : String) (files : List (String × String)) : List (String × String) :=
  files.map fun (name, text) => (Path.join directory name, text)

theorem filesIn_cons (directory : String) (file : String × String)
    (rest : List (String × String)) :
    filesIn directory (file :: rest)
      = (Path.join directory file.1, file.2) :: filesIn directory rest := rfl

/-- All files were written when the first was, and then the rest. -/
theorem writeFiles_cons_eq_ok_iff {path text : String} {rest : List (String × String)} :
    writeFiles workingDirectory ((path, text) :: rest) d = (d', .ok ()) ↔
      ∃ made, d.write workingDirectory path text = .ok made ∧
        writeFiles workingDirectory rest made = (d', .ok ()) := by
  rw [writeFiles]
  cases d.write workingDirectory path text with
  | error fault => simp
  | ok made => simp

/-- Writing files touches only places of their names, also when it ends early. -/
theorem keeps_writeFiles (workingDirectory : Location) (directory : String)
    (files : List (String × String)) (hnames : ∀ file ∈ files, Step.IsEntryName file.1) (d : Disk) :
    Disk.Keeps (Disk.bearing (files.map (·.1))) d
      (writeFiles workingDirectory (filesIn directory files) d).1 := by
  induction files generalizing d with
  | nil => exact Disk.Keeps.refl _ _
  | cons file rest ih =>
      rw [List.forall_mem_cons] at hnames
      rw [filesIn_cons, writeFiles]
      cases hwrite : d.write workingDirectory (Path.join directory file.1) file.2 with
      | error fault => exact Disk.Keeps.refl _ _
      | ok made =>
          have hfirst := Disk.keeps_of_alter_join hnames.1 hwrite
          exact (hfirst.mono (Disk.bearing_mono (by simp))).trans
            ((ih hnames.2 made).mono (Disk.bearing_mono (by simp)))

/-- **All files that were written can be read**, when no two have the same name. -/
theorem read_of_writeFiles {files : List (String × String)}
    (hnames : ∀ file ∈ files, Step.IsEntryName file.1) (hnodup : (files.map (·.1)).Nodup)
    (h : writeFiles workingDirectory (filesIn directory files) d = (d', .ok ())) :
    ∀ file ∈ files,
      d'.read workingDirectory (Path.join directory file.1) = .ok file.2.toUTF8 := by
  induction files generalizing d with
  | nil => exact fun _ hfile => absurd hfile List.not_mem_nil
  | cons first rest ih =>
      rw [List.forall_mem_cons] at hnames
      rw [List.map_cons, List.nodup_cons] at hnodup
      rw [filesIn_cons] at h
      obtain ⟨made, hwrite, hrest⟩ := writeFiles_cons_eq_ok_iff.mp h
      intro file hfile
      rcases List.mem_cons.mp hfile with rfl | hfile
      · have hkeeps := keeps_writeFiles workingDirectory directory rest hnames.2 made
        rw [hrest] at hkeeps
        exact hkeeps.read_join hnames.1 hnodup.1 (Disk.read_of_write hwrite)
      · exact ih hnames.2 hnodup.2 hrest file hfile

/-! ## 2. The files of a request -/

/-- One of the scripts of a project. -/
def Compiled.script (c : Compiled) : ScriptName → Script
  | .model => c.model
  | .train => c.trainer

/-- Scripts are generated under their names. -/
theorem Project.name_script_of_compile {p : Project} {dialect : Dialect} {options : Options}
    {c : Compiled} (h : p.compile dialect options = .ok c) (name : ScriptName) :
    (c.script name).name = name := by
  obtain ⟨o, model, -, hmodel, rfl⟩ := Project.compile_eq_ok_iff.mp h
  cases name with
  | train => rfl
  | model =>
      obtain ⟨layers, -, hmodel⟩ := bind_eq_ok_iff.mp hmodel
      cases hmodel
      rfl

/-- The files of a request by their names. -/
def Compiled.files (p : Project) (c : Compiled) : List (String × String) :=
  [(c.model.name.file, c.model.text), (c.trainer.name.file, c.trainer.text),
    (datasetFile, p.dataset.compact)]

/-- They are what is written into the directory of a request. -/
theorem artifactFiles_eq (directory : String) (p : Project) (c : Compiled) :
    artifactFiles directory p c = filesIn directory (c.files p) := rfl

/-- Each script is among the files. -/
theorem Compiled.mem_files (p : Project) (c : Compiled) (name : ScriptName) :
    ((c.script name).name.file, (c.script name).text) ∈ c.files p := by
  cases name with
  | model => exact List.mem_cons_self
  | train => exact List.mem_cons_of_mem _ List.mem_cons_self

/-- The names of files lead into a directory. -/
theorem ScriptName.isEntryName_file (name : ScriptName) : Step.IsEntryName name.file := by
  cases name <;> exact ⟨by decide, by decide⟩

theorem isEntryName_datasetFile : Step.IsEntryName datasetFile :=
  ⟨by decide, by decide⟩

/-- The names of the files of a request lead into a directory. -/
theorem Compiled.isEntryName_of_mem_files {p : Project} {c : Compiled} :
    ∀ file ∈ c.files p, Step.IsEntryName file.1 := by
  simp only [files, List.forall_mem_cons]
  exact ⟨c.model.name.isEntryName_file, c.trainer.name.isEntryName_file,
    isEntryName_datasetFile, fun _ h => absurd h List.not_mem_nil⟩

/-- **Artifacts that were written can be read**, and what is reported about the scripts is
their digests. -/
theorem read_of_writeArtifacts {p : Project} {c : Compiled} {outDir : String}
    {reports : List ArtifactReport} (hmodel : c.model.name = .model)
    (htrainer : c.trainer.name = .train)
    (h : writeArtifacts workingDirectory outDir p c d = (d', .ok reports)) :
    reports = [c.model.report (userDirectory outDir p.user),
        c.trainer.report (userDirectory outDir p.user)] ∧
      ∀ file ∈ c.files p,
        d'.read workingDirectory (Path.join (userDirectory outDir p.user) file.1)
          = .ok file.2.toUTF8 := by
  have hnodup : ((c.files p).map (·.1)).Nodup := by
    simp only [Compiled.files, List.map_cons, hmodel, htrainer]
    decide
  unfold writeArtifacts at h
  simp only [artifactFiles_eq] at h
  rcases hmake : d.createDirectories workingDirectory (userDirectory outDir p.user) with
    ⟨prepared, fault | _⟩
  · rw [hmake] at h
    cases h
  · rw [hmake] at h
    rcases hwrite : writeFiles workingDirectory
        (filesIn (userDirectory outDir p.user) (c.files p)) prepared with ⟨written, e | _⟩
    · simp [hwrite] at h
    · simp only [hwrite] at h
      cases h
      exact ⟨rfl, read_of_writeFiles Compiled.isEntryName_of_mem_files hnodup hwrite⟩

/-- Putting something on record touches only the record. -/
theorem Disk.keeps_record (d : Disk) (workingDirectory : Location) (home : Option String)
    (time : Nat) (e : AuditEvent) :
    Disk.Keeps (Disk.bearing ["audit.jsonl"]) d (d.record workingDirectory home time e) := by
  unfold record
  cases home with
  | none => exact Keeps.refl _ _
  | some home =>
      have hmade := (d.keeps_createDirectories workingDirectory (configDirectory home)).mono
        (Set.empty_subset (bearing ["audit.jsonl"]))
      dsimp only
      split
      · rename_i happend
        exact hmade.trans (keeps_of_alter_join ⟨by decide, by decide⟩ happend)
      · exact hmade

end LayerScript
