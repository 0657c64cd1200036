/-
`Proofs/Storage.lean` -- what is on a disk after the files of a request were written, and what
when they were not.

Making directories changes no file, and a file that cannot be written is left alone, so what a
request leaves behind is said by how far it got: the files it wrote hold their new contents, and
every other file of the disk is as it was (`Disk.Gains`). How far it gets is decided as soon as its
directory is there. From then on every place in that directory can be looked at, and what is
written under one name has no part in whether another can be (`Disk.write_join_eq`).
-/
import LayerScript.Proofs.Isolation

set_option autoImplicit false

namespace LayerScript

open Disk LayerScript.Path

/-! ## 1. Files -/

namespace Disk

variable {d d' made : Disk} {workingDirectory l m : Location} {path text directory name : String}

/-- The content of the file at a location, if there is one. -/
def file? (d : Disk) (l : Location) : Option ByteArray :=
  match d.at? l with
  | some (.file content) => some content
  | _ => none

theorem file?_eq_some_iff {content : ByteArray} :
    d.file? l = some content ↔ d.at? l = some (.file content) := by
  unfold file?
  rcases d.at? l with _ | (_ | held) <;> simp

theorem file?_congr (h : d.at? l = d'.at? l) : d.file? l = d'.file? l := by
  rw [file?, file?, h]

/-- Creating directories changes no file, and puts none where there was none. -/
theorem file?_createDirectories (d : Disk) (workingDirectory : Location) (path : String)
    (l : Location) : (d.createDirectories workingDirectory path).1.file? l = d.file? l := by
  have huniform : Uniform Eq {change | change.2 = .directory}
      fun d => d.createDirectories workingDirectory path :=
    uniform_createDirectories (fun _ _ _ _ h _ _ => by rw [h])
      (fun _ _ _ => ⟨fun h => by rw [h], fun h _ => by rw [h]⟩) fun _ _ => rfl
  obtain ⟨changes, hdirectories, hputs, -⟩ := huniform d d rfl
  have hkeeps := keeps_createDirectories d workingDirectory path
  rcases at?_puts d l changes with hsame | ⟨e, he, hput⟩
  · exact file?_congr (by rw [hputs, hsame])
  · cases hdirectories _ he
    rw [← hputs] at hput
    -- A directory has been put there, so no file was there before.
    rcases hat : d.at? l with _ | (_ | content)
    · simp only [file?, hput, hat]
    · simp only [file?, hput, hat]
    · rw [hkeeps l _ hat (Or.inr (Set.notMem_empty l))] at hput
      cases hput

/-- A file that was written holds the text, and every other file is as it was. -/
theorem file?_of_write (h : d.write workingDirectory path text = .ok d') (l : Location) :
    d'.file? l
      = if l = locationOf workingDirectory path then some text.toUTF8 else d.file? l := by
  obtain ⟨m, old, hlocate, hold, rfl⟩ := exists_of_alter h
  rw [← eq_locationOf_of_locate hlocate]
  split
  · rename_i heq
    subst heq
    have hroot : l ≠ [] := by
      rintro rfl
      rw [at?_root] at hold
      cases old <;> cases hold
    exact file?_eq_some_iff.mpr (at?_put_self d _ hroot)
  · rename_i hne
    exact file?_congr (at?_put_of_ne d _ hne)

/-- Whether the files of some names in a directory hold these texts, and every other file of a
disk is as on an earlier one. -/
structure Gains (workingDirectory : Location) (directory : String)
    (files : List (String × String)) (d after : Disk) : Prop where
  new : ∀ file ∈ files,
    after.file? (locationOf workingDirectory directory ++ [file.1]) = some file.2.toUTF8
  same : ∀ l, (∀ file ∈ files, l ≠ locationOf workingDirectory directory ++ [file.1]) →
    after.file? l = d.file? l

theorem Gains.nil (h : ∀ l, d'.file? l = d.file? l) :
    Gains workingDirectory directory [] d d' :=
  ⟨fun _ hfile => absurd hfile List.not_mem_nil, fun l _ => h l⟩

/-- A file is written before others of other names. -/
theorem Gains.cons {files : List (String × String)} (hname : Step.IsEntryName name)
    (hother : name ∉ files.map (·.1))
    (hwrite : d.write workingDirectory (join directory name) text = .ok made)
    (h : Gains workingDirectory directory files made d') :
    Gains workingDirectory directory ((name, text) :: files) d d' := by
  have hfirst := file?_of_write hwrite
  rw [locationOf_join _ _ hname] at hfirst
  constructor
  · rw [List.forall_mem_cons]
    refine ⟨?_, h.new⟩
    rw [h.same, hfirst, if_pos rfl]
    intro file hfile heq
    have hsame : name = file.1 := by simpa using heq
    exact hother (List.mem_map.mpr ⟨file, hfile, hsame.symm⟩)
  · intro l hl
    rw [List.forall_mem_cons] at hl
    rw [h.same l hl.2, hfirst, if_neg hl.1]

/-- What was gained on a disk with the same files was gained on this one. -/
theorem Gains.of_file?_eq {files : List (String × String)} (hsame : ∀ l, made.file? l = d.file? l)
    (h : Gains workingDirectory directory files made d') :
    Gains workingDirectory directory files d d' :=
  ⟨h.new, fun l hl => (h.same l hl).trans (hsame l)⟩

/-! ## 2. Writing in a directory -/

/-- A name in a directory that is there can be looked up, whether anything bears it or not. -/
theorem locate_join (hname : Step.IsEntryName name) (hshort : (Step.into name).isTooLong = false)
    (hwritten : writtenFault (join directory name) = none)
    (hthere : d.isDirectory (startOf workingDirectory directory) (stepsOf directory.toList) = true) :
    d.locate workingDirectory (join directory name)
      = .ok (locationOf workingDirectory directory ++ [name], false) := by
  obtain ⟨hfollow, hkind⟩ := isDirectory_iff.mp hthere
  refine locate_eq_ok_iff.mpr ⟨hwritten, _, ofText_join directory hname, ?_, rfl⟩
  have hlast : d.follow (walk (startOf workingDirectory directory) (stepsOf directory.toList))
      [.into name] = .ok (locationOf workingDirectory directory ++ [name]) :=
    follow_cons_eq_ok_iff.mpr ⟨at?_eq_directory_iff.mpr hkind, hshort, rfl⟩
  have hstart : Path.start ⟨directory.toList.head? == some '/',
      stepsOf directory.toList ++ [.into name], false⟩ workingDirectory
        = startOf workingDirectory directory := rfl
  rw [hstart, follow_append, hfollow]
  exact hlast

/-- Why a file cannot be written, if it cannot. -/
def writeFault? (d : Disk) (workingDirectory : Location) (path text : String) : Option DiskFault :=
  match d.write workingDirectory path text with
  | .ok _ => none
  | .error fault => some fault

/-- A name in a directory that is there can be written, unless its path is refused as it is
written or a directory bears the name. -/
theorem writeFault?_join (hname : Step.IsEntryName name)
    (hshort : (Step.into name).isTooLong = false)
    (hthere : d.isDirectory (startOf workingDirectory directory) (stepsOf directory.toList) = true) :
    d.writeFault? workingDirectory (join directory name) text
      = match writtenFault (join directory name) with
        | some fault => some fault
        | none =>
          if d.kind? (locationOf workingDirectory directory ++ [name]) = some true then
            some .isADirectory
          else none := by
  rw [writeFault?, write_eq]
  cases hwritten : writtenFault (join directory name) with
  | some fault =>
      unfold locate
      rw [hwritten]
  | none =>
      rw [locate_join hname hshort hwritten hthere]
      dsimp only
      by_cases hdirectory :
          d.kind? (locationOf workingDirectory directory ++ [name]) = some true
      · rw [if_pos hdirectory, if_pos hdirectory]
      · rw [if_neg hdirectory, if_neg hdirectory]

/-- **What was written under one name has no part in whether another can be.** -/
theorem writeFault?_of_write {other text' : String} (hname : Step.IsEntryName name)
    (hshort : (Step.into name).isTooLong = false) (hother : Step.IsEntryName other)
    (hne : name ≠ other)
    (hthere : d.isDirectory (startOf workingDirectory directory) (stepsOf directory.toList) = true)
    (hwrite : d.write workingDirectory (join directory other) text' = .ok made) :
    made.writeFault? workingDirectory (join directory name) text
      = d.writeFault? workingDirectory (join directory name) text := by
  have hkeeps := keeps_of_alter_join hother hwrite
  obtain ⟨m, old, hlocate, -, hmade⟩ := exists_of_alter hwrite
  have hkind : made.kind? (locationOf workingDirectory directory ++ [name])
      = d.kind? (locationOf workingDirectory directory ++ [name]) := by
    rw [kind?, kind?, hmade, at?_put_of_ne]
    rw [eq_locationOf_of_locate hlocate, locationOf_join _ _ hother]
    simpa using hne
  rw [writeFault?_join hname hshort (hkeeps.isDirectory hthere),
    writeFault?_join hname hshort hthere, hkind]

/-- A directory that was made on the way to a name is there. -/
theorem isDirectory_of_createDirectories (hname : Step.IsEntryName name)
    (h : d.createDirectories workingDirectory (join directory name) = (made, .ok ())) :
    made.isDirectory (startOf workingDirectory (join directory name))
      (stepsOf (join directory name).toList) = true := by
  cases hwritten : writtenFault (join directory name) with
  | some fault =>
      rw [createDirectories_of_refused hwritten] at h
      cases h
  | none =>
      rw [createDirectories_eq_reach hwritten] at h
      rw [stepsOf_join directory hname, reach_snoc] at *
      split at h
      · split at h
        · cases h
        · exact isDirectory_of_ensureDirectory h
      · exact isDirectory_of_ensureDirectory h

end Disk

/-! ## 3. Writing files -/

section

variable {workingDirectory : Location} {directory : String} {d made : Disk}
  {files : List (String × String)}

/-- How far the writing of files in a directory gets, and what it leaves. -/
inductive Written (workingDirectory : Location) (directory : String)
    (files : List (String × String)) (d : Disk) : Disk × Except StorageError Unit → Prop
  | all {after : Disk}
      (writable : ∀ file ∈ files,
        d.writeFault? workingDirectory (join directory file.1) file.2 = none)
      (gains : Gains workingDirectory directory files d after) :
      Written workingDirectory directory files d (after, .ok ())
  /-- The files in front of the first that cannot be written are written, and no others. -/
  | upTo {after : Disk} {front back : List (String × String)} {name text : String}
      {fault : DiskFault}
      (split : files = front ++ (name, text) :: back)
      (writable : ∀ file ∈ front,
        d.writeFault? workingDirectory (join directory file.1) file.2 = none)
      (refused : d.writeFault? workingDirectory (join directory name) text = some fault)
      (gains : Gains workingDirectory directory front d after) :
      Written workingDirectory directory files d (after, .error ⟨join directory name, fault⟩)

/-- **Files are written one after another up to the first that cannot be.** -/
theorem written_writeFiles (hnames : ∀ file ∈ files, Step.IsEntryName file.1)
    (hshort : ∀ file ∈ files, (Step.into file.1).isTooLong = false)
    (hnodup : (files.map (·.1)).Nodup)
    (hthere : d.isDirectory (startOf workingDirectory directory)
      (stepsOf directory.toList) = true) :
    Written workingDirectory directory files d
      (writeFiles workingDirectory (filesIn directory files) d) := by
  induction files generalizing d with
  | nil => exact .all (by simp) (Gains.nil fun _ => rfl)
  | cons file rest ih =>
      obtain ⟨name, text⟩ := file
      rw [List.forall_mem_cons] at hnames hshort
      rw [List.map_cons, List.nodup_cons] at hnodup
      rw [filesIn_cons, writeFiles]
      cases hwrite : d.write workingDirectory (join directory name) text with
      | error fault =>
          have hrefused : d.writeFault? workingDirectory (join directory name) text
              = some fault := by
            rw [writeFault?, hwrite]
          exact .upTo (List.nil_append _).symm (by simp) hrefused (Gains.nil fun _ => rfl)
      | ok made =>
          have hfirst : d.writeFault? workingDirectory (join directory name) text = none := by
            rw [writeFault?, hwrite]
          -- The rest can be written now as far as it could be before.
          have hsame : ∀ file ∈ rest,
              made.writeFault? workingDirectory (join directory file.1) file.2
                = d.writeFault? workingDirectory (join directory file.1) file.2 := by
            intro file hfile
            refine writeFault?_of_write (hnames.2 file hfile) (hshort.2 file hfile) hnames.1 ?_
              hthere hwrite
            intro heq
            exact hnodup.1 (List.mem_map.mpr ⟨file, hfile, heq⟩)
          have hrest := ih hnames.2 hshort.2 hnodup.2
            ((keeps_of_alter_join hnames.1 hwrite).isDirectory hthere)
          dsimp only
          generalize writeFiles workingDirectory (filesIn directory rest) made = out at hrest
          cases hrest with
          | all hwritable hgains =>
              refine .all (List.forall_mem_cons.mpr ⟨hfirst, fun file hfile => ?_⟩)
                (hgains.cons hnames.1 hnodup.1 hwrite)
              rw [← hsame file hfile, hwritable file hfile]
          | @upTo after front back other text' fault hsplit hwritable hrefused hgains =>
              have hfront : ∀ file ∈ front, file ∈ rest := by
                intro file hfile
                rw [hsplit]
                exact List.mem_append_left _ hfile
              have hother : (other, text') ∈ rest := by
                rw [hsplit]
                exact List.mem_append_cons_self
              have hsplit' : (name, text) :: rest
                  = ((name, text) :: front) ++ (other, text') :: back := by
                rw [hsplit, List.cons_append]
              refine .upTo hsplit' (List.forall_mem_cons.mpr ⟨hfirst, fun file hfile => ?_⟩) ?_
                (hgains.cons hnames.1 (fun hin => hnodup.1 ?_) hwrite)
              · rw [← hsame file (hfront file hfile), hwritable file hfile]
              · rw [← hsame _ hother, hrefused]
              · obtain ⟨file, hfile, heq⟩ := List.mem_map.mp hin
                exact List.mem_map.mpr ⟨file, hfront file hfile, heq⟩

end

/-! ## 4. The files of a request -/

/-- The digest of bytes, as it is written. -/
def Digest.ofBytes (bytes : ByteArray) : String :=
  String.ofList ((digest bytes.toList).flatMap wordText)

/-- What is reported about a script is the digest of what was written. -/
theorem Script.report_of_read {workingDirectory : Location} {directory : String} {d : Disk}
    (s : Script)
    (h : d.read workingDirectory (join directory s.name.file) = .ok s.text.toUTF8) :
    ∃ bytes, d.read workingDirectory (s.report directory).path = .ok bytes ∧
      (s.report directory).sha256 = Digest.ofBytes bytes :=
  ⟨s.text.toUTF8, h, rfl⟩

/-- What writing the files of a request comes to on a disk: where it ends, and what it leaves
there. -/
inductive StoreOutcome (workingDirectory : Location) (outDir : String) (p : Project) (c : Compiled)
    (d : Disk) : Disk × Except StorageError (List ArtifactReport) → Prop
  /-- The directory of the user cannot be made, and no file is changed. -/
  | noDirectory {after : Disk} {fault : DiskFault}
      (refused : d.createDirectories workingDirectory (userDirectory outDir p.user)
        = (after, .error fault))
      (gains : Gains workingDirectory (userDirectory outDir p.user) [] d after) :
      StoreOutcome workingDirectory outDir p c d
        (after, .error ⟨userDirectory outDir p.user, fault⟩)
  /-- It can, and one of the files is the first that cannot be written there. Those in front of
  it are, and no others. -/
  | upTo {made after : Disk} {front back : List (String × String)} {name text : String}
      {fault : DiskFault}
      (prepared : d.createDirectories workingDirectory (userDirectory outDir p.user)
        = (made, .ok ()))
      (split : c.files p = front ++ (name, text) :: back)
      (writable : ∀ file ∈ front, made.writeFault? workingDirectory
        (join (userDirectory outDir p.user) file.1) file.2 = none)
      (refused : made.writeFault? workingDirectory
        (join (userDirectory outDir p.user) name) text = some fault)
      (gains : Gains workingDirectory (userDirectory outDir p.user) front d after) :
      StoreOutcome workingDirectory outDir p c d
        (after, .error ⟨join (userDirectory outDir p.user) name, fault⟩)
  /-- All files can be written, and are, and what is reported about the scripts is so. -/
  | all {made after : Disk} {reports : List ArtifactReport}
      (prepared : d.createDirectories workingDirectory (userDirectory outDir p.user)
        = (made, .ok ()))
      (writable : ∀ file ∈ c.files p, made.writeFault? workingDirectory
        (join (userDirectory outDir p.user) file.1) file.2 = none)
      (gains : Gains workingDirectory (userDirectory outDir p.user) (c.files p) d after)
      (readable : ∀ file ∈ c.files p, after.read workingDirectory
        (join (userDirectory outDir p.user) file.1) = .ok file.2.toUTF8)
      (reported : reports.map (fun r => (r.path, r.statements))
        = [(join (userDirectory outDir p.user) "model.py", c.model.statements.length),
            (join (userDirectory outDir p.user) "train.py", c.trainer.statements.length)])
      (digests : ∀ r ∈ reports, ∃ bytes, after.read workingDirectory r.path = .ok bytes ∧
        r.sha256 = Digest.ofBytes bytes) :
      StoreOutcome workingDirectory outDir p c d (after, .ok reports)

section

variable {workingDirectory : Location} {outDir : String} {d : Disk} {p : Project} {c : Compiled}
  {dialect : Dialect} {options : Options}

/-- The files of a request are the two scripts and the data set. -/
theorem Compiled.files_eq (hc : p.compile dialect options = .ok c) :
    c.files p = [("model.py", c.model.text), ("train.py", c.trainer.text),
      ("dataset.json", p.dataset.compact)] := by
  have hmodel : c.model.name = .model := Project.name_script_of_compile hc .model
  have htrainer : c.trainer.name = .train := Project.name_script_of_compile hc .train
  rw [files, hmodel, htrainer]
  rfl

/-- Once the directory of the user is there, the files decide. -/
theorem storeOutcome_storeFiles (huser : Step.IsEntryName p.user)
    (hc : p.compile dialect options = .ok c) {made : Disk}
    (hmake : d.createDirectories workingDirectory (userDirectory outDir p.user) = (made, .ok ())) :
    StoreOutcome workingDirectory outDir p c d
      (storeFiles workingDirectory (userDirectory outDir p.user) p c made) := by
  have hfiles := Compiled.files_eq hc
  have hshort : ∀ file ∈ c.files p, (Step.into file.1).isTooLong = false := by
    rw [hfiles]
    simp only [List.forall_mem_cons]
    exact ⟨by decide, by decide, by decide, by simp⟩
  have hnodup : ((c.files p).map (·.1)).Nodup := by
    rw [hfiles]
    simp only [List.map_cons, List.map_nil]
    decide
  have hthere : made.isDirectory (startOf workingDirectory (userDirectory outDir p.user))
      (stepsOf (userDirectory outDir p.user).toList) = true :=
    isDirectory_of_createDirectories huser hmake
  have hsame := file?_createDirectories d workingDirectory (userDirectory outDir p.user)
  rw [hmake] at hsame
  have hwritten := written_writeFiles Compiled.isEntryName_of_mem_files hshort hnodup hthere
  rw [storeFiles, artifactFiles_eq, andThen]
  rcases hwrite : writeFiles workingDirectory
      (filesIn (userDirectory outDir p.user) (c.files p)) made with ⟨after, e | _⟩
  · rw [hwrite] at hwritten
    cases hwritten with
    | upTo hsplit hwritable hrefused hgains =>
        exact .upTo hmake hsplit hwritable hrefused (hgains.of_file?_eq hsame)
  · rw [hwrite] at hwritten
    cases hwritten with
    | all hwritable hgains =>
        have hread := read_of_writeFiles Compiled.isEntryName_of_mem_files hnodup hwrite
        refine .all hmake hwritable (hgains.of_file?_eq hsame) hread ?_ ?_
        · have hmodel : c.model.name = .model := Project.name_script_of_compile hc .model
          have htrainer : c.trainer.name = .train := Project.name_script_of_compile hc .train
          simp only [List.map_cons, List.map_nil, Script.report, hmodel, htrainer]
          rfl
        · have hmodel := hread (c.model.name.file, c.model.text) (c.mem_files p .model)
          have htrainer := hread (c.trainer.name.file, c.trainer.text) (c.mem_files p .train)
          simp only [List.forall_mem_cons]
          exact ⟨c.model.report_of_read hmodel, c.trainer.report_of_read htrainer, by simp⟩

/-- **Writing the files of a request ends in one of these ways.** -/
theorem storeOutcome_writeArtifacts (huser : Step.IsEntryName p.user)
    (hc : p.compile dialect options = .ok c) (workingDirectory : Location) (outDir : String)
    (d : Disk) :
    StoreOutcome workingDirectory outDir p c d (writeArtifacts workingDirectory outDir p c d) := by
  rw [writeArtifacts_eq, andThen]
  rcases hmake : d.createDirectories workingDirectory (userDirectory outDir p.user) with
    ⟨made, fault | _⟩
  · have hsame := file?_createDirectories d workingDirectory (userDirectory outDir p.user)
    rw [hmake] at hsame
    exact .noDirectory hmake (Gains.nil hsame)
  · exact storeOutcome_storeFiles huser hc hmake

/-- **A request writes its files or says which it could not write**, and the disk shows how far it
got. It gets as far whatever the files on the disk hold. -/
theorem artifacts_are_stored {payload : String} {user : Option String}
    (hp : Project.ofPayload payload user = .ok p) (hc : p.compile dialect options = .ok c)
    (workingDirectory : Location) (outDir : String) (d : Disk) :
    c.files p = [("model.py", c.model.text), ("train.py", c.trainer.text),
      ("dataset.json", p.dataset.compact)] ∧
    StoreOutcome workingDirectory outDir p c d (writeArtifacts workingDirectory outDir p c d) ∧
    ∀ d' : Disk, d.SameShape d' →
      (writeArtifacts workingDirectory outDir p c d).2
        = (writeArtifacts workingDirectory outDir p c d').2 := by
  have huser := isEntryName_of_isUser (Project.isUser_of_ofPayload hp)
  have hinside := staysInside_writeArtifacts workingDirectory outDir huser c
  exact ⟨Compiled.files_eq hc, storeOutcome_writeArtifacts huser hc workingDirectory outDir d,
    fun d' hshape => (hinside.blind d d' hshape).1⟩

/-- A disk with an old model on it, and a directory where the training script should be. -/
def busyDisk : Disk := ⟨[
  (["out"], .directory),
  (["out", "alice"], .directory),
  (["out", "alice", "model.py"], .file "old".toUTF8),
  (["out", "alice", "train.py"], .directory)]⟩

theorem artifacts_are_stored_busy :
    ∃ p c, Project.ofPayload chainPayload (some "alice") = .ok p ∧
      p.compile .tensorflow chainOptions = .ok c ∧
      (writeArtifacts [] "out" p c busyDisk).2 = .error ⟨"out/alice/train.py", .isADirectory⟩ ∧
      StoreOutcome [] "out" p c busyDisk (writeArtifacts [] "out" p c busyDisk) := by
  have hrun : ∃ p c, Project.ofPayload chainPayload (some "alice") = .ok p ∧
      p.compile .tensorflow chainOptions = .ok c ∧
      (writeArtifacts [] "out" p c busyDisk).2
        = .error ⟨"out/alice/train.py", .isADirectory⟩ :=
    Project.exists_of_run (fun p c => (writeArtifacts [] "out" p c busyDisk).2)
      (by decide +kernel)
  obtain ⟨p, c, hp, hc, hrefused⟩ := hrun
  exact ⟨p, c, hp, hc, hrefused, (artifacts_are_stored hp hc [] "out" busyDisk).2.1⟩

end

end LayerScript
