/-
`Proofs/Launch.lean` -- what the program that trains is given.

Training writes the files of a request and starts a program on one of them. The program is started
in the directory for all requests and given the path of the training script from there, so one text
has three uses: the name of the user is a directory, is found in the script, and is the beginning of
an argument. What makes it a directory is that it is one step of a path, and that is all that it
takes for the argument to lead to the script that was just written (`Launch.RunsScript`).

It is not all that it takes to be an argument. A dash may stand in the name of a user, also in front,
and a program takes an argument with a dash in front for an option. The digest that a payload
without a user goes by has no dash.
-/
import LayerScript.Proofs.Commands
import LayerScript.Proofs.Encoding
import LayerScript.Proofs.Storage

set_option autoImplicit false

namespace LayerScript

/-! ## 1. Paths from a directory -/

namespace Step.IsEntryName

variable {name : String}

/-- The name of something ends, and not in a slash. -/
theorem exists_getLast? (h : IsEntryName name) : ∃ c, name.toList.getLast? = some c ∧ c ≠ '/' := by
  cases hlast : name.toList.getLast? with
  | none =>
      have hinto := h.into
      rw [List.getLast?_eq_none_iff.mp hlast] at hinto
      cases hinto
  | some c =>
      refine ⟨c, rfl, ?_⟩
      rintro rfl
      exact h.no_slash (List.mem_of_getLast? hlast)

/-- A path that begins with it starts where the program was started. -/
theorem startOf (h : IsEntryName name) (workingDirectory : Location) :
    Path.startOf workingDirectory name = workingDirectory := by
  unfold Path.startOf
  rw [if_neg]
  rw [beq_iff_eq]
  exact fun hhead => h.no_slash (List.mem_of_mem_head? hhead)

/-- It is a path of one step. -/
theorem stepsOf (h : IsEntryName name) : Path.stepsOf name.toList = [.into name] := by
  rw [Path.stepsOf, Text.split_of_not_mem h.no_slash, List.filterMap_cons, h.into]
  rfl

end Step.IsEntryName

namespace Path

variable {directory user name : String}

/-- What is in a directory that is named by its user is behind a slash. -/
theorem join_of_isEntryName (h : Step.IsEntryName user) (name : String) :
    join user name = user ++ "/" ++ name := by
  obtain ⟨c, hlast, hc⟩ := h.exists_getLast?
  rw [join, hlast]
  exact if_neg hc

/-- A longer path ends with a shorter one. -/
theorem exists_join_join (h : Step.IsEntryName user) (directory name : String) :
    ∃ front, join (join directory user) name = front ++ join user name := by
  obtain ⟨c, hlast, hc⟩ := h.exists_getLast?
  have hfront : ∃ front, join directory user = front ++ user := by
    unfold join
    split
    · exact ⟨"", (String.empty_append).symm⟩
    · split
      · exact ⟨directory, rfl⟩
      · exact ⟨directory ++ "/", rfl⟩
  obtain ⟨front, hfront⟩ := hfront
  refine ⟨front, ?_⟩
  rw [join_of_isEntryName h, hfront, join, String.toList_append, List.getLast?_append, hlast]
  change (if c = '/' then _ else _) = _
  rw [if_neg hc, String.append_assoc, String.append_assoc, String.append_assoc]

end Path

namespace Disk

open LayerScript.Path

variable {d : Disk} {workingDirectory l : Location} {directory user name : String}
  {content : ByteArray}

/-- A path that can be looked up as it is written can be so from the directory it begins with. -/
theorem writtenFault_of_join_join (huser : Step.IsEntryName user)
    (h : writtenFault (join (join directory user) name) = none) :
    writtenFault (join user name) = none := by
  obtain ⟨front, hfront⟩ := exists_join_join huser directory name
  rw [writtenFault_eq_none_iff, hfront, String.toList_append, List.mem_append, not_or,
    String.utf8ByteSize_append] at h
  exact writtenFault_eq_none_iff.mpr ⟨h.1.2, le_trans (Nat.le_add_left _ _) h.2⟩

/-- A directory can be entered by its path, unless that is empty. -/
theorem enter_of_isDirectory {path : String} (hne : path ≠ "") (hwritten : writtenFault path = none)
    (hthere : d.isDirectory (startOf workingDirectory path) (stepsOf path.toList) = true) :
    d.enter workingDirectory path = .ok (locationOf workingDirectory path) := by
  obtain ⟨hfollow, hkind⟩ := isDirectory_iff.mp hthere
  obtain ⟨p, hp⟩ : ∃ p, ofText path = some p := by
    cases hp : ofText path with
    | none => exact absurd (String.toList_inj.mp (toList_eq_nil_of_ofText hp)) hne
    | some p => exact ⟨p, rfl⟩
  obtain ⟨hstart, hsteps⟩ := start_and_steps_of_ofText workingDirectory hp
  rw [← hstart, ← hsteps] at hfollow
  have hlocate := locate_eq_ok_iff.mpr ⟨hwritten, p, hp, hfollow, rfl⟩
  have hat := at?_eq_directory_iff.mpr hkind
  refine bind_eq_ok_iff.mpr ⟨_, hlocate, ?_⟩
  dsimp only
  rw [hstart, hsteps, hat]
  rfl

/-- **What can be read in a directory of a directory can be read from there**, and it is the same
file. -/
theorem read_of_read_join (huser : Step.IsEntryName user) (hname : Step.IsEntryName name)
    (h : d.read workingDirectory (join (join directory user) name) = .ok content) :
    d.isDirectory (startOf workingDirectory directory) (stepsOf directory.toList) = true ∧
      writtenFault directory = none ∧
      d.read (locationOf workingDirectory directory) (join user name) = .ok content := by
  obtain ⟨place, hlocate, hfile⟩ := read_eq_ok_iff.mp h
  obtain ⟨hwritten, p, hp, hfollow, -⟩ := locate_eq_ok_iff.mp hlocate
  obtain ⟨hstart, hsteps⟩ := start_and_steps_of_ofText workingDirectory hp
  rw [hstart, hsteps, startOf_join _ _ hname, stepsOf_join _ hname, startOf_join _ _ huser,
    stepsOf_join _ huser, List.append_assoc] at hfollow
  have hat := at?_walk_of_follow (List.cons_ne_nil _ _) hfollow
  rw [follow_append] at hfollow
  obtain ⟨l, hfront, hback⟩ := bind_eq_ok_iff.mp hfollow
  cases eq_walk_of_follow hfront
  refine ⟨isDirectory_iff.mpr ⟨hfront, at?_eq_directory_iff.mp hat⟩,
    writtenFault_of_join (writtenFault_of_join hwritten), ?_⟩
  -- The two steps that are left are the path of the name from there.
  have hrest := ofText_join user hname
  obtain ⟨hfrom, hleft⟩ :=
    start_and_steps_of_ofText (locationOf workingDirectory directory) hrest
  refine read_eq_ok_iff.mpr ⟨place, locate_eq_ok_iff.mpr
    ⟨writtenFault_of_join_join huser hwritten, _, hrest, ?_, rfl⟩, hfile⟩
  rw [hfrom, hleft, startOf_join _ _ hname, huser.startOf, stepsOf_join _ hname, huser.stepsOf]
  exact hback

/-- It stands at one place. -/
theorem locationOf_join_join (huser : Step.IsEntryName user) (hname : Step.IsEntryName name)
    (workingDirectory : Location) (directory : String) :
    locationOf (locationOf workingDirectory directory) (join user name)
      = locationOf workingDirectory (join (join directory user) name) := by
  rw [locationOf_join _ _ hname, locationOf_join _ _ hname, locationOf_join _ _ huser, locationOf,
    locationOf, huser.startOf, huser.stepsOf]
  rfl

end Disk

/-! ## 2. Programs that train -/

/-- The program that training starts, unless its name cannot be passed on or there is no directory
to start it in. -/
def trainingLaunch (workingDirectory : Location) (program outDir user : String) (d : Disk) :
    Except LaunchFault Launch :=
  if program.toList.contains '\x00' then .error .nulInCommand
  else
    match d.enter workingDirectory outDir with
    | .error fault => .error (.disk fault)
    | .ok directory => .ok ⟨program, trainingArgument user, directory⟩

/-- The disk after a program was started to train, and what came of it. -/
def Launch.train (l : Launch) (programs : Programs) (d : Disk) :
    Disk × Except TrainingError Finished :=
  match programs.start l d with
  | (d, .error fault) => (d, .error (.notStarted l.program (.refused fault)))
  | (d, .ok run) => (d, if run.ending = .exited 0 then .ok run else .error (.failed run))

/-- **Training starts one program or none.** -/
theorem train_eq_of_launch (programs : Programs) (workingDirectory : Location)
    (program outDir user : String) (d : Disk) :
    train programs workingDirectory program outDir user d
      = match trainingLaunch workingDirectory program outDir user d with
        | .error fault => (d, .error (.notStarted program fault))
        | .ok l => l.train programs d := by
  unfold train trainingLaunch
  split
  · rfl
  · cases d.enter workingDirectory outDir with
    | error fault => rfl
    | ok directory => rfl

/-- A program is started whose name can be passed on, in the directory for all requests. -/
theorem trainingLaunch_eq_ok_iff {workingDirectory : Location} {program outDir user : String}
    {d : Disk} {l : Launch} :
    trainingLaunch workingDirectory program outDir user d = .ok l ↔
      '\x00' ∉ program.toList ∧ ∃ directory, d.enter workingDirectory outDir = .ok directory ∧
        l = ⟨program, trainingArgument user, directory⟩ := by
  unfold trainingLaunch
  by_cases hnul : '\x00' ∈ program.toList
  · simp [hnul]
  · rw [if_neg (by rwa [List.contains_iff_mem]), and_iff_right hnul]
    cases d.enter workingDirectory outDir with
    | error fault => simp
    | ok directory => simp [eq_comm]

/-- The argument of the program is the path of a file below a directory. -/
theorem trainingArgument_eq {user : String} (h : Step.IsEntryName user) :
    trainingArgument user = user ++ "/train.py" := by
  rw [trainingArgument, Path.join_of_isEntryName h, String.append_assoc]
  rfl

/-- Whether a program takes its argument for an option. -/
def Launch.HasOption (l : Launch) : Prop :=
  l.argument.toList.head? = some '-'

/-- What a program is given that trains with the scripts of a project, on the disk that it is
started on: it is started in the directory for all requests, and its argument leads from there to
the training script. -/
structure Launch.RunsScript (l : Launch) (workingDirectory : Location) (outDir : String)
    (p : Project) (c : Compiled) (d : Disk) : Prop where
  directory : l.directory = Path.locationOf workingDirectory outDir
  argument : l.argument = p.user ++ "/train.py"
  place : Path.locationOf l.directory l.argument
    = Path.locationOf workingDirectory (Path.join (userDirectory outDir p.user) "train.py")
  content : d.read l.directory l.argument = .ok c.trainer.text.toUTF8

/-! ## 3. Users -/

/-- A digest has no dash. -/
theorem Digest.ne_dash_of_mem_sha256 {text : String} {c : Char} (h : c ∈ (sha256 text).toList) :
    c ≠ '-' := by
  rw [sha256, String.toList_ofList] at h
  obtain ⟨w, -, hc⟩ := List.mem_flatMap.mp h
  obtain ⟨i, -, rfl⟩ := List.mem_map.mp hc
  have hdigit : ∀ k < 16, Nat.digitChar k ≠ '-' := by decide
  exact hdigit _ (Nat.mod_lt _ (by decide))

/-- So a payload without a user does not go by a name with a dash in front. -/
theorem head?_payloadUser (payload : String) : (payloadUser payload).toList.head? ≠ some '-' := by
  intro hhead
  have hmem := List.mem_of_mem_head? hhead
  rw [payloadUser, String.toList_ofList] at hmem
  exact Digest.ne_dash_of_mem_sha256 (List.mem_of_mem_take hmem) rfl

/-- The user of a project is the one that is named, or goes by the digest of the payload. -/
theorem Project.user_of_ofPayload {payload : String} {user : Option String} {p : Project}
    (h : ofPayload payload user = .ok p) : p.user = user.getD (payloadUser payload) := by
  rw [ofPayload_eq] at h
  obtain ⟨fields, -, hfields⟩ := bind_eq_ok_iff.mp h
  obtain ⟨-, -, -, huser, -⟩ := ofFields_eq_ok_iff.mp hfields
  cases user with
  | none => exact (Except.ok.inj huser).symm
  | some name =>
      dsimp only [bindUser] at huser
      split at huser
      · exact (Except.ok.inj huser).symm
      · cases huser

/-! ## 4. The training script -/

/-- A target that is prepared has a payload that was bound, and scripts. -/
theorem Host.exists_of_prepare {h : Host} {s : Settings} {t : Target} {d : Disk} {p : Project}
    {c : Compiled} (hprepared : (h.prepare s t d).result = .ok (p, c)) :
    ∃ text, h.readPayload t.payload d = .ok text ∧ Project.ofPayload text t.user = .ok p ∧
      p.compile s.dialect (s.optionsWith t.unreachable) = .ok c := by
  rw [result_prepare] at hprepared
  obtain ⟨q, hbound, hrest⟩ := bind_eq_ok_iff.mp hprepared
  obtain ⟨out, hcompiled, heq⟩ := bind_eq_ok_iff.mp hrest
  cases heq
  rw [result_bind] at hbound
  obtain ⟨text, hread, hp⟩ := bind_eq_ok_iff.mp hbound
  exact ⟨text, hread, mapError_eq_ok_iff.mp hp, mapError_eq_ok_iff.mp hcompiled⟩

/-- Where a target was written, its training script can be read, also after it was put on
record. -/
theorem Host.read_trainer_of_compile {h : Host} {s : Settings} {t : Target} {outDir : String}
    {d : Disk} {report : CompileReport}
    (hreport : (h.compile s t outDir d).2.result = .ok report) :
    ∃ p c, (h.prepare s t d).result = .ok (p, c) ∧ report.user = p.user ∧
      (h.compile s t outDir d).1.read h.workingDirectory
          (Path.join (userDirectory outDir p.user) ScriptName.train.file)
        = .ok c.trainer.text.toUTF8 := by
  obtain ⟨p, c, artifacts, written, hprepared, hstored, hdisk, rfl⟩ := exists_of_compile hreport
  obtain ⟨text, -, -, hc⟩ := exists_of_prepare hprepared
  obtain ⟨-, hread⟩ := read_of_writeArtifacts (Project.name_script_of_compile hc .model)
    (Project.name_script_of_compile hc .train) hstored
  have htrainer := hread _ (c.mem_files p .train)
  rw [Project.name_script_of_compile hc .train] at htrainer
  have hkeeps := written.keeps_record h.workingDirectory h.home h.time
    (.compiled p.user c.model.digest)
  refine ⟨p, c, hprepared, rfl, ?_⟩
  rw [hdisk]
  exact hkeeps.read_join ScriptName.train.isEntryName_file (by decide) htrainer

/-- Once a target was written, training is a matter of the program that is started. -/
theorem Host.result_train_of_launch {h : Host} {s : Settings} {t : Target}
    {outDir interpreter : String} {d : Disk} {report : CompileReport} {l : Launch}
    (hreport : (h.compile s t outDir d).2.result = .ok report)
    (hl : trainingLaunch h.workingDirectory interpreter outDir report.user
      (h.compile s t outDir d).1 = .ok l)
    (json : Bool) (named given : Option String) (hnamed : named.getD s.outDir = outDir)
    (hgiven : given.getD s.interpreter = interpreter) :
    (h.perform json s (.train t named given) d).2.result
      = ((l.train h.programs (h.compile s t outDir d).1).2.mapError .training).map
          (.trained report) := by
  rw [result_perform_train, hnamed, hgiven, hreport]
  change ((LayerScript.train _ _ _ _ _ _).2.mapError _ >>= _) = _
  rw [train_eq_of_launch, hl]
  rfl

/-- **Training is given the script that was just written.** Once the files of a request are written
a program is started unless its name has a NUL in it or the directory for all requests has an empty
path. It is started in that directory, whether directory and program are named or those of the
settings, and its argument leads from there to the training script, where the script can be read.
It is taken for an option exactly when the user was named with a dash in front. -/
theorem training_is_given_its_script {h : Host} {s : Settings} {t : Target} {outDir : String}
    {d : Disk} {report : CompileReport}
    (hreport : (h.compile s t outDir d).2.result = .ok report) (interpreter : String) :
    ∃ p c, (h.prepare s t d).result = .ok (p, c) ∧
      ((∃ l, trainingLaunch h.workingDirectory interpreter outDir p.user
          (h.compile s t outDir d).1 = .ok l) ↔ '\x00' ∉ interpreter.toList ∧ outDir ≠ "") ∧
      ∀ l, trainingLaunch h.workingDirectory interpreter outDir p.user
          (h.compile s t outDir d).1 = .ok l →
        (∀ json named given, named.getD s.outDir = outDir →
          given.getD s.interpreter = interpreter →
          (h.perform json s (.train t named given) d).2.result
            = ((l.train h.programs (h.compile s t outDir d).1).2.mapError .training).map
                (.trained report)) ∧
          l.program = interpreter ∧
          l.RunsScript h.workingDirectory outDir p c (h.compile s t outDir d).1 ∧
          (l.HasOption ↔ ∃ name ∈ t.user, name.toList.head? = some '-') := by
  obtain ⟨p, c, hprepared, huser, hread⟩ := Host.read_trainer_of_compile hreport
  obtain ⟨text, -, hp, -⟩ := Host.exists_of_prepare hprepared
  have hentry := isEntryName_of_isUser (Project.isUser_of_ofPayload hp)
  obtain ⟨hthere, hwritten, hrelative⟩ :=
    Disk.read_of_read_join hentry ScriptName.train.isEntryName_file hread
  refine ⟨p, c, hprepared, ?_, fun l hl => ?_⟩
  · simp only [trainingLaunch_eq_ok_iff]
    constructor
    · rintro ⟨l, hnul, directory, henter, -⟩
      refine ⟨hnul, ?_⟩
      rintro rfl
      cases henter
    · rintro ⟨hnul, hempty⟩
      exact ⟨_, hnul, _, Disk.enter_of_isDirectory hempty hwritten hthere, rfl⟩
  · have htrain := Host.result_train_of_launch hreport (huser ▸ hl)
    obtain ⟨-, directory, henter, rfl⟩ := trainingLaunch_eq_ok_iff.mp hl
    cases Disk.eq_locationOf_of_enter henter
    refine ⟨htrain, rfl, ⟨rfl, trainingArgument_eq hentry,
      Disk.locationOf_join_join hentry ScriptName.train.isEntryName_file _ _, hrelative⟩, ?_⟩
    rw [Launch.HasOption, trainingArgument_eq hentry, String.toList_append, List.head?_append]
    -- The name of a user is not empty, so it is what the argument begins with.
    have hfirst : p.user.toList.head?.or "/train.py".toList.head? = p.user.toList.head? := by
      obtain ⟨c, hlast, -⟩ := hentry.exists_getLast?
      cases hlist : p.user.toList with
      | nil =>
          rw [hlist] at hlast
          cases hlast
      | cons first rest => rfl
    rw [hfirst, Project.user_of_ofPayload hp]
    cases t.user with
    | none => simpa using head?_payloadUser text
    | some name => simp

/-- A host that is given a payload, and has no home to put anything on record in. -/
def pipingHost : Host :=
  ⟨[], none, chainPayload.toUTF8, 0, standardPrograms⟩

/-- A target is written for a user when the kernel can tell that it is. -/
theorem exists_report_of_user {t : Target} {user : String}
    (h : ((pipingHost.compile {} t "out" .empty).2.result.map CompileReport.user).toOption
      = some user) :
    ∃ report, (pipingHost.compile {} t "out" .empty).2.result = .ok report ∧
      report.user = user := by
  cases hreport : (pipingHost.compile {} t "out" .empty).2.result with
  | error failure =>
      rw [hreport] at h
      cases h
  | ok report =>
      rw [hreport] at h
      exact ⟨report, rfl, Option.some.inj h⟩

theorem training_is_given_its_script_piped :
    ∃ report p c l,
      (pipingHost.compile {} ⟨"-", some "u", none⟩ "out" .empty).2.result = .ok report ∧
      (pipingHost.prepare {} ⟨"-", some "u", none⟩ .empty).result = .ok (p, c) ∧
      trainingLaunch [] "cat" "out" p.user
        (pipingHost.compile {} ⟨"-", some "u", none⟩ "out" .empty).1 = .ok l ∧
      l.RunsScript [] "out" p c (pipingHost.compile {} ⟨"-", some "u", none⟩ "out" .empty).1 ∧
      ¬ l.HasOption := by
  obtain ⟨report, hreport, -⟩ := exists_report_of_user
    (by decide +kernel :
      ((pipingHost.compile {} ⟨"-", some "u", none⟩ "out" .empty).2.result.map
        CompileReport.user).toOption = some "u")
  obtain ⟨p, c, hprepared, hlaunched, hgiven⟩ := training_is_given_its_script hreport "cat"
  obtain ⟨l, hl⟩ := hlaunched.mpr ⟨by decide, by decide⟩
  obtain ⟨-, -, hruns, hoption⟩ := hgiven l hl
  refine ⟨report, p, c, l, hreport, hprepared, hl, hruns, fun h => ?_⟩
  obtain ⟨name, hname, hdash⟩ := hoption.mp h
  cases hname
  cases hdash

/-- The user is `-c`: the scripts are written, and the program that copies what it is given is
asked for an option. -/
theorem user_with_dash_is_an_option :
    (∃ report,
      (pipingHost.compile {} ⟨"-", some "-c", none⟩ "out" .empty).2.result = .ok report ∧
      report.user = "-c") ∧
    (∃ l, trainingLaunch [] "cat" "out" "-c"
        (pipingHost.compile {} ⟨"-", some "-c", none⟩ "out" .empty).1 = .ok l ∧
      l.argument = "-c/train.py" ∧ l.HasOption) ∧
    ∃ failure,
      (pipingHost.perform false {} (.train ⟨"-", some "-c", none⟩ (some "out") (some "cat"))
        .empty).2.result = .error failure ∧
      failure.chain = "training script exited with exit status: 1: cat: invalid option -- 'c'\n"
        ++ "Try 'cat --help' for more information.\n" := by
  have hrun :
      ((pipingHost.compile {} ⟨"-", some "-c", none⟩ "out" .empty).2.result.map
        CompileReport.user).toOption = some "-c" ∧
      (trainingLaunch [] "cat" "out" "-c"
        (pipingHost.compile {} ⟨"-", some "-c", none⟩ "out" .empty).1).toOption.map Launch.argument
          = some "-c/train.py" ∧
      ((pipingHost.perform false {} (.train ⟨"-", some "-c", none⟩ (some "out") (some "cat"))
        .empty).2.result.map fun _ => ()).mapError Failure.chain
          = .error ("training script exited with exit status: 1: cat: invalid option -- 'c'\n"
            ++ "Try 'cat --help' for more information.\n") := by
    decide +kernel
  obtain ⟨huser, hargument, hrefused⟩ := hrun
  refine ⟨exists_report_of_user huser, ?_, ?_⟩
  · obtain ⟨l, hl, hargument⟩ := Option.map_eq_some_iff.mp hargument
    refine ⟨l, toOption_eq_some_iff.mp hl, hargument, ?_⟩
    rw [Launch.HasOption, hargument]
    rfl
  · cases hresult : (pipingHost.perform false {}
        (.train ⟨"-", some "-c", none⟩ (some "out") (some "cat")) .empty).2.result with
    | ok report =>
        rw [hresult] at hrefused
        cases hrefused
    | error failure =>
        rw [hresult] at hrefused
        exact ⟨failure, rfl, Except.error.inj hrefused⟩

end LayerScript
