/-
`Proofs/Isolation.lean` -- requests that share a disk do not meet.

The directory of a request is one step below the directory for all requests, whatever path that
has, since a user names one thing in a directory (`isEntryName_of_isUser`). So a request makes
directories that are missing on the way there, and otherwise only files right in it
(`StaysInside.changes`). It looks at what kind of thing stands where, and never at what a file
holds (`StaysInside.blind`).

Two requests of different users then commute. Where the directory for all requests can be made,
each works below a location of its own, and neither sees what the other does there. Where it
cannot be made, nothing is done twice, and both fail however often they are carried out. The one
thing that depends on the order is what a plain file in the way is said to be: whoever comes first
finds something that exists already, and whoever comes after finds it to be no directory
(`SameOutcome.results`).
-/
import LayerScript.Proofs.Artifacts
import LayerScript.Proofs.Disk.Location
import LayerScript.Proofs.Users

set_option autoImplicit false

namespace LayerScript

open Disk LayerScript.Path

/-! ## 1. Writing -/

section

variable {T : Disk → Disk → Prop} {allowed : Set (Location × Entry)} {workingDirectory : Location}
  {outDir directory path : String} {d : Disk}

/-- The disk after the files of a request were written into its directory. -/
def storeFiles (workingDirectory : Location) (directory : String) (p : Project) (c : Compiled)
    (d : Disk) : Disk × Except StorageError (List ArtifactReport) :=
  andThen id (writeFiles workingDirectory (artifactFiles directory p c) d) fun d =>
    (d, .ok [c.model.report directory, c.trainer.report directory])

/-- A request makes its directory and then writes its files. -/
theorem writeArtifacts_eq (p : Project) (c : Compiled) (d : Disk) :
    writeArtifacts workingDirectory outDir p c d
      = andThen (StorageError.mk (userDirectory outDir p.user))
          (d.createDirectories workingDirectory (userDirectory outDir p.user))
          (storeFiles workingDirectory (userDirectory outDir p.user) p c) := by
  unfold writeArtifacts storeFiles andThen
  dsimp only
  rcases d.createDirectories workingDirectory (userDirectory outDir p.user) with ⟨made, fault | _⟩
  · rfl
  · dsimp only
    rcases writeFiles workingDirectory (artifactFiles (userDirectory outDir p.user) p c) made
      with ⟨written, e | _⟩ <;> rfl

/-- Writing files one after another looks at where they are written. -/
theorem uniform_writeFiles (hT : Stable T) {files : List (String × String)}
    (halike : ∀ file ∈ files, AlikeOn T workingDirectory file.1)
    (hallowed : ∀ file ∈ files, ∀ {d : Disk} {l : Location},
      d.locate workingDirectory file.1 = .ok (l, false) → (l, .file file.2.toUTF8) ∈ allowed) :
    Uniform T allowed (writeFiles workingDirectory files) := by
  -- The first file is put on both disks, which stay related, and the rest is written on those.
  induction files with
  | nil => exact Uniform.const T allowed (Except.ok ())
  | cons file rest ih =>
      obtain ⟨path, text⟩ := file
      rw [List.forall_mem_cons] at halike hallowed
      have hrest := ih halike.2 hallowed.2
      intro d d' hrel
      rw [writeFiles, writeFiles, write_eq, write_eq, ← halike.1.locate hrel]
      rcases hl : d.locate workingDirectory path with fault | ⟨l, _ | _⟩
      · exact ⟨[], by simp, rfl, rfl, rfl, hrel⟩
      · obtain ⟨-, p, hp, hfollow, -⟩ := locate_eq_ok_iff.mp hl
        have hkind := (halike.1 p hp).kind hrel hfollow
        dsimp only
        rw [← hkind]
        by_cases hdirectory : d.kind? l = some true
        · rw [if_pos hdirectory, if_pos hdirectory]
          exact ⟨[], by simp, rfl, rfl, rfl, hrel⟩
        · rw [if_neg hdirectory, if_neg hdirectory]
          -- Neither disk has a directory there, so a file changes no kind.
          have hfile : ∀ kind, d.kind? l = some kind →
              (Entry.file text.toUTF8).isDirectory = kind := by
            intro kind h
            cases kind with
            | false => rfl
            | true => exact absurd h hdirectory
          have hput := hT d d' l (.file text.toUTF8) hrel hfile (hkind ▸ hfile)
          obtain ⟨changes, hchanges, hd, hd', hsame, hafter⟩ := hrest _ _ hput
          refine ⟨(l, .file text.toUTF8) :: changes, ?_, hd, hd', hsame, hafter⟩
          exact List.forall_mem_cons.mpr ⟨hallowed.1 hl, hchanges⟩
      · exact ⟨[], by simp, rfl, rfl, rfl, hrel⟩

theorem uniform_storeFiles (hT : Stable T) (p : Project) (c : Compiled)
    (halike : ∀ file ∈ c.files p, AlikeOn T workingDirectory (join directory file.1))
    (hallowed : ∀ name content, Step.IsEntryName name →
      (locationOf workingDirectory directory ++ [name], .file content) ∈ allowed) :
    Uniform T allowed (storeFiles workingDirectory directory p c) := by
  have hnames : ∀ file ∈ artifactFiles directory p c, ∃ named ∈ c.files p,
      file.1 = join directory named.1 := by
    intro file hfile
    rw [artifactFiles_eq, filesIn] at hfile
    obtain ⟨named, hnamed, rfl⟩ := List.mem_map.mp hfile
    exact ⟨named, hnamed, rfl⟩
  refine Uniform.andThen id (uniform_writeFiles hT (fun file hfile => ?_)
    fun file hfile {d l} hlocate => ?_) (Uniform.const T allowed _)
  · obtain ⟨named, hnamed, hpath⟩ := hnames file hfile
    rw [hpath]
    exact halike named hnamed
  · obtain ⟨named, hnamed, hpath⟩ := hnames file hfile
    have hname := Compiled.isEntryName_of_mem_files named hnamed
    rw [eq_locationOf_of_locate hlocate, hpath, locationOf_join _ _ hname]
    exact hallowed named.1 _ hname

end

/-! ## 2. Blind to contents -/

/-- Whether two disks differ in nothing but what files hold. -/
def Disk.SameShape (d d' : Disk) : Prop :=
  ∀ l, d.kind? l = d'.kind? l

/-- Whether two disks have the same shape, and the kinds of an earlier one. -/
structure GrownAlike (origin d d' : Disk) : Prop where
  shape : d.SameShape d'
  kept : ∀ l kind, origin.kind? l = some kind → d.kind? l = some kind

theorem stable_grownAlike (origin : Disk) : Stable (GrownAlike origin) := by
  intro d d' l e h hkind _
  refine ⟨fun m => kind?_put_congr (h.shape m) l e, fun m kind hm => ?_⟩
  have hkept := h.kept m kind hm
  rw [kind?, at?_put]
  split
  · rename_i heq
    rw [heq.1] at hkept
    exact congrArg some (hkind kind hkept)
  · exact hkept

theorem alikeAlong_grownAlike (origin : Disk) (start : Location) (steps : List Step) :
    AlikeAlong (GrownAlike origin) start steps := by
  induction steps using List.reverseRecOn with
  | nil => exact ⟨fun _ => rfl, fun h _ => h.shape _⟩
  | append_singleton steps step ih => exact ih.snoc fun h _ => h.shape _

/-- What a request may put: directories on the way to its own, and files right in that. -/
def requestChanges (workingDirectory : Location) (outDir user : String) : Set (Location × Entry) :=
  {change | LeadsThrough workingDirectory (userDirectory outDir user) change.1 ∧
      change.2 = .directory ∨
    ∃ name content, change = (locationOf workingDirectory outDir ++ [user, name], .file content)}

variable {workingDirectory : Location} {outDir : String} {p : Project} {d : Disk}

/-- **What a request does depends on the locations on its way**, and it puts nothing elsewhere. -/
theorem uniform_writeArtifacts_of_alike {T : Disk → Disk → Prop} (huser : Step.IsEntryName p.user)
    (hT : Stable T) (c : Compiled)
    (halike : ∀ front back, stepsOf (userDirectory outDir p.user).toList = front ++ back →
      AlikeAlong T (startOf workingDirectory (userDirectory outDir p.user)) front)
    (hfiles : ∀ file ∈ c.files p,
      AlikeOn T workingDirectory (join (userDirectory outDir p.user) file.1)) :
    Uniform T (requestChanges workingDirectory outDir p.user)
      (writeArtifacts workingDirectory outDir p c) := by
  simp only [funext (writeArtifacts_eq p c)]
  refine Uniform.andThen _ (uniform_createDirectories hT halike fun l hl => Or.inl ⟨hl, rfl⟩)
    (uniform_storeFiles hT p c hfiles fun name content _ => Or.inr ⟨name, content, ?_⟩)
  rw [userDirectory, locationOf_join _ _ huser, List.append_assoc]
  rfl

/-- **What a request does depends on the shape of the disk**, and it keeps the kinds that are
there. -/
theorem uniform_writeArtifacts (huser : Step.IsEntryName p.user) (origin : Disk) (c : Compiled) :
    Uniform (GrownAlike origin) (requestChanges workingDirectory outDir p.user)
      (writeArtifacts workingDirectory outDir p c) :=
  uniform_writeArtifacts_of_alike huser (stable_grownAlike origin) c
    (fun _ _ _ => alikeAlong_grownAlike origin _ _)
    fun _ _ => alikeOn (alikeAlong_grownAlike origin _ _)

/-- What a step that writes for a user may do to a disk, and what it may look at. -/
structure StaysInside {α : Type} (workingDirectory : Location) (outDir user : String)
    (write : Disk → Disk × α) : Prop where
  /-- Where something changed, a directory that was missing on the way is there now, or a file
  right in the directory of the user. -/
  changes : ∀ d l, (write d).1.at? l ≠ d.at? l →
    (LeadsThrough workingDirectory (userDirectory outDir user) l ∧ d.at? l = none ∧
      (write d).1.at? l = some .directory) ∨
    ∃ name content, l = locationOf workingDirectory outDir ++ [user, name] ∧
      (write d).1.at? l = some (.file content)
  /-- The files of others are as they were. -/
  apart : ∀ d other, other ≠ user → ∀ l, locationOf workingDirectory outDir ++ [other] <+: l →
    ∀ content, (write d).1.at? l = some (.file content) ↔ d.at? l = some (.file content)
  /-- It makes no difference what any file holds. -/
  blind : ∀ d d' : Disk, d.SameShape d' → (write d).2 = (write d').2 ∧
    ∀ l, (write d).1.at? l = (write d').1.at? l ∨
      ((write d).1.at? l = d.at? l ∧ (write d').1.at? l = d'.at? l)

theorem change_of_writeArtifacts (huser : Step.IsEntryName p.user) (c : Compiled) {l : Location}
    (hne : (writeArtifacts workingDirectory outDir p c d).1.at? l ≠ d.at? l) :
    (LeadsThrough workingDirectory (userDirectory outDir p.user) l ∧ d.at? l = none ∧
      (writeArtifacts workingDirectory outDir p c d).1.at? l = some .directory) ∨
    ∃ name content, l = locationOf workingDirectory outDir ++ [p.user, name] ∧
      (writeArtifacts workingDirectory outDir p c d).1.at? l = some (.file content) := by
  obtain ⟨changes, hallowed, hd, -, -, hgrown⟩ := uniform_writeArtifacts huser d c d d
    ⟨fun _ => rfl, fun _ _ h => h⟩
  rcases at?_puts d l changes with hsame | ⟨e, he, hput⟩
  · exact absurd (hd ▸ hsame) hne
  · rw [← hd] at hput
    rcases hallowed _ he with ⟨hway, rfl⟩ | ⟨name, content, heq⟩
    · refine Or.inl ⟨hway, ?_, hput⟩
      -- A directory stands there now, so nothing else did.
      rw [at?_eq_none_iff]
      rcases hkind : d.kind? l with _ | kind
      · rfl
      · have hkept := hgrown.kept l kind hkind
        rw [at?_eq_directory_iff.mp hput] at hkept
        rw [← hkept, ← at?_eq_directory_iff] at hkind
        exact absurd (hput.trans hkind.symm) hne
    · cases heq
      exact Or.inr ⟨name, content, rfl, hput⟩

/-- **A request stays inside its directory.** -/
theorem staysInside_writeArtifacts (workingDirectory : Location) (outDir : String)
    (huser : Step.IsEntryName p.user) (c : Compiled) :
    StaysInside workingDirectory outDir p.user (writeArtifacts workingDirectory outDir p c) := by
  refine ⟨fun d l => change_of_writeArtifacts huser c, fun d other hother l hl content => ?_,
    fun d d' hshape => ?_⟩
  · by_cases hsame : (writeArtifacts workingDirectory outDir p c d).1.at? l = d.at? l
    · rw [hsame]
    · rcases change_of_writeArtifacts huser c hsame with ⟨-, hnone, hdirectory⟩ | ⟨name, _, rfl, -⟩
      · rw [hnone, hdirectory]
        simp
      · rw [List.prefix_append_right_inj, List.cons_prefix_cons] at hl
        exact absurd hl.1 hother
  · obtain ⟨changes, -, hd, hd', hsame, -⟩ := uniform_writeArtifacts huser d c d d'
      ⟨hshape, fun _ _ h => h⟩
    refine ⟨hsame, fun l => ?_⟩
    rw [hd, hd']
    exact at?_puts_or d d' l changes

/-! ## 3. Blind to each other -/

/-- Whether a directory is there on both disks, and they have the same shape below a name in it. -/
structure AgreeBelow (start : Location) (steps : List Step) (name : String) (d d' : Disk) :
    Prop where
  left : d.isDirectory start steps = true
  right : d'.isDirectory start steps = true
  below : ∀ l, walk start steps ++ [name] <+: l → d.kind? l = d'.kind? l

section

variable {start : Location} {steps : List Step} {name : String}

theorem stable_agreeBelow : Stable (AgreeBelow start steps name) := by
  intro d d' l e h hkind hkind'
  exact ⟨(keeps_put_kind hkind).isDirectory h.left, (keeps_put_kind hkind').isDirectory h.right,
    fun m hm => kind?_put_congr (h.below m hm) l e⟩

/-- They look alike along the steps of the directory, which is there. -/
theorem alikeAlong_agreeBelow : AlikeAlong (AgreeBelow start steps name) start steps where
  follow h := (isDirectory_iff.mp h.left).1.trans (isDirectory_iff.mp h.right).1.symm
  kind {d d' l} h hfollow := by
    rw [eq_walk_of_follow hfollow, (isDirectory_iff.mp h.left).2, (isDirectory_iff.mp h.right).2]

theorem alikeAlong_agreeBelow_name :
    AlikeAlong (AgreeBelow start steps name) start (steps ++ [.into name]) :=
  alikeAlong_agreeBelow.snoc fun h hfollow => by
    rw [eq_walk_of_follow hfollow]
    exact h.below _ (List.prefix_refl _)

theorem alikeAlong_agreeBelow_file (file : String) :
    AlikeAlong (AgreeBelow start steps name) start (steps ++ [.into name] ++ [.into file]) :=
  alikeAlong_agreeBelow_name.snoc fun h hfollow => by
    rw [eq_walk_of_follow hfollow, walk_snoc]
    exact h.below _ (List.prefix_append _ _)

end

/-- Writes for a request into the directory for all requests, which is there. -/
def storeIn (workingDirectory : Location) (outDir : String) (p : Project) (c : Compiled)
    (d : Disk) : Disk × Except StorageError (List ArtifactReport) :=
  andThen (StorageError.mk (userDirectory outDir p.user))
    (d.ensureDirectory (startOf workingDirectory outDir)
      (stepsOf outDir.toList ++ [.into p.user]))
    (storeFiles workingDirectory (userDirectory outDir p.user) p c)

/-- **Below the directory for all requests a request is blind to what goes on outside its own.** -/
theorem uniform_storeIn (huser : Step.IsEntryName p.user) (c : Compiled) :
    Uniform (AgreeBelow (startOf workingDirectory outDir) (stepsOf outDir.toList) p.user)
      {change | locationOf workingDirectory outDir ++ [p.user] <+: change.1}
      (storeIn workingDirectory outDir p c) := by
  have hmake : Uniform
      (AgreeBelow (startOf workingDirectory outDir) (stepsOf outDir.toList) p.user)
      {change | locationOf workingDirectory outDir ++ [p.user] <+: change.1}
      fun d => d.ensureDirectory (startOf workingDirectory outDir)
        (stepsOf outDir.toList ++ [.into p.user]) := by
    refine uniform_ensureDirectory stable_agreeBelow alikeAlong_agreeBelow_name fun hfollow => ?_
    rw [eq_walk_of_follow hfollow, walk_snoc]
    exact List.prefix_refl _
  refine Uniform.andThen _ hmake (uniform_storeFiles stable_agreeBelow p c (fun file hfile => ?_)
    fun name content _ => ?_)
  · have hname := Compiled.isEntryName_of_mem_files file hfile
    apply alikeOn
    rw [userDirectory, startOf_join _ _ hname, startOf_join _ _ huser, stepsOf_join _ hname,
      stepsOf_join _ huser]
    exact alikeAlong_agreeBelow_file file.1
  · rw [userDirectory, locationOf_join _ _ huser]
    exact List.prefix_append _ _

section

variable {c : Compiled} {made : Disk} {fault first again : DiskFault}

/-- A request whose path is refused as it is written does nothing, on any disk. -/
theorem writeArtifacts_of_refused (h : writtenFault (userDirectory outDir p.user) = some fault)
    (c : Compiled) (d : Disk) :
    writeArtifacts workingDirectory outDir p c d
      = (d, .error ⟨userDirectory outDir p.user, fault⟩) := by
  rw [writeArtifacts_eq, createDirectories_of_refused h]
  rfl

/-- Otherwise its directory is reached from the directory for all requests. -/
theorem writeArtifacts_of_written (huser : Step.IsEntryName p.user)
    (h : writtenFault (userDirectory outDir p.user) = none) (c : Compiled) (d : Disk) :
    writeArtifacts workingDirectory outDir p c d
      = andThen (StorageError.mk (userDirectory outDir p.user))
          (d.reach (startOf workingDirectory outDir) (stepsOf outDir.toList ++ [.into p.user]))
          (storeFiles workingDirectory (userDirectory outDir p.user) p c) := by
  rw [writeArtifacts_eq, createDirectories_eq_reach h]
  rw [userDirectory, startOf_join _ _ huser, stepsOf_join _ huser]

/-- Where the directory for all requests is there, the request writes in it. -/
theorem writeArtifacts_of_isDirectory (huser : Step.IsEntryName p.user)
    (h : writtenFault (userDirectory outDir p.user) = none)
    (hthere : d.isDirectory (startOf workingDirectory outDir) (stepsOf outDir.toList) = true) :
    writeArtifacts workingDirectory outDir p c d = storeIn workingDirectory outDir p c d := by
  rw [writeArtifacts_of_written huser h, reach_snoc_of_isDirectory hthere]
  rfl

/-- Where it can be made, the request writes in it as soon as it is. -/
theorem writeArtifacts_of_opens (huser : Step.IsEntryName p.user)
    (h : writtenFault (userDirectory outDir p.user) = none)
    (hopens : d.Opens (startOf workingDirectory outDir) (stepsOf outDir.toList) made) :
    writeArtifacts workingDirectory outDir p c d = storeIn workingDirectory outDir p c made := by
  rw [writeArtifacts_of_written huser h, hopens.reach]
  rfl

/-- Where it cannot be made, the request fails, and does so again on what that left. -/
theorem writeArtifacts_of_refuses (huser : Step.IsEntryName p.user)
    (h : writtenFault (userDirectory outDir p.user) = none)
    (hrefuses : d.Refuses (startOf workingDirectory outDir) (stepsOf outDir.toList) made first
      again) :
    writeArtifacts workingDirectory outDir p c d
        = (made, .error ⟨userDirectory outDir p.user, first⟩) ∧
      writeArtifacts workingDirectory outDir p c made
        = (made, .error ⟨userDirectory outDir p.user, again⟩) := by
  rw [writeArtifacts_of_written huser h, writeArtifacts_of_written huser h, hrefuses.reach,
    hrefuses.reach_again]
  exact ⟨rfl, rfl⟩

end

/-! ## 4. Either order -/

/-- Whether two steps that write have the same outcome in either order. -/
structure SameOutcome {α : Type} (workingDirectory : Location) (outDir path path' : String)
    (write write' : Disk → Disk × Except StorageError α) (d : Disk) : Prop where
  /-- They leave the same disk. -/
  disk : ∀ l, (write' (write d).1).1.at? l = (write (write' d).1).1.at? l
  /-- They have the same results. Only when the directory for all requests is missing and cannot
  be made, because a plain file is in the way, both fail for a reason that depends on the order. -/
  results : ((write (write' d).1).2 = (write d).2 ∧ (write' (write d).1).2 = (write' d).2) ∨
    (d.enter workingDirectory outDir = .error .missing ∧
      (d.createDirectories workingDirectory outDir).2 = .error .alreadyExists ∧
      (write d).2 = .error ⟨path, .alreadyExists⟩ ∧
      (write (write' d).1).2 = .error ⟨path, .notADirectory⟩ ∧
      (write' d).2 = .error ⟨path', .alreadyExists⟩ ∧
      (write' (write d).1).2 = .error ⟨path', .notADirectory⟩)

section

variable {p' : Project}

/-- Nothing stands below two names of one directory. -/
theorem ne_of_below {directory l m : Location} {name other : String} (hne : name ≠ other)
    (hl : directory ++ [name] <+: l) (hm : directory ++ [other] <+: m) : l ≠ m := by
  rintro rfl
  have hsame := (List.prefix_of_prefix_length_le hl hm (by simp)).eq_of_length (by simp)
  exact hne (by simpa using hsame)

/-- What is written for one user is not seen below the name of another. -/
theorem agreeBelow_storeIn {name : String} (huser : Step.IsEntryName p.user) (hne : name ≠ p.user)
    (c : Compiled)
    (hthere : d.isDirectory (startOf workingDirectory outDir) (stepsOf outDir.toList) = true) :
    AgreeBelow (startOf workingDirectory outDir) (stepsOf outDir.toList) name d
      (storeIn workingDirectory outDir p c d).1 := by
  obtain ⟨changes, hallowed, hd, -, -, hafter⟩ := uniform_storeIn huser c d d
    ⟨hthere, hthere, fun _ _ => rfl⟩
  refine ⟨hthere, hafter.left, fun l hl => ?_⟩
  -- All that was put is below the name of the other user.
  have hsame : (d.puts changes).at? l = d.at? l :=
    at?_puts_of_forall_ne fun change hchange => (ne_of_below hne hl (hallowed change hchange)).symm
  rw [hd, kind?, kind?, hsame]

/-- Requests whose paths can be looked up as they are written have the same outcome in either
order. -/
theorem sameOutcome_of_written (huser : Step.IsEntryName p.user)
    (huser' : Step.IsEntryName p'.user) (hne : p.user ≠ p'.user)
    (hwritten : writtenFault (userDirectory outDir p.user) = none)
    (hwritten' : writtenFault (userDirectory outDir p'.user) = none) (c c' : Compiled) (d : Disk) :
    SameOutcome workingDirectory outDir (userDirectory outDir p.user)
      (userDirectory outDir p'.user) (writeArtifacts workingDirectory outDir p c)
      (writeArtifacts workingDirectory outDir p' c') d := by
  -- The directory for all requests decides for both users at once.
  rcases reach_names d (startOf workingDirectory outDir) (stepsOf outDir.toList) with
    ⟨made, hopens⟩ | ⟨made, first, again, hrefuses⟩
  · have hbelow := agreeBelow_storeIn huser' hne c' hopens.isDirectory
    have hbelow' := agreeBelow_storeIn huser hne.symm c hopens.isDirectory
    obtain ⟨hresult, hresult', hdisk⟩ := (uniform_storeIn huser c).commute
      (uniform_storeIn huser' c') (fun _ h _ h' => ne_of_below hne h h') hbelow hbelow'
    -- Whoever comes second finds the directory for all requests there.
    have hfirst : writeArtifacts workingDirectory outDir p c d = _ :=
      writeArtifacts_of_opens huser hwritten hopens
    have hfirst' : writeArtifacts workingDirectory outDir p' c' d = _ :=
      writeArtifacts_of_opens huser' hwritten' hopens
    have hsecond : writeArtifacts workingDirectory outDir p c _ = _ :=
      writeArtifacts_of_isDirectory huser hwritten hbelow.right
    have hsecond' : writeArtifacts workingDirectory outDir p' c' _ = _ :=
      writeArtifacts_of_isDirectory huser' hwritten' hbelow'.right
    refine ⟨?_, Or.inl ?_⟩
    · rw [hfirst, hfirst', hsecond, hsecond']
      exact hdisk
    · rw [hfirst, hfirst', hsecond, hsecond']
      exact ⟨hresult, hresult'⟩
  · -- Both fail, and the second on the disk that the first left.
    obtain ⟨hfirst, hagain⟩ := writeArtifacts_of_refuses (c := c) huser hwritten hrefuses
    obtain ⟨hfirst', hagain'⟩ := writeArtifacts_of_refuses (c := c') huser' hwritten' hrefuses
    refine ⟨fun l => ?_, ?_⟩
    · rw [hfirst, hfirst', hagain, hagain']
    · rw [hfirst, hfirst', hagain, hagain']
      rcases hrefuses.faults with rfl | ⟨rfl, rfl, hmissing, hblocked⟩
      · exact Or.inl ⟨rfl, rfl⟩
      · refine Or.inr ⟨?_, ?_, rfl, rfl, rfl, rfl⟩
        · exact enter_of_follow_missing (writtenFault_of_join hwritten) hmissing
        · rw [createDirectories_eq_reach (writtenFault_of_join hwritten), hblocked]

/-- **Requests of different users have the same outcome in either order.** -/
theorem sameOutcome_writeArtifacts (workingDirectory : Location) (outDir : String)
    (huser : Step.IsEntryName p.user) (huser' : Step.IsEntryName p'.user)
    (hne : p.user ≠ p'.user) (c c' : Compiled) (d : Disk) :
    SameOutcome workingDirectory outDir (userDirectory outDir p.user)
      (userDirectory outDir p'.user) (writeArtifacts workingDirectory outDir p c)
      (writeArtifacts workingDirectory outDir p' c') d := by
  -- A path that is refused as it is written is refused on every disk.
  cases hwritten : writtenFault (userDirectory outDir p.user) with
  | some fault =>
      have hrefused : ∀ d, writeArtifacts workingDirectory outDir p c d = _ :=
        writeArtifacts_of_refused hwritten c
      refine ⟨fun l => ?_, Or.inl ⟨?_, ?_⟩⟩
      all_goals simp only [hrefused]
  | none =>
      cases hwritten' : writtenFault (userDirectory outDir p'.user) with
      | some fault =>
          have hrefused : ∀ d, writeArtifacts workingDirectory outDir p' c' d = _ :=
            writeArtifacts_of_refused hwritten' c'
          refine ⟨fun l => ?_, Or.inl ⟨?_, ?_⟩⟩
          all_goals simp only [hrefused]
      | none => exact sameOutcome_of_written huser huser' hne hwritten hwritten' c c' d

end

/-- **Requests of different users are isolated.** Each stays inside its directory, and both have
the same outcome in either order, whether they succeed or fail, except for what a plain file is
said to be that keeps the directory for all requests from being made. -/
theorem requests_are_isolated {payload payload' : String} {user user' : Option String}
    {p p' : Project} (hp : Project.ofPayload payload user = .ok p)
    (hp' : Project.ofPayload payload' user' = .ok p') (hne : p.user ≠ p'.user)
    (c c' : Compiled) (workingDirectory : Location) (outDir : String) (d : Disk) :
    StaysInside workingDirectory outDir p.user (writeArtifacts workingDirectory outDir p c) ∧
      StaysInside workingDirectory outDir p'.user (writeArtifacts workingDirectory outDir p' c') ∧
      SameOutcome workingDirectory outDir (userDirectory outDir p.user)
        (userDirectory outDir p'.user) (writeArtifacts workingDirectory outDir p c)
        (writeArtifacts workingDirectory outDir p' c') d := by
  have huser := isEntryName_of_isUser (Project.isUser_of_ofPayload hp)
  have huser' := isEntryName_of_isUser (Project.isUser_of_ofPayload hp')
  exact ⟨staysInside_writeArtifacts workingDirectory outDir huser c,
    staysInside_writeArtifacts workingDirectory outDir huser' c',
    sameOutcome_writeArtifacts workingDirectory outDir huser huser' hne c c' d⟩

/-- One payload is bound and compiled for two users. -/
theorem exists_for_user : ∀ user ∈ ["alice", "bob"], ∃ p c,
    Project.ofPayload chainPayload (some user) = .ok p ∧
      p.compile .tensorflow chainOptions = .ok c ∧ p.user = user := by
  intro user huser
  rcases List.mem_pair.mp huser with rfl | rfl
  · exact Project.exists_of_run (fun p _ => p.user) (by decide +kernel)
  · exact Project.exists_of_run (fun p _ => p.user) (by decide +kernel)

/-- A disk with a plain file on it. -/
def blockedDisk : Disk := ⟨[(["blocker"], .file "x".toUTF8)]⟩

/-- The path of that file, behind a directory that is missing. -/
def blockedPath : String := "new/../blocker"

theorem requests_are_isolated_blocked :
    ∃ p p', Project.ofPayload chainPayload (some "alice") = .ok p ∧
      Project.ofPayload chainPayload (some "bob") = .ok p' ∧ p.user ≠ p'.user ∧
      ∀ c c', SameOutcome [] blockedPath (userDirectory blockedPath p.user)
        (userDirectory blockedPath p'.user) (writeArtifacts [] blockedPath p c)
        (writeArtifacts [] blockedPath p' c') blockedDisk := by
  obtain ⟨p, -, hp, -, hname⟩ := exists_for_user "alice" (by decide)
  obtain ⟨p', -, hp', -, hname'⟩ := exists_for_user "bob" (by decide)
  have hne : p.user ≠ p'.user := by
    rw [hname, hname']
    decide
  exact ⟨p, p', hp, hp', hne, fun c c' =>
    (requests_are_isolated hp hp' hne c c' [] blockedPath blockedDisk).2.2⟩

/-- A request whose directory cannot be made does nothing more. -/
theorem writeArtifacts_of_not_made {fault : DiskFault} (c : Compiled)
    (h : (d.createDirectories workingDirectory (userDirectory outDir p.user)).2 = .error fault) :
    writeArtifacts workingDirectory outDir p c d
      = ((d.createDirectories workingDirectory (userDirectory outDir p.user)).1,
          .error ⟨userDirectory outDir p.user, fault⟩) := by
  rw [writeArtifacts_eq, andThen, h]

theorem blocked_by_file_in_order :
    ∃ p c p' c', Project.ofPayload chainPayload (some "alice") = .ok p ∧
      p.compile .tensorflow chainOptions = .ok c ∧
      Project.ofPayload chainPayload (some "bob") = .ok p' ∧
      p'.compile .tensorflow chainOptions = .ok c' ∧ p.user ≠ p'.user ∧
      (writeArtifacts [] blockedPath p c blockedDisk).2
        = .error ⟨"new/../blocker/alice", .alreadyExists⟩ ∧
      (writeArtifacts [] blockedPath p c (writeArtifacts [] blockedPath p' c' blockedDisk).1).2
        = .error ⟨"new/../blocker/alice", .notADirectory⟩ := by
  obtain ⟨p, c, hp, hc, hname⟩ := exists_for_user "alice" (by decide)
  obtain ⟨p', c', hp', hc', hname'⟩ := exists_for_user "bob" (by decide)
  refine ⟨p, c, p', c', hp, hc, hp', hc', by rw [hname, hname']; decide, ?_, ?_⟩
  · have hfirst : (blockedDisk.createDirectories [] (userDirectory blockedPath p.user)).2
        = .error .alreadyExists := by
      rw [hname]
      decide +kernel
    rw [writeArtifacts_of_not_made c hfirst, hname]
    rfl
  · have hfirst : (blockedDisk.createDirectories [] (userDirectory blockedPath p'.user)).2
        = .error .alreadyExists := by
      rw [hname']
      decide +kernel
    have hsecond : ((blockedDisk.createDirectories [] (userDirectory blockedPath p'.user)).1
        |>.createDirectories [] (userDirectory blockedPath p.user)).2
        = .error .notADirectory := by
      rw [hname, hname']
      decide +kernel
    rw [writeArtifacts_of_not_made c' hfirst, writeArtifacts_of_not_made c hsecond, hname]
    rfl

end LayerScript
