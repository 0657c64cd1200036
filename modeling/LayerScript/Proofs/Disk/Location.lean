/-
`Proofs/Disk/Location.lean` -- the location that a path leads to.

There are no links on a disk, so a path can be followed on paper: from its start, a step at a
time, without looking at what stands anywhere (`Path.locationOf`). Whether it can be followed on a
disk is another matter, but where it can it leads there, and what is said about steps on a disk
carries over to paths.
-/
import LayerScript.Proofs.Disk.Directories

set_option autoImplicit false

namespace LayerScript

open Disk

/-! ## 1. Locations -/

namespace Path

/-- The location that a path starts from. -/
def startOf (workingDirectory : Location) (path : String) : Location :=
  if path.toList.head? == some '/' then [] else workingDirectory

/-- The location that a path leads to as it is written. -/
def locationOf (workingDirectory : Location) (path : String) : Location :=
  walk (startOf workingDirectory path) (stepsOf path.toList)

/-- Whether a path leads through a location, or to it. -/
def LeadsThrough (workingDirectory : Location) (path : String) (l : Location) : Prop :=
  ∃ front back, stepsOf path.toList = front ++ back ∧ l = walk (startOf workingDirectory path) front

variable {workingDirectory : Location} {directory name text : String}

/-- A path that was taken apart has the start and the steps of its text. -/
theorem start_and_steps_of_ofText (workingDirectory : Location) {p : Path}
    (h : ofText text = some p) :
    p.start workingDirectory = startOf workingDirectory text ∧ p.steps = stepsOf text.toList := by
  unfold ofText at h
  cases htext : text.toList with
  | nil =>
      rw [htext] at h
      cases h
  | cons c rest =>
      rw [htext] at h
      cases h
      unfold start startOf
      rw [htext]
      exact ⟨by simp, rfl⟩

/-- Only the empty text is no path. -/
theorem toList_eq_nil_of_ofText (h : ofText text = none) : text.toList = [] := by
  unfold ofText at h
  cases htext : text.toList with
  | nil => rfl
  | cons c rest =>
      rw [htext] at h
      cases h

/-- The steps to a name in a directory are those to the directory, and one more. -/
theorem stepsOf_join (directory : String) (h : Step.IsEntryName name) :
    stepsOf (join directory name).toList = stepsOf directory.toList ++ [.into name] :=
  (start_and_steps_of_ofText [] (ofText_join directory h)).2.symm

theorem startOf_join (workingDirectory : Location) (directory : String)
    (h : Step.IsEntryName name) :
    startOf workingDirectory (join directory name) = startOf workingDirectory directory := by
  unfold startOf
  rw [head?_join directory h]

theorem locationOf_join (workingDirectory : Location) (directory : String)
    (h : Step.IsEntryName name) :
    locationOf workingDirectory (join directory name)
      = locationOf workingDirectory directory ++ [name] := by
  rw [locationOf, startOf_join _ _ h, stepsOf_join _ h, walk_snoc]
  rfl

/-- What is looked up stands where its path leads as it is written. -/
theorem eq_locationOf_of_locate {d : Disk} {l : Location} {wantsDirectory : Bool}
    (h : d.locate workingDirectory text = .ok (l, wantsDirectory)) :
    l = locationOf workingDirectory text := by
  obtain ⟨-, p, hp, hfollow, -⟩ := locate_eq_ok_iff.mp h
  obtain ⟨hstart, hsteps⟩ := start_and_steps_of_ofText workingDirectory hp
  rw [hstart, hsteps] at hfollow
  exact eq_walk_of_follow hfollow

/-- Disks that look alike along the steps of a text do so along its path. -/
theorem alikeOn {T : Disk → Disk → Prop}
    (h : AlikeAlong T (startOf workingDirectory text) (stepsOf text.toList)) :
    AlikeOn T workingDirectory text := by
  intro p hp
  obtain ⟨hstart, hsteps⟩ := start_and_steps_of_ofText workingDirectory hp
  rwa [hstart, hsteps]

end Path

/-! ## 2. Paths that are refused -/

namespace Disk

open LayerScript.Path

variable {d : Disk} {workingDirectory : Location} {path : String}

theorem writtenFault_eq_none_iff {path : String} :
    writtenFault path = none ↔ '\x00' ∉ path.toList ∧ path.utf8ByteSize ≤ Path.maxSize := by
  unfold writtenFault
  split
  · simp_all
  · split <;> simp_all

/-- When the path of a name in a directory is not refused as it is written, that of the directory
is not. -/
theorem writtenFault_of_join {directory name : String}
    (h : writtenFault (join directory name) = none) : writtenFault directory = none := by
  -- What is joined begins with the directory, of which the empty one is a case of its own.
  have hprefix : directory = "" ∨ ∃ rest, join directory name = directory ++ rest := by
    unfold join
    cases hlast : directory.toList.getLast? with
    | none => exact Or.inl (String.toList_inj.mp (List.getLast?_eq_none_iff.mp hlast))
    | some c =>
        right
        dsimp only
        split
        · exact ⟨name, rfl⟩
        · exact ⟨"/" ++ name, String.append_assoc⟩
  rcases hprefix with rfl | ⟨rest, hrest⟩
  · decide
  · rw [writtenFault_eq_none_iff, hrest, String.toList_append, List.mem_append, not_or,
      String.utf8ByteSize_append] at h
    exact writtenFault_eq_none_iff.mpr ⟨h.1.1, le_trans (Nat.le_add_right _ _) h.2⟩

/-! ## 3. Directories -/

/-- The directory of a path is reached along its steps, if it can be looked up as it is written. -/
theorem createDirectories_eq_reach (h : writtenFault path = none) (d : Disk) :
    d.createDirectories workingDirectory path
      = d.reach (startOf workingDirectory path) (stepsOf path.toList) := by
  unfold createDirectories
  rw [h]
  cases hp : ofText path with
  | none =>
      rw [toList_eq_nil_of_ofText hp]
      rfl
  | some p =>
      obtain ⟨hstart, hsteps⟩ := start_and_steps_of_ofText workingDirectory hp
      dsimp only
      rw [hstart, hsteps]
      rfl

/-- The directory of a path that is refused as it is written is made on no disk. -/
theorem createDirectories_of_refused {fault : DiskFault} (h : writtenFault path = some fault)
    (d : Disk) : d.createDirectories workingDirectory path = (d, .error fault) := by
  unfold createDirectories
  rw [h]

/-- To create the directories of a path again changes nothing. -/
theorem createDirectories_again (d : Disk) (workingDirectory : Location) (path : String) :
    ((d.createDirectories workingDirectory path).1.createDirectories workingDirectory path).1
      = (d.createDirectories workingDirectory path).1 := by
  cases hwritten : writtenFault path with
  | some fault => simp only [createDirectories_of_refused hwritten]
  | none =>
      simp only [createDirectories_eq_reach hwritten]
      exact reach_again d _ _

/-- Creating directories looks at the locations on the way. -/
theorem uniform_createDirectories {T : Disk → Disk → Prop} {allowed : Set (Location × Entry)}
    (hT : Stable T)
    (halike : ∀ front back, stepsOf path.toList = front ++ back →
      AlikeAlong T (startOf workingDirectory path) front)
    (hallowed : ∀ l, LeadsThrough workingDirectory path l → (l, .directory) ∈ allowed) :
    Uniform T allowed fun d => d.createDirectories workingDirectory path := by
  cases hwritten : writtenFault path with
  | some fault =>
      simp only [createDirectories_of_refused hwritten]
      exact Uniform.const _ _ (Except.error fault)
  | none =>
      simp only [createDirectories_eq_reach hwritten]
      exact uniform_reach hT _ halike fun front back h => hallowed _ ⟨front, back, h, rfl⟩

/-- A directory that is entered is the one that its path leads to. -/
theorem eq_locationOf_of_enter {l : Location} (h : d.enter workingDirectory path = .ok l) :
    l = locationOf workingDirectory path := by
  unfold enter at h
  obtain ⟨⟨m, wantsDirectory⟩, hlocate, h⟩ := bind_eq_ok_iff.mp h
  dsimp only at h
  split at h <;> cases h
  exact eq_locationOf_of_locate hlocate

/-- A directory is missing when its path cannot be followed for that reason. -/
theorem enter_of_follow_missing {path : String} (h : writtenFault path = none)
    (hmissing : d.follow (startOf workingDirectory path) (stepsOf path.toList) = .error .missing) :
    d.enter workingDirectory path = .error .missing := by
  unfold enter locate
  rw [h]
  cases hp : ofText path with
  | none => rfl
  | some p =>
      obtain ⟨hstart, hsteps⟩ := start_and_steps_of_ofText workingDirectory hp
      dsimp only
      rw [hstart, hsteps, hmissing]
      rfl

end Disk

end LayerScript
